import Readiness.Proofs.Iteration

namespace Readiness

/-!
# What the armed watches of a descriptor ask for

The registration of a descriptor is worked out from the union of the masks of its armed watches.

* `Registry.Asks` — an armed watch of a descriptor has a flag in its mask;
* `Registry.Enrolled.contains_armedMask_iff` — the union has the flags that are asked for;
* `Registry.FiresTo.isPersistent_armedMask` — reporting never takes the option to persist away;
* `Registry.SameBut` — a change that only concerns one descriptor, as insertions, removals and events
  are (`Enrolled.sameBut_insert`, `Enrolled.sameBut_forget`, `Delivery.sameBut_fanOut`).
-/

namespace Registry

/-- Some armed watch of `fd` has the flag `m` in its mask. -/
def Asks (r : Registry) (fd : Fd) (m : Mask) : Prop :=
  ∃ key w, r.watch? key = some w ∧ w.fd = fd ∧ w.armed = true ∧ w.mask.contains m = true

/-- A union of masks contains a flag exactly if one of the masks does. -/
theorem contains_foldl_union {m : Mask} (hm : m.IsFlag) (ws : List Watch) (a : Mask) :
    (ws.foldl (fun a w => a ∪ w.mask) a).contains m = true ↔
      a.contains m = true ∨ ∃ w ∈ ws, w.mask.contains m = true := by
  induction ws generalizing a with
  | nil => simp
  | cons w ws ih =>
    rw [List.foldl_cons, ih, hm.contains_union, Bool.or_eq_true, List.exists_mem_cons_iff, or_assoc]

/-- **The union of the armed masks has the flags that are asked for**, and no others. -/
theorem Enrolled.contains_armedMask_iff {r : Registry} {roll : List Nat} (h : r.Enrolled roll)
    {m : Mask} (hm : m.IsFlag) (fd : Fd) :
    (r.armedMask fd).contains m = true ↔ r.Asks fd m := by
  unfold armedMask armedMaskOf
  rw [contains_foldl_union hm, hm.contains_empty]
  -- The watches that are summed up are the armed ones under the keys of the descriptor.
  constructor
  · rintro (hf | ⟨w, hw, hc⟩)
    · cases hf
    · obtain ⟨hw, ha⟩ := List.mem_filter.mp hw
      obtain ⟨key, hk, hw⟩ := List.mem_filterMap.mp hw
      exact ⟨key, w, hw, h.fd_eq_of_mem_chain hk hw, ha, hc⟩
  · rintro ⟨key, w, hw, hfd, ha, hc⟩
    have hk : key ∈ r.chain fd := h.mem_chain_iff.mpr ⟨w, hw, hfd⟩
    exact Or.inr ⟨w, List.mem_filter.mpr ⟨List.mem_filterMap.mpr ⟨key, hk, hw⟩, ha⟩, hc⟩

/-- A union of masks takes nothing away from the masks. -/
theorem foldl_union_inter {m : Mask} (ws : List Watch) (a : Mask)
    (h : a ∩ m = m ∨ ∃ w ∈ ws, w.mask = m) :
    ws.foldl (fun a w => a ∪ w.mask) a ∩ m = m := by
  induction ws generalizing a with
  | nil => exact h.resolve_right fun ⟨_, hw, _⟩ => absurd hw List.not_mem_nil
  | cons w ws ih =>
    refine ih _ ?_
    rw [List.exists_mem_cons_iff] at h
    rcases h with h | h | h
    · exact Or.inl (Mask.union_inter_of_left h _)
    · exact Or.inl (h ▸ Mask.union_inter_self a w.mask)
    · exact Or.inr h

/-- The union has the whole mask of every armed watch. -/
theorem Enrolled.armedMask_inter {r : Registry} {roll : List Nat} (h : r.Enrolled roll) {key : Nat}
    {w : Watch} (hw : r.watch? key = some w) (ha : w.armed = true) :
    r.armedMask w.fd ∩ w.mask = w.mask := by
  have hk : key ∈ r.chain w.fd := h.mem_chain_iff.mpr ⟨w, hw, rfl⟩
  exact foldl_union_inter _ _
    (Or.inr ⟨w, List.mem_filter.mpr ⟨List.mem_filterMap.mpr ⟨key, hk, hw⟩, ha⟩, rfl⟩)

/-- The union only depends on the watches of the descriptor. -/
theorem armedMaskOf_congr {r r' : Registry} {keys : List Nat}
    (h : ∀ key ∈ keys, r'.watch? key = r.watch? key) : r'.armedMaskOf keys = r.armedMaskOf keys := by
  unfold armedMaskOf
  rw [List.filterMap_congr h]

namespace FiresTo

variable {r r' : Registry} {roll : List Nat}

/-- Nothing is asked for that was not before. -/
theorem asks (h : r.FiresTo r') {fd : Fd} {m : Mask} (ha : r'.Asks fd m) : r.Asks fd m := by
  obtain ⟨key, w', hw', hfd, harmed, hc⟩ := ha
  obtain ⟨w, hw, hfd', hmask, -, hback⟩ := h.exists_watch hw'
  exact ⟨key, w, hw, hfd'.symm.trans hfd, hback harmed, hmask ▸ hc⟩

/-- Watches that persist ask for as much as before. -/
theorem asks_persist (h : r.FiresTo r') {fd : Fd} :
    r'.Asks fd .persist ↔ r.Asks fd .persist := by
  constructor
  · exact h.asks
  · rintro ⟨key, w, hw, hfd, harmed, hc⟩
    exact ⟨key, w, h.watch?_of_isPersistent hw hc, hfd, harmed, hc⟩

/-- **Reporting keeps the mode** that the watches of a descriptor ask for. -/
theorem isPersistent_armedMask (h : r.FiresTo r') (he : r.Enrolled roll) (fd : Fd) :
    (r'.armedMask fd).isPersistent = (r.armedMask fd).isPersistent := by
  have hafter := (h.enrolled he).contains_armedMask_iff Mask.isFlag_persist fd
  have hbefore := he.contains_armedMask_iff Mask.isFlag_persist fd
  rw [Bool.eq_iff_iff]
  exact hafter.trans (h.asks_persist.trans hbefore.symm)

end FiresTo

end Registry

/-! ### Frames -/

namespace Registry

/-- `r'` differs from `r` at most in the watches of `fd`. -/
structure SameBut (fd : Fd) (r r' : Registry) : Prop where
  /-- The other descriptors have the same watches. -/
  chain_eq : ∀ {fd'}, fd' ≠ fd → r'.chain fd' = r.chain fd'
  /-- These watches ask for the same. -/
  armedMask_eq : ∀ {fd'}, fd' ≠ fd → r'.armedMask fd' = r.armedMask fd'

/-- It is enough that the keys of the other descriptors keep their watches. -/
theorem SameBut.of_watch?_eq {fd : Fd} {r r' : Registry}
    (hchain : ∀ {fd'}, fd' ≠ fd → r'.chain fd' = r.chain fd')
    (hwatch : ∀ {fd'}, fd' ≠ fd → ∀ key ∈ r.chain fd', r'.watch? key = r.watch? key) :
    r.SameBut fd r' where
  chain_eq := hchain
  armedMask_eq := by
    intro fd' hfd
    unfold armedMask
    rw [hchain hfd]
    exact armedMaskOf_congr (hwatch hfd)

namespace Enrolled

variable {r : Registry} {roll : List Nat}

/-- The key of the next insertion is not listed under any descriptor. -/
theorem ne_nextKey_of_mem_chain (h : r.Enrolled roll) {fd : Fd} {key : Nat} (hk : key ∈ r.chain fd) :
    key ≠ r.slots.nextKey := by
  rintro rfl
  exact h.nextKey_notMem (h.mem_roll_of_mem_chain hk)

/-- A new watch only concerns its descriptor. -/
theorem sameBut_insert (h : r.Enrolled roll) (fd : Fd) (mask : Mask) :
    r.SameBut fd (r.insert fd mask) := by
  refine SameBut.of_watch?_eq (fun hfd => ?_) (fun hfd key hk => ?_)
  · rw [chain_insert, if_neg hfd]
  · rw [h.watch?_insert_of_mem fd mask (h.mem_roll_of_mem_chain hk)]

/-- Forgetting a watch only concerns its descriptor. -/
theorem sameBut_forget (h : r.Enrolled roll) {key : Nat} {w : Watch} (hw : r.watch? key = some w) :
    r.SameBut w.fd (r.forget key) := by
  refine SameBut.of_watch?_eq (fun hfd => ?_) (fun hfd k hk => ?_)
  · rw [chain_forget hw, if_neg hfd]
  · have hne : k ≠ key := by
      rintro rfl
      exact hfd (h.fd_eq_of_mem_chain hk hw).symm
    rw [watch?_forget, if_neg hne]

/-- Taking an insertion back leaves every descriptor with the watches it had. -/
theorem chain_forget_insert (h : r.Enrolled roll) (fd : Fd) (mask : Mask) (fd' : Fd) :
    ((r.insert fd mask).forget r.slots.nextKey).chain fd' = r.chain fd' := by
  have hw : (r.insert fd mask).watch? r.slots.nextKey = some ⟨fd, mask, r.nextVersion, true⟩ := by
    rw [watch?_insert, if_pos rfl]
  have hfilter : (r.chain fd).filter (fun k => k ≠ r.slots.nextKey) = r.chain fd := by
    apply List.filter_eq_self.mpr
    intro k hk
    simpa using h.ne_nextKey_of_mem_chain hk
  rw [chain_forget hw, chain_insert]
  show (if fd' = fd then _ else _) = _
  by_cases hfd : fd' = fd
  · rw [if_pos hfd, if_pos hfd, List.filter_append, hfilter, hfd]
    simp
  · rw [if_neg hfd, if_neg hfd]

/-- Taking an insertion back leaves every descriptor with the union it had. -/
theorem armedMask_forget_insert (h : r.Enrolled roll) (fd : Fd) (mask : Mask) (fd' : Fd) :
    ((r.insert fd mask).forget r.slots.nextKey).armedMask fd' = r.armedMask fd' := by
  unfold armedMask
  rw [h.chain_forget_insert]
  apply armedMaskOf_congr
  intro key hk
  rw [watch?_forget, if_neg (h.ne_nextKey_of_mem_chain hk),
    h.watch?_insert_of_mem fd mask (h.mem_roll_of_mem_chain hk)]

end Enrolled

end Registry

namespace Delivery

/-- An offer leaves the other watches alone. -/
theorem watch?_offer_of_ne (fd : Fd) (ready : Mask) (d : Delivery) {key k : Nat} (hk : k ≠ key) :
    (d.offer fd ready key).registry.watch? k = d.registry.watch? k := by
  rcases d.offer_cases fd ready key with h | ⟨w, b, -, -, -, h⟩ | ⟨w, o, -, -, h⟩
  · rw [h]
  · rw [h]
    show (d.registry.setArmed key _).watch? k = _
    rw [Registry.watch?_setArmed, if_neg hk]
  · rw [h]

/-- Offers in a row leave the watches alone that they are not made to. -/
theorem watch?_foldl_offer_of_notMem (fd : Fd) (ready : Mask) {keys : List Nat} (d : Delivery)
    {k : Nat} (hk : k ∉ keys) :
    (keys.foldl (offer fd ready) d).registry.watch? k = d.registry.watch? k := by
  induction keys generalizing d with
  | nil => rfl
  | cons key keys ih =>
    rw [List.mem_cons, not_or] at hk
    rw [List.foldl_cons, ih _ hk.2, watch?_offer_of_ne _ _ _ hk.1]

/-- **An event only concerns its descriptor.** -/
theorem sameBut_fanOut {d : Delivery} {roll : List Nat} (he : d.registry.Enrolled roll)
    (e : Event) : d.registry.SameBut e.fd (d.fanOut e).registry := by
  refine Registry.SameBut.of_watch?_eq (fun _ => (d.fanOut_firesTo e).chain_eq _)
    (fun hfd key hk => ?_)
  apply watch?_foldl_offer_of_notMem
  intro hk'
  exact hfd (he.eq_of_mem_chain hk hk')

end Delivery

end Readiness
