import Mathlib.Algebra.Ring.Nat
import Mathlib.Data.List.Nodup
import Readiness.Registry

namespace Readiness.Registry

/-!
# The roll of a registry

A registry keeps its watches twice: in slots, which are reused, and in one list of keys for each
descriptor.  The *roll* is the list that both come from: the keys of all live watches, in the order
in which the watches were added.

* `Enrolled r roll` — the slots of `r` are those on the roll, and the list of each descriptor is the
  part of the roll that watches it;
* `Enrolled.insert` / `Enrolled.forget` — an insertion appends a key to the roll and forgetting
  drops one, whichever slots are reused;
* `Versioned r roll n` — after `n < 2 ^ 32` insertions the versions increase along the roll and stay
  below the counter;
* `FiresTo r r'` — `r'` is `r` after some of its one-shot watches were disarmed.  This is all that
  reporting does to a registry, and it keeps the roll and the versions.
-/

/-! ### Enrolment -/

/-- Whether slot `key` holds a watch of `fd`. -/
def isOn (r : Registry) (fd : Fd) (key : Nat) : Bool := (r.watch? key).any fun w => w.fd = fd

theorem isOn_iff {r : Registry} {fd : Fd} {key : Nat} :
    r.isOn fd key = true ↔ ∃ w, r.watch? key = some w ∧ w.fd = fd := by
  simp [isOn, Option.any_eq_true]

/-- Dropping a key from a list drops the list with its last key. -/
theorem find?_unchain_ne_nil (chains : OrderedMap Fd (List Nat)) (fd : Fd) (key : Nat) :
    (unchain chains fd key).find? fd ≠ some [] := by
  intro hf
  unfold unchain at hf
  cases hc : chains.find? fd with
  | none => simp [hc] at hf
  | some keys =>
    simp only [hc] at hf
    by_cases hrest : (keys.filter fun k => k ≠ key) = []
    · rw [if_pos hrest, OrderedMap.find?_erase_self] at hf
      cases hf
    · rw [if_neg hrest, OrderedMap.find?_insert_self, Option.some.injEq] at hf
      exact hrest hf

/-- `roll` lists the keys of the live watches of `r` in the order in which they were added. -/
structure Enrolled (r : Registry) (roll : List Nat) : Prop where
  /-- No key is listed twice. -/
  nodup : roll.Nodup
  /-- The listed keys are those of the occupied slots. -/
  mem_iff : ∀ key, key ∈ roll ↔ (r.watch? key).isSome
  /-- The watches of a descriptor are listed in the order of the roll. -/
  chain_eq : ∀ fd, r.chain fd = roll.filter (r.isOn fd)
  /-- A descriptor without watches is not listed. -/
  find?_ne_nil : ∀ fd, r.chains.find? fd ≠ some []
  /-- The roll is as long as the registry is large. -/
  length_eq : roll.length = r.size

theorem enrolled_empty : (∅ : Registry).Enrolled [] where
  nodup := List.nodup_nil
  mem_iff := by intro key; simp
  chain_eq := by intro fd; rfl
  find?_ne_nil := by intro fd h; cases h
  length_eq := rfl

namespace Enrolled

variable {r : Registry} {roll : List Nat}

/-- The key of the next insertion is not on the roll. -/
theorem nextKey_notMem (h : r.Enrolled roll) : r.slots.nextKey ∉ roll := by
  rw [h.mem_iff]
  have hnone : r.watch? r.slots.nextKey = none := Slots.get?_nextKey _
  simp [hnone]

/-- An insertion leaves the watches on the roll alone, for it takes another slot. -/
theorem watch?_insert_of_mem (h : r.Enrolled roll) (fd : Fd) (mask : Mask) {key : Nat}
    (hk : key ∈ roll) : (r.insert fd mask).watch? key = r.watch? key := by
  have hne : key ≠ r.slots.nextKey := fun heq => h.nextKey_notMem (heq ▸ hk)
  rw [watch?_insert, if_neg hne]

/-- The keys of a descriptor are those of its live watches. -/
theorem mem_chain_iff (h : r.Enrolled roll) {fd : Fd} {key : Nat} :
    key ∈ r.chain fd ↔ ∃ w, r.watch? key = some w ∧ w.fd = fd := by
  rw [h.chain_eq, List.mem_filter, isOn_iff, h.mem_iff]
  constructor
  · exact fun hk => hk.2
  · rintro ⟨w, hw, hfd⟩
    exact ⟨by simp [hw], w, hw, hfd⟩

/-- The keys of a descriptor are on the roll. -/
theorem mem_roll_of_mem_chain (h : r.Enrolled roll) {fd : Fd} {key : Nat} (hk : key ∈ r.chain fd) :
    key ∈ roll := by
  rw [h.chain_eq] at hk
  exact (List.mem_filter.mp hk).1

/-- A key is only listed under the descriptor of its watch. -/
theorem fd_eq_of_mem_chain (h : r.Enrolled roll) {fd : Fd} {key : Nat} {w : Watch}
    (hk : key ∈ r.chain fd) (hw : r.watch? key = some w) : w.fd = fd := by
  obtain ⟨v, hv, hfd⟩ := h.mem_chain_iff.mp hk
  rw [hw] at hv
  cases hv
  exact hfd

/-- No key is listed under two descriptors. -/
theorem eq_of_mem_chain (h : r.Enrolled roll) {fd fd' : Fd} {key : Nat} (hk : key ∈ r.chain fd)
    (hk' : key ∈ r.chain fd') : fd = fd' := by
  obtain ⟨w, hw, hfd⟩ := h.mem_chain_iff.mp hk
  rw [← hfd]
  exact h.fd_eq_of_mem_chain hk' hw

/-- A descriptor is listed exactly with its watches. -/
theorem find?_eq_some_iff (h : r.Enrolled roll) {fd : Fd} {keys : List Nat} :
    r.chains.find? fd = some keys ↔ r.chain fd = keys ∧ keys ≠ [] := by
  have hne := h.find?_ne_nil fd
  unfold chain
  cases hf : r.chains.find? fd with
  | none =>
    constructor
    · intro hc; cases hc
    · rintro ⟨rfl, hn⟩; exact absurd rfl hn
  | some ks =>
    rw [hf] at hne
    constructor
    · rintro hc
      cases hc
      exact ⟨rfl, fun hn => hne (hn ▸ rfl)⟩
    · rintro ⟨rfl, -⟩
      rfl

/-- Inserting a watch appends its key to the roll. -/
theorem insert (h : r.Enrolled roll) (fd : Fd) (mask : Mask) :
    (r.insert fd mask).Enrolled (roll ++ [r.slots.nextKey]) where
  nodup := by
    rw [List.nodup_append]
    refine ⟨h.nodup, List.nodup_singleton _, ?_⟩
    intro a ha b hb hab
    rw [List.mem_singleton] at hb
    exact h.nextKey_notMem (hb ▸ hab ▸ ha)
  mem_iff := by
    intro key
    rw [watch?_insert, List.mem_append, List.mem_singleton, h.mem_iff]
    by_cases hk : key = r.slots.nextKey <;> simp [hk]
  chain_eq := by
    intro fd'
    -- On the old keys the new watch does not show.
    have hold : roll.filter ((r.insert fd mask).isOn fd') = roll.filter (r.isOn fd') := by
      apply List.filter_congr
      intro key hkey
      unfold isOn
      rw [h.watch?_insert_of_mem fd mask hkey]
    have hnew : (r.insert fd mask).isOn fd' r.slots.nextKey = decide (fd = fd') := by
      unfold isOn
      rw [watch?_insert, if_pos rfl]
      rfl
    rw [chain_insert, List.filter_append, hold, ← h.chain_eq fd', List.filter_singleton, hnew]
    by_cases hfd : fd' = fd
    · subst hfd
      simp
    · simp [hfd, Ne.symm hfd]
  find?_ne_nil := by
    intro fd' hf
    show False
    by_cases hfd : fd' = fd
    · subst hfd
      simp [Registry.insert] at hf
    · simp only [Registry.insert, OrderedMap.find?_insert_of_ne _ _ hfd] at hf
      exact h.find?_ne_nil fd' hf
  length_eq := by
    rw [List.length_append, List.length_singleton, size_insert, h.length_eq]

/-- Forgetting a watch drops its key from the lists of all descriptors. -/
theorem chain_forget_eq_filter (h : r.Enrolled roll) {key : Nat} {w : Watch}
    (hw : r.watch? key = some w) (fd : Fd) :
    (r.forget key).chain fd = (r.chain fd).filter fun k => k ≠ key := by
  rw [chain_forget hw]
  by_cases hfd : fd = w.fd
  · rw [if_pos hfd]
  · -- The dropped key is not listed under another descriptor.
    rw [if_neg hfd]
    symm
    apply List.filter_eq_self.mpr
    intro k hk
    have hne : k ≠ key := by
      rintro rfl
      exact hfd (h.fd_eq_of_mem_chain hk hw).symm
    simpa using hne

/-- Forgetting a watch drops its key from the roll. -/
theorem forget (h : r.Enrolled roll) (key : Nat) :
    (r.forget key).Enrolled (roll.filter fun k => k ≠ key) := by
  cases hw : r.watch? key with
  | none =>
    -- A vacant slot is not on the roll, and nothing is dropped on either side.
    have hnot : key ∉ roll := by rw [h.mem_iff]; simp [hw]
    have hroll : roll.filter (fun k => k ≠ key) = roll := by
      apply List.filter_eq_self.mpr
      intro k hk
      have hne : k ≠ key := fun hkk => hnot (hkk ▸ hk)
      simpa using hne
    rw [hroll, forget_of_watch?_eq_none hw]
    exact h
  | some w =>
    -- The watches that are left are of the descriptors they were of.
    have hon : ∀ fd, (roll.filter fun k => k ≠ key).filter ((r.forget key).isOn fd) =
        (roll.filter (r.isOn fd)).filter fun k => k ≠ key := by
      intro fd
      rw [List.filter_comm (fun k => decide (k ≠ key)) (r.isOn fd)]
      apply List.filter_congr
      intro k hk
      have hne : k ≠ key := by simpa using (List.mem_filter.mp hk).2
      unfold isOn
      rw [watch?_forget, if_neg hne]
    refine ⟨h.nodup.filter _, ?_, ?_, ?_, ?_⟩
    · intro k
      rw [List.mem_filter, watch?_forget, h.mem_iff]
      by_cases hk : k = key <;> simp [hk]
    · intro fd
      rw [h.chain_forget_eq_filter hw, hon, ← h.chain_eq fd]
    · intro fd hf
      simp only [Registry.forget, hw] at hf
      by_cases hfd : fd = w.fd
      · subst hfd
        exact find?_unchain_ne_nil _ _ _ hf
      · rw [find?_unchain_of_ne _ _ hfd] at hf
        exact h.find?_ne_nil fd hf
    · -- No key is listed twice, so the roll loses exactly one.
      have hmem : key ∈ roll := by rw [h.mem_iff]; simp [hw]
      have hfilter : (roll.filter fun k => k ≠ key) = roll.erase key := by
        rw [h.nodup.erase_eq_filter]
        apply List.filter_congr
        intro k _
        by_cases hk : k = key <;> simp [hk]
      have hpos : 0 < roll.length := List.length_pos_of_mem hmem
      have hsize := size_forget hw
      rw [hfilter, List.length_erase_of_mem hmem]
      have hlen := h.length_eq
      omega

/-- An insertion that is taken back leaves the roll as it was. -/
theorem filter_append_nextKey (h : r.Enrolled roll) :
    (roll ++ [r.slots.nextKey]).filter (fun k => k ≠ r.slots.nextKey) = roll := by
  have hold : roll.filter (fun k => k ≠ r.slots.nextKey) = roll := by
    apply List.filter_eq_self.mpr
    intro k hk
    have hne : k ≠ r.slots.nextKey := fun hkk => h.nextKey_notMem (hkk ▸ hk)
    simpa using hne
  rw [List.filter_append, hold]
  simp

end Enrolled

/-! ### Versions along the roll -/

/-- The versions of a registry after `n` insertions, along its roll. -/
structure Versioned (r : Registry) (roll : List Nat) (n : Nat) : Prop where
  /-- Each insertion took one version. -/
  toNat_next : r.nextVersion.toNat = n
  /-- No live watch has a version that is still to come. -/
  lt_next : ∀ {key w}, r.watch? key = some w → w.version < r.nextVersion
  /-- Later watches have larger versions. -/
  increasing : roll.Pairwise fun j k =>
    ∀ v w, r.watch? j = some v → r.watch? k = some w → v.version < w.version

theorem versioned_empty : (∅ : Registry).Versioned [] 0 where
  toNat_next := rfl
  lt_next := by intro key w h; cases h
  increasing := List.Pairwise.nil

namespace Versioned

variable {r : Registry} {roll : List Nat} {n : Nat}

/-- An insertion takes the largest version so far, as long as the counter does not wrap. -/
theorem insert (h : r.Versioned roll n) (he : r.Enrolled roll) (hn : n + 1 < 2 ^ 32) (fd : Fd)
    (mask : Mask) : (r.insert fd mask).Versioned (roll ++ [r.slots.nextKey]) (n + 1) := by
  -- This is where the bound on the number of insertions is needed.
  have hnext : (r.insert fd mask).nextVersion.toNat = n + 1 := by
    have h1 : (1 : UInt32).toNat = 1 := rfl
    rw [nextVersion_insert, UInt32.toNat_add, h.toNat_next, h1, Nat.mod_eq_of_lt hn]
  have hlt : r.nextVersion < (r.insert fd mask).nextVersion := by
    rw [UInt32.lt_iff_toNat_lt, hnext, h.toNat_next]
    exact Nat.lt_succ_self n
  refine ⟨hnext, ?_, ?_⟩
  · intro key w hw
    rw [watch?_insert] at hw
    by_cases hk : key = r.slots.nextKey
    · rw [if_pos hk] at hw
      cases hw
      exact hlt
    · rw [if_neg hk] at hw
      exact UInt32.lt_trans (h.lt_next hw) hlt
  · rw [List.pairwise_append]
    refine ⟨?_, List.pairwise_singleton _ _, ?_⟩
    · apply h.increasing.imp_of_mem
      intro j k hj hk hjk
      rw [he.watch?_insert_of_mem fd mask hj, he.watch?_insert_of_mem fd mask hk]
      exact hjk
    · intro j hj k hk v w hv hw
      rw [List.mem_singleton] at hk
      subst hk
      rw [he.watch?_insert_of_mem fd mask hj] at hv
      rw [watch?_insert, if_pos rfl] at hw
      cases hw
      exact h.lt_next hv

/-- Forgetting a watch keeps the versions of the others. -/
theorem forget (h : r.Versioned roll n) (key : Nat) :
    (r.forget key).Versioned (roll.filter fun k => k ≠ key) n := by
  have hold : ∀ {k w}, (r.forget key).watch? k = some w → r.watch? k = some w := by
    intro k w hw
    rw [watch?_forget] at hw
    by_cases hk : k = key
    · rw [if_pos hk] at hw
      cases hw
    · rwa [if_neg hk] at hw
  refine ⟨?_, ?_, ?_⟩
  · rw [nextVersion_forget]
    exact h.toNat_next
  · intro k w hw
    rw [nextVersion_forget]
    exact h.lt_next (hold hw)
  · apply (h.increasing.sublist List.filter_sublist).imp
    intro j k hjk v w hv hw
    exact hjk v w (hold hv) (hold hw)

end Versioned

/-! ### Firing -/

/-- `r'` is `r` after some watches without the option to persist were disarmed. -/
structure FiresTo (r r' : Registry) : Prop where
  /-- The lists of keys stay. -/
  chains_eq : r'.chains = r.chains
  /-- The next insertion gets the same token. -/
  nextToken_eq : r'.nextToken = r.nextToken
  /-- No watch is added or dropped. -/
  size_eq : r'.size = r.size
  /-- A watch stays as it is, or is disarmed and does not persist. -/
  watch?_eq : ∀ key, r'.watch? key = r.watch? key ∨
    ∃ w, r.watch? key = some w ∧ w.mask.isPersistent = false ∧
      r'.watch? key = some { w with armed := false }

namespace FiresTo

variable {r r' r'' : Registry}

theorem refl (r : Registry) : r.FiresTo r where
  chains_eq := rfl
  nextToken_eq := rfl
  size_eq := rfl
  watch?_eq := fun _ => Or.inl rfl

theorem trans (h : r.FiresTo r') (h' : r'.FiresTo r'') : r.FiresTo r'' where
  chains_eq := h'.chains_eq.trans h.chains_eq
  nextToken_eq := h'.nextToken_eq.trans h.nextToken_eq
  size_eq := h'.size_eq.trans h.size_eq
  watch?_eq := by
    intro key
    rcases h'.watch?_eq key with heq | ⟨w', hw', hp', heq⟩
    · rw [heq]
      exact h.watch?_eq key
    · -- A watch that was disarmed twice was disarmed.
      refine Or.inr ?_
      rcases h.watch?_eq key with heq₁ | ⟨w, hw, hp, heq₁⟩
      · exact ⟨w', heq₁ ▸ hw', hp', heq⟩
      · rw [heq₁] at hw'
        cases hw'
        exact ⟨w, hw, hp, heq⟩

/-- Setting the flag of an armed watch to whether it persists lets it fire. -/
theorem setArmed {key : Nat} {w : Watch} (hw : r.watch? key = some w) (ha : w.armed = true) :
    r.FiresTo (r.setArmed key w.mask.isPersistent) where
  chains_eq := rfl
  nextToken_eq := by
    unfold nextToken Registry.setArmed
    rw [Slots.nextKey_modify]
  size_eq := size_setArmed _ _ _
  watch?_eq := by
    intro k
    rw [watch?_setArmed]
    by_cases hk : k = key
    · subst hk
      cases hp : w.mask.isPersistent with
      | true =>
        -- The flag is set to what it was.
        left
        cases w
        simp_all
      | false =>
        right
        exact ⟨w, hw, hp, by simp [hw]⟩
    · exact Or.inl (if_neg hk)

@[simp] theorem chain_eq (h : r.FiresTo r') (fd : Fd) : r'.chain fd = r.chain fd := by
  unfold chain
  rw [h.chains_eq]

/-- Every watch was there before, with the same descriptor, mask and version. -/
theorem exists_watch (h : r.FiresTo r') {key : Nat} {w' : Watch} (hw' : r'.watch? key = some w') :
    ∃ w, r.watch? key = some w ∧ w'.fd = w.fd ∧ w'.mask = w.mask ∧ w'.version = w.version ∧
      (w'.armed = true → w.armed = true) := by
  rcases h.watch?_eq key with heq | ⟨w, hw, -, heq⟩
  · exact ⟨w', heq ▸ hw', rfl, rfl, rfl, id⟩
  · rw [heq] at hw'
    cases hw'
    exact ⟨w, hw, rfl, rfl, rfl, fun ha => by cases ha⟩

/-- Watches that persist stay as they are. -/
theorem watch?_of_isPersistent (h : r.FiresTo r') {key : Nat} {w : Watch}
    (hw : r.watch? key = some w) (hp : w.mask.isPersistent = true) : r'.watch? key = some w := by
  rcases h.watch?_eq key with heq | ⟨v, hv, hvp, -⟩
  · rw [heq, hw]
  · rw [hw] at hv
    cases hv
    rw [hp] at hvp
    cases hvp

theorem isSome_watch? (h : r.FiresTo r') (key : Nat) :
    (r'.watch? key).isSome = (r.watch? key).isSome := by
  rcases h.watch?_eq key with heq | ⟨w, hw, -, heq⟩
  · rw [heq]
  · rw [heq, hw]
    rfl

theorem isOn_eq (h : r.FiresTo r') (fd : Fd) (key : Nat) : r'.isOn fd key = r.isOn fd key := by
  unfold isOn
  rcases h.watch?_eq key with heq | ⟨w, hw, -, heq⟩
  · rw [heq]
  · rw [heq, hw]
    rfl

/-- Firing keeps the roll. -/
theorem enrolled (h : r.FiresTo r') {roll : List Nat} (he : r.Enrolled roll) :
    r'.Enrolled roll where
  nodup := he.nodup
  mem_iff := by
    intro key
    rw [he.mem_iff, h.isSome_watch?]
  chain_eq := by
    intro fd
    rw [h.chain_eq, he.chain_eq]
    exact List.filter_congr fun key _ => (h.isOn_eq fd key).symm
  find?_ne_nil := by
    intro fd
    rw [h.chains_eq]
    exact he.find?_ne_nil fd
  length_eq := by
    rw [he.length_eq, h.size_eq]

/-- Firing keeps the versions. -/
theorem versioned (h : r.FiresTo r') {roll : List Nat} {n : Nat} (hv : r.Versioned roll n) :
    r'.Versioned roll n := by
  have hnext : r'.nextVersion = r.nextVersion := congrArg Token.version h.nextToken_eq
  refine ⟨?_, ?_, ?_⟩
  · rw [hnext]
    exact hv.toNat_next
  · intro key w' hw'
    obtain ⟨w, hw, -, -, hversion, -⟩ := h.exists_watch hw'
    rw [hnext, hversion]
    exact hv.lt_next hw
  · apply hv.increasing.imp
    intro j k hjk v' w' hv' hw'
    obtain ⟨v, hv, -, -, hvversion, -⟩ := h.exists_watch hv'
    obtain ⟨w, hw, -, -, hwversion, -⟩ := h.exists_watch hw'
    rw [hvversion, hwversion]
    exact hjk v w hv hw

end FiresTo

end Readiness.Registry
