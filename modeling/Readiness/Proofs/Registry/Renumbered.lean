import Readiness.Proofs.Registry.Armed

namespace Readiness

/-!
# Registries that differ by one version

An insertion that is taken back leaves the registry as it was, but for the version it has taken: the
watches that come later get a version that is one higher.

* `Slots.upcoming` — the slots that are handed out next, in order; two tables of slots with the same
  ones hand out the same slots from then on;
* `Version.skip` — versions when one of them is left out;
* `Registry.Renumbered` — two registries that differ in nothing else.  Insertions, removals and what
  reporting does keep it (`Renumbered.insert`, `Renumbered.forget`, `Renumbered.setArmed`), and it
  shows in nothing but versions (`Renumbered.find?_eq`, `Renumbered.armedMask_eq`);
* `Registry.RolledBack` — what an insertion that is taken back leaves behind (`Enrolled.rolledBack`),
  which is one of the two for the other (`RolledBack.renumbered`).
-/

/-! ### The slots that come next -/

namespace Slots

variable {α : Type}

/-- The slot that is handed out after `i` others, if none is vacated meanwhile. -/
def upcoming (s : Slots α) (i : Nat) : Nat :=
  s.vacant[i]?.getD (s.cells.length + (i - s.vacant.length))

/-- The next slot is the first of those to come. -/
theorem upcoming_zero (s : Slots α) : s.upcoming 0 = s.nextKey := by
  unfold upcoming nextKey
  cases s.vacant with
  | nil => rfl
  | cons k rest => rfl

/-- An insertion takes the first of the slots to come. -/
theorem upcoming_insert (s : Slots α) (a : α) (i : Nat) :
    (s.insert a).upcoming i = s.upcoming (i + 1) := by
  unfold insert upcoming
  split
  · next hv =>
    simp only [hv, List.getElem?_nil, Option.getD_none, List.length_append, List.length_nil,
      List.length_singleton]
    omega
  · next k rest hv =>
    simp only [hv, List.getElem?_cons_succ, List.length_set, List.length_cons,
      Nat.add_sub_add_right]

/-- A vacated slot comes before the others. -/
theorem upcoming_remove (s : Slots α) {k : Nat} {a : α} (h : s.get? k = some a) (i : Nat) :
    (s.remove k).upcoming i = if i = 0 then k else s.upcoming (i - 1) := by
  unfold remove
  split
  · next hk =>
    rw [h] at hk
    cases hk
  · unfold upcoming
    cases i with
    | zero => rfl
    | succ i =>
      simp only [List.getElem?_cons_succ, List.length_set, List.length_cons,
        Nat.add_sub_add_right, Nat.add_sub_cancel, Nat.succ_ne_zero, if_false]

/-- Modifying a value keeps the slots to come. -/
@[simp] theorem upcoming_modify (s : Slots α) (k : Nat) (f : α → α) (i : Nat) :
    (s.modify k f).upcoming i = s.upcoming i := by
  unfold upcoming modify
  rw [List.length_modify]

end Slots

/-! ### Versions with one left out -/

/-- The number a version gets when `v` is left out.  The last version, which would have no number,
    takes the place of `v`. -/
def Version.skip (v n : UInt32) : UInt32 :=
  if n < v then n else if n = 0xffffffff then v else n + 1

namespace Version

/-- Below the one that is left out nothing changes. -/
theorem skip_of_lt {v n : UInt32} (h : n < v) : skip v n = n := if_pos h

/-- From the one that is left out to the last but one, versions are one higher. -/
theorem skip_eq_add_one {v n : UInt32} (h : v ≤ n) (hn : n.toNat + 1 < 2 ^ 32) :
    skip v n = n + 1 := by
  have hmax : n ≠ 0xffffffff := by
    rintro rfl
    exact absurd hn (by decide)
  unfold skip
  rw [if_neg (UInt32.not_lt.mpr h), if_neg hmax]

/-- Below the last one, versions are counted without wrapping. -/
theorem toNat_add_one {n : UInt32} (hn : n.toNat + 1 < 2 ^ 32) : (n + 1).toNat = n.toNat + 1 := by
  rw [UInt32.toNat_add]
  exact Nat.mod_eq_of_lt hn

/-- A version keeps its number, gets the next one, or is the last one. -/
theorem skip_cases (v n : UInt32) :
    (n.toNat < v.toNat ∧ (skip v n).toNat = n.toNat) ∨
    (v.toNat ≤ n.toNat ∧ n.toNat + 1 < 2 ^ 32 ∧ (skip v n).toNat = n.toNat + 1) ∨
    (n.toNat + 1 = 2 ^ 32 ∧ (skip v n).toNat = v.toNat) := by
  have hn : n.toNat < 2 ^ 32 := n.toNat_lt
  by_cases hlt : n < v
  · exact Or.inl ⟨UInt32.lt_iff_toNat_lt.mp hlt, by rw [skip_of_lt hlt]⟩
  have hle : v ≤ n := UInt32.not_lt.mp hlt
  by_cases hmax : n.toNat + 1 < 2 ^ 32
  · refine Or.inr (Or.inl ⟨UInt32.le_iff_toNat_le.mp hle, hmax, ?_⟩)
    rw [skip_eq_add_one hle hmax, toNat_add_one hmax]
  · have hlast : n = 0xffffffff := by
      apply UInt32.toNat_inj.mp
      show n.toNat = 4294967295
      omega
    refine Or.inr (Or.inr ⟨by omega, ?_⟩)
    unfold skip
    rw [if_neg hlt, if_pos hlast]

/-- No two versions get the same number. -/
theorem skip_injective {v m n : UInt32} (h : skip v m = skip v n) : m = n := by
  -- The numbers below `v`, those above it, and `v` itself are each taken by one kind of version.
  have heq := UInt32.toNat_inj.mpr h
  have hm := skip_cases v m
  have hn := skip_cases v n
  apply UInt32.toNat_inj.mp
  omega

/-- Counting on from a number that is one higher. -/
theorem skip_add_one {v n : UInt32} (h : v ≤ n) (hn : n.toNat + 2 < 2 ^ 32) :
    v ≤ n + 1 ∧ skip v (n + 1) = skip v n + 1 := by
  have hsucc := toNat_add_one (n := n) (by omega)
  have hle : v ≤ n + 1 := by
    rw [UInt32.le_iff_toNat_le] at h ⊢
    omega
  refine ⟨hle, ?_⟩
  rw [skip_eq_add_one hle (by omega), skip_eq_add_one h (by omega)]

end Version

/-- A token when the version `v` is left out. -/
def Token.renumber (v : UInt32) (t : Token) : Token := { t with version := Version.skip v t.version }

/-- A watch when the version `v` is left out. -/
def Watch.renumber (v : UInt32) (w : Watch) : Watch := { w with version := Version.skip v w.version }

/-! ### Registries -/

namespace Registry

/-- `r'` is `r` but for versions, of which `r'` has left out `v`. -/
structure Renumbered (v : UInt32) (r r' : Registry) : Prop where
  /-- The same slots hold the same watches. -/
  watch?_eq : ∀ key, r'.watch? key = (r.watch? key).map (Watch.renumber v)
  /-- The descriptors have the same lists. -/
  chains_eq : r'.chains = r.chains
  /-- The same slots are handed out next. -/
  upcoming_eq : ∀ i, r'.slots.upcoming i = r.slots.upcoming i
  /-- There are as many watches. -/
  size_eq : r'.size = r.size
  /-- The version has been left out. -/
  le_nextVersion : v ≤ r.nextVersion
  nextVersion_eq : r'.nextVersion = Version.skip v r.nextVersion

namespace Renumbered

variable {v : UInt32} {r r' : Registry}

theorem nextKey_eq (h : r.Renumbered v r') : r'.slots.nextKey = r.slots.nextKey := by
  rw [← Slots.upcoming_zero, ← Slots.upcoming_zero, h.upcoming_eq]

theorem chain_eq (h : r.Renumbered v r') (fd : Fd) : r'.chain fd = r.chain fd := by
  unfold chain
  rw [h.chains_eq]

/-- The next token is handed out with another number. -/
theorem nextToken_eq (h : r.Renumbered v r') : r'.nextToken = r.nextToken.renumber v := by
  unfold nextToken Token.renumber
  rw [h.nextKey_eq, h.nextVersion_eq]

/-- A token names the same watch under its other number, or none. -/
theorem find?_eq (h : r.Renumbered v r') (t : Token) :
    r'.find? (t.renumber v) = (r.find? t).map (Watch.renumber v) := by
  -- Numbers are given out once, so a token that named no watch does not come to name one.
  have hiff : ∀ w : Watch, (w.renumber v).version = (t.renumber v).version ↔ w.version = t.version :=
    fun w => ⟨Version.skip_injective, congrArg (Version.skip v)⟩
  unfold find?
  rw [show (t.renumber v).key = t.key from rfl, h.watch?_eq]
  cases hw : r.watch? t.key with
  | none => rfl
  | some w =>
    rw [Option.map_some]
    by_cases hv : w.version = t.version
    · rw [Option.filter_some_pos (by simpa using (hiff w).mpr hv),
        Option.filter_some_pos (by simpa using hv), Option.map_some]
    · rw [Option.filter_some_neg (by simpa using fun heq => hv ((hiff w).mp heq)),
        Option.filter_some_neg (by simpa using hv), Option.map_none]

/-- The watches of every descriptor ask for the same. -/
theorem armedMask_eq (h : r.Renumbered v r') (fd : Fd) : r'.armedMask fd = r.armedMask fd := by
  have hwatches : ∀ keys : List Nat,
      keys.filterMap r'.watch? = (keys.filterMap r.watch?).map (Watch.renumber v) := by
    intro keys
    rw [List.map_filterMap]
    exact List.filterMap_congr fun key _ => h.watch?_eq key
  unfold armedMask armedMaskOf
  rw [h.chain_eq, hwatches, List.filter_map, List.foldl_map]
  rfl

theorem insert (h : r.Renumbered v r') (hn : r.nextVersion.toNat + 2 < 2 ^ 32) (fd : Fd)
    (mask : Mask) : (r.insert fd mask).Renumbered v (r'.insert fd mask) where
  watch?_eq := by
    intro key
    rw [watch?_insert, watch?_insert, h.nextKey_eq, h.nextVersion_eq]
    by_cases hk : key = r.slots.nextKey
    · rw [if_pos hk, if_pos hk]
      rfl
    · rw [if_neg hk, if_neg hk, h.watch?_eq]
  chains_eq := by
    show r'.chains.insert fd (r'.chain fd ++ [r'.slots.nextKey]) = _
    rw [h.chains_eq, h.chain_eq, h.nextKey_eq]
    rfl
  upcoming_eq := by
    intro i
    show (r'.slots.insert _).upcoming i = (r.slots.insert _).upcoming i
    rw [Slots.upcoming_insert, Slots.upcoming_insert, h.upcoming_eq]
  size_eq := by
    rw [size_insert, size_insert, h.size_eq]
  le_nextVersion := (Version.skip_add_one h.le_nextVersion hn).1
  nextVersion_eq := by
    rw [nextVersion_insert, nextVersion_insert, h.nextVersion_eq,
      (Version.skip_add_one h.le_nextVersion hn).2]

theorem forget (h : r.Renumbered v r') (key : Nat) :
    (r.forget key).Renumbered v (r'.forget key) := by
  have hwatch' := h.watch?_eq key
  cases hw : r.watch? key with
  | none =>
    rw [hw] at hwatch'
    rw [forget_of_watch?_eq_none hw, forget_of_watch?_eq_none hwatch']
    exact h
  | some w =>
    rw [hw, Option.map_some] at hwatch'
    have hforget : r.forget key = ⟨r.slots.remove key, unchain r.chains w.fd key, r.nextVersion⟩ := by
      unfold Registry.forget
      rw [hw]
    have hforget' : r'.forget key =
        ⟨r'.slots.remove key, unchain r'.chains w.fd key, r'.nextVersion⟩ := by
      unfold Registry.forget
      rw [hwatch']
      rfl
    refine ⟨?_, ?_, ?_, ?_, ?_, ?_⟩
    · intro k
      rw [watch?_forget, watch?_forget, h.watch?_eq]
      by_cases hk : k = key
      · rw [if_pos hk, if_pos hk, Option.map_none]
      · rw [if_neg hk, if_neg hk]
    · rw [hforget, hforget', h.chains_eq]
    · -- The vacated slot comes first in both.
      intro i
      rw [hforget, hforget']
      show (r'.slots.remove key).upcoming i = (r.slots.remove key).upcoming i
      rw [Slots.upcoming_remove _ hw, Slots.upcoming_remove _ hwatch', h.upcoming_eq]
    · have hsize := size_forget hw
      have hsize' := size_forget hwatch'
      have heq := h.size_eq
      omega
    · rw [nextVersion_forget]
      exact h.le_nextVersion
    · rw [nextVersion_forget, nextVersion_forget]
      exact h.nextVersion_eq

theorem setArmed (h : r.Renumbered v r') (key : Nat) (armed : Bool) :
    (r.setArmed key armed).Renumbered v (r'.setArmed key armed) where
  watch?_eq := by
    intro k
    rw [watch?_setArmed, watch?_setArmed, h.watch?_eq]
    by_cases hk : k = key
    · rw [if_pos hk, if_pos hk, Option.map_map, Option.map_map]
      rfl
    · rw [if_neg hk, if_neg hk]
  chains_eq := h.chains_eq
  upcoming_eq := by
    intro i
    show (r'.slots.modify _ _).upcoming i = (r.slots.modify _ _).upcoming i
    rw [Slots.upcoming_modify, Slots.upcoming_modify, h.upcoming_eq]
  size_eq := by
    rw [size_setArmed, size_setArmed, h.size_eq]
  le_nextVersion := h.le_nextVersion
  nextVersion_eq := h.nextVersion_eq

end Renumbered

/-! ### An insertion that is taken back -/

/-- Dropping a key that was just listed behind the others leaves the lists as they were. -/
theorem unchain_insert {chains : OrderedMap Fd (List Nat)} {fd : Fd} {key : Nat}
    (hkey : key ∉ (chains.find? fd).getD []) (hne : chains.find? fd ≠ some []) :
    unchain (chains.insert fd ((chains.find? fd).getD [] ++ [key])) fd key = chains := by
  have hrest : ((chains.find? fd).getD [] ++ [key]).filter (fun k => k ≠ key) =
      (chains.find? fd).getD [] := by
    have hold : ((chains.find? fd).getD []).filter (fun k => k ≠ key) =
        (chains.find? fd).getD [] := by
      apply List.filter_eq_self.mpr
      intro k hk
      have hk' : k ≠ key := fun heq => hkey (heq ▸ hk)
      simpa using hk'
    rw [List.filter_append, hold]
    simp
  unfold unchain
  rw [OrderedMap.find?_insert_self]
  dsimp only
  rw [hrest]
  cases hf : chains.find? fd with
  | none =>
    -- The list was made for the key and goes with it.
    rw [if_pos Option.getD_none, OrderedMap.erase_insert hf]
  | some keys =>
    have hkeys : keys ≠ [] := fun hnil => hne (hnil ▸ hf)
    rw [Option.getD_some, if_neg hkeys, OrderedMap.insert_insert, OrderedMap.insert_of_find? hf]

/-- `r'` is `r` after an insertion that was taken back. -/
structure RolledBack (r r' : Registry) : Prop where
  /-- Every watch is as it was. -/
  watch?_eq : ∀ key, r'.watch? key = r.watch? key
  /-- So are the lists of keys, also those that are not there. -/
  chains_eq : r'.chains = r.chains
  /-- The same slots are handed out next. -/
  upcoming_eq : ∀ i, r'.slots.upcoming i = r.slots.upcoming i
  /-- There are as many watches. -/
  size_eq : r'.size = r.size
  /-- One version has been used up. -/
  nextVersion_eq : r'.nextVersion = r.nextVersion + 1

/-- **An insertion that is taken back** leaves nothing behind but its version. -/
theorem Enrolled.rolledBack {r : Registry} {roll : List Nat} (he : r.Enrolled roll) (fd : Fd)
    (mask : Mask) : r.RolledBack ((r.insert fd mask).forget r.slots.nextKey) := by
  have hw : (r.insert fd mask).watch? r.slots.nextKey = some ⟨fd, mask, r.nextVersion, true⟩ := by
    rw [watch?_insert, if_pos rfl]
  have hforget : (r.insert fd mask).forget r.slots.nextKey =
      ⟨(r.insert fd mask).slots.remove r.slots.nextKey,
        unchain (r.insert fd mask).chains fd r.slots.nextKey, r.nextVersion + 1⟩ := by
    unfold Registry.forget
    rw [hw]
    rfl
  refine ⟨?_, ?_, ?_, ?_, ?_⟩
  · intro key
    rw [watch?_forget, watch?_insert]
    by_cases hk : key = r.slots.nextKey
    · rw [if_pos hk, hk]
      exact (Slots.get?_nextKey r.slots).symm
    · rw [if_neg hk, if_neg hk]
  · rw [hforget]
    refine unchain_insert ?_ (he.find?_ne_nil fd)
    exact fun hmem => he.ne_nextKey_of_mem_chain hmem rfl
  · intro i
    rw [hforget]
    show ((r.insert fd mask).slots.remove r.slots.nextKey).upcoming i = _
    rw [Slots.upcoming_remove _ hw]
    -- The slot that was taken comes first again.
    cases i with
    | zero => rw [if_pos rfl, Slots.upcoming_zero]
    | succ i =>
      rw [if_neg (Nat.succ_ne_zero i), Nat.add_sub_cancel]
      show (r.slots.insert _).upcoming i = _
      rw [Slots.upcoming_insert]
  · have hsize := size_forget hw
    rw [size_insert] at hsize
    omega
  · rw [nextVersion_forget, nextVersion_insert]

/-- **It leaves its version out**, as long as the counter does not wrap. -/
theorem RolledBack.renumbered {r r' : Registry} (h : r.RolledBack r') {roll : List Nat} {n : Nat}
    (hv : r.Versioned roll n) (hn : n + 1 < 2 ^ 32) : r.Renumbered r.nextVersion r' where
  watch?_eq := by
    -- The watches that are there have versions below.
    intro key
    rw [h.watch?_eq]
    cases hw : r.watch? key with
    | none => rfl
    | some w =>
      rw [Option.map_some]
      unfold Watch.renumber
      rw [Version.skip_of_lt (hv.lt_next hw)]
  chains_eq := h.chains_eq
  upcoming_eq := h.upcoming_eq
  size_eq := h.size_eq
  le_nextVersion := UInt32.le_refl _
  nextVersion_eq := by
    rw [h.nextVersion_eq]
    exact (Version.skip_eq_add_one (UInt32.le_refl _) (by rw [hv.toNat_next]; exact hn)).symm

end Registry

end Readiness
