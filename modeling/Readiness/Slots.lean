namespace Readiness

/-!
# Slot tables

A `Slots α` hands out small natural numbers as keys for stored values:

* `insert` takes the slot that was vacated last, or a new one behind all others when no slot is
  vacant;
* `remove` vacates an occupied slot;
* `get?` is the view of the table as a partial function on keys.

`mem_vacant` ties the stack of vacant slots to the cells, so an insertion never overwrites a value.
-/

/-- Values in numbered slots, with the vacant slots on a stack. -/
structure Slots (α : Type) where
  /-- One cell per slot handed out so far; `none` marks a vacant slot. -/
  cells : List (Option α)
  /-- The vacant slots, the one vacated last in front. -/
  vacant : List Nat
  /-- No slot is vacated twice. -/
  vacant_nodup : vacant.Nodup
  /-- The stack holds exactly the slots whose cell is empty. -/
  mem_vacant : ∀ k, k ∈ vacant ↔ cells[k]? = some none

namespace Slots

variable {α : Type}

/-- The table without slots. -/
def empty : Slots α := ⟨[], [], by simp, by simp⟩

instance : EmptyCollection (Slots α) := ⟨empty⟩

instance : Inhabited (Slots α) := ⟨empty⟩

/-- The value in slot `k`, if `k` is occupied. -/
def get? (s : Slots α) (k : Nat) : Option α := s.cells[k]?.join

/-- The key the next insertion hands out. -/
def nextKey (s : Slots α) : Nat := s.vacant.headD s.cells.length

/-- How many slots are occupied. -/
def size (s : Slots α) : Nat := s.cells.countP Option.isSome

/-- The occupied slots with their values, by increasing key. -/
def toList (s : Slots α) : List (Nat × α) :=
  s.cells.zipIdx.filterMap fun e => e.1.map (e.2, ·)

/-- Stores `a` in the slot `nextKey`. -/
def insert (s : Slots α) (a : α) : Slots α :=
  match hv : s.vacant with
  -- No slot is vacant: open a new one.
  | [] =>
    { cells := s.cells ++ [some a]
      vacant := []
      vacant_nodup := by simp
      mem_vacant := by
        intro k
        have hk := s.mem_vacant k
        simp only [hv, List.not_mem_nil, false_iff] at hk ⊢
        rw [List.getElem?_append]
        split
        · exact hk
        · next h =>
          cases hd : k - s.cells.length <;> simp }
  -- Reuse the slot that was vacated last.
  | v :: rest =>
    { cells := s.cells.set v (some a)
      vacant := rest
      vacant_nodup := by
        have := s.vacant_nodup
        rw [hv] at this
        exact (List.nodup_cons.mp this).2
      mem_vacant := by
        intro k
        have hk := s.mem_vacant k
        have hnd := s.vacant_nodup
        rw [hv] at hk hnd
        have hv' := (List.nodup_cons.mp hnd).1
        rw [List.getElem?_set]
        by_cases hvk : v = k
        · subst hvk
          by_cases hlt : v < s.cells.length <;> simp [hv', hlt]
        · simp only [hvk, if_false, ← hk, List.mem_cons]
          constructor
          · exact Or.inr
          · rintro (h | h)
            · exact absurd h.symm hvk
            · exact h }

/-- Vacates slot `k`; a slot that is not occupied stays as it is. -/
def remove (s : Slots α) (k : Nat) : Slots α :=
  match hk : s.get? k with
  | none => s
  | some _ =>
    { cells := s.cells.set k none
      vacant := k :: s.vacant
      vacant_nodup := by
        rw [List.nodup_cons]
        refine ⟨?_, s.vacant_nodup⟩
        rw [s.mem_vacant]
        intro h
        simp [get?, h] at hk
      mem_vacant := by
        intro j
        rw [List.mem_cons, s.mem_vacant, List.getElem?_set]
        have hlt : k < s.cells.length := by
          refine Nat.lt_of_not_le fun h => ?_
          simp [get?, List.getElem?_eq_none h] at hk
        by_cases hjk : k = j
        · subst hjk; simp [hlt]
        · simp [hjk, Ne.symm hjk] }

/-- Replaces the value in slot `k` by its image under `f`. -/
def modify (s : Slots α) (k : Nat) (f : α → α) : Slots α where
  cells := s.cells.modify k (Option.map f)
  vacant := s.vacant
  vacant_nodup := s.vacant_nodup
  mem_vacant := by
    intro j
    rw [s.mem_vacant, List.getElem?_modify]
    by_cases hkj : k = j
    · subst hkj
      cases h : s.cells[k]? with
      | none => simp
      | some c => cases c <;> simp
    · simp [hkj]

/-- Two tables with the same values that hand out the same keys are equal. -/
theorem ext_get? {s t : Slots α} (hvacant : s.vacant = t.vacant)
    (hlength : s.cells.length = t.cells.length) (hget : ∀ k, s.get? k = t.get? k) : s = t := by
  have hcell : ∀ (u : Slots α) {k : Nat}, k < u.cells.length → u.cells[k]? = some (u.get? k) := by
    intro u k hk
    unfold get?
    rw [List.getElem?_eq_getElem hk, Option.join_some]
  have hcells : s.cells = t.cells := by
    apply List.ext_getElem?
    intro k
    by_cases hk : k < s.cells.length
    · rw [hcell s hk, hcell t (hlength ▸ hk), hget]
    · rw [List.getElem?_eq_none (Nat.le_of_not_lt hk),
        List.getElem?_eq_none (hlength ▸ Nat.le_of_not_lt hk)]
  cases s
  cases t
  cases hcells
  cases hvacant
  rfl

/-! ### Effect on look-ups -/

@[simp] theorem get?_empty (k : Nat) : (∅ : Slots α).get? k = none := rfl

/-- The next key is not in use. -/
theorem get?_nextKey (s : Slots α) : s.get? s.nextKey = none := by
  unfold nextKey get?
  cases hv : s.vacant with
  | nil => simp
  | cons v rest =>
    have : s.cells[v]? = some none := (s.mem_vacant v).mp (by simp [hv])
    simp [this]

/-- An insertion fills the slot `nextKey` and no other. -/
theorem get?_insert (s : Slots α) (a : α) (k : Nat) :
    (s.insert a).get? k = if k = s.nextKey then some a else s.get? k := by
  unfold insert nextKey get?
  split
  · -- A new slot behind all others.
    next hv =>
    simp only [hv, List.headD_nil, List.getElem?_append]
    rcases Nat.lt_trichotomy k s.cells.length with h | h | h
    · simp [h, Nat.ne_of_lt h]
    · simp [h]
    · have h1 : ¬ k < s.cells.length := by omega
      have h2 : k ≠ s.cells.length := by omega
      obtain ⟨d, hd⟩ : ∃ d, k - s.cells.length = d + 1 := ⟨k - s.cells.length - 1, by omega⟩
      simp [h1, h2, hd]
  · -- The slot on top of the stack, whose cell is empty.
    next v rest hv =>
    have hcell : s.cells[v]? = some none := (s.mem_vacant v).mp (by simp [hv])
    have hlt : v < s.cells.length := by
      refine Nat.lt_of_not_le fun h => ?_
      simp [List.getElem?_eq_none h] at hcell
    simp only [hv, List.headD_cons, List.getElem?_set]
    by_cases hk : k = v
    · subst hk; simp [hlt]
    · simp [hk, Ne.symm hk]

/-- A removal empties its slot and no other. -/
theorem get?_remove (s : Slots α) (k j : Nat) :
    (s.remove k).get? j = if j = k then none else s.get? j := by
  unfold remove
  split
  · next hk =>
    by_cases hj : j = k
    · subst hj; simp [hk]
    · simp [hj]
  · next hk =>
    simp only [get?, List.getElem?_set]
    by_cases hj : j = k
    · subst hj
      by_cases hlt : j < s.cells.length <;> simp [hlt]
    · simp [hj, Ne.symm hj]

/-- A modification acts on its slot and no other. -/
theorem get?_modify (s : Slots α) (k j : Nat) (f : α → α) :
    (s.modify k f).get? j = if j = k then (s.get? j).map f else s.get? j := by
  simp only [modify, get?, List.getElem?_modify]
  by_cases hj : j = k
  · subst hj
    cases h : s.cells[j]? with
    | none => simp
    | some c => cases c <;> simp
  · simp [hj, Ne.symm hj]

/-- Modifying a value keeps the order in which slots are handed out. -/
@[simp] theorem nextKey_modify (s : Slots α) (k : Nat) (f : α → α) :
    (s.modify k f).nextKey = s.nextKey := by
  simp [nextKey, modify]

/-- A vacated slot is the next one handed out. -/
theorem nextKey_remove (s : Slots α) {k : Nat} {a : α} (h : s.get? k = some a) :
    (s.remove k).nextKey = k := by
  unfold remove
  split
  · next hk => simp [h] at hk
  · simp [nextKey]

/-! ### Effect on the size -/

@[simp] theorem size_empty : (∅ : Slots α).size = 0 := rfl

/-- An insertion occupies one more slot. -/
theorem size_insert (s : Slots α) (a : α) : (s.insert a).size = s.size + 1 := by
  unfold insert size
  split
  · simp
  · next v rest hv =>
    have hcell : s.cells[v]? = some none := (s.mem_vacant v).mp (by simp [hv])
    obtain ⟨hlt, hv⟩ := List.getElem?_eq_some_iff.mp hcell
    rw [List.countP_set hlt, hv]
    simp

/-- A removal from an occupied slot leaves one less. -/
theorem size_remove (s : Slots α) {k : Nat} {a : α} (h : s.get? k = some a) :
    (s.remove k).size + 1 = s.size := by
  unfold remove size
  split
  · next hk => simp [h] at hk
  · have hcell : s.cells[k]? = some (some a) := by
      unfold get? at h
      cases hc : s.cells[k]? with
      | none => simp [hc] at h
      | some c => simpa [hc] using h
    obtain ⟨hlt, hk⟩ := List.getElem?_eq_some_iff.mp hcell
    have hpos : 0 < s.cells.countP Option.isSome :=
      List.countP_pos_iff.mpr ⟨some a, hk ▸ List.getElem_mem hlt, rfl⟩
    rw [List.countP_set hlt, hk]
    simp
    omega

/-- A modification keeps the number of occupied slots. -/
@[simp] theorem size_modify (s : Slots α) (k : Nat) (f : α → α) :
    (s.modify k f).size = s.size := by
  simp only [modify, size, List.modify_eq_set]
  by_cases hlt : k < s.cells.length
  · rw [List.countP_set hlt]
    have hpos : s.cells[k].isSome → 0 < s.cells.countP Option.isSome := fun h =>
      List.countP_pos_iff.mpr ⟨_, List.getElem_mem hlt, h⟩
    cases hk : s.cells[k] with
    | none => simp [hlt, hk]
    | some a =>
      have := hpos (by simp [hk])
      simp [hlt, hk]
      omega
  · rw [List.set_eq_of_length_le (Nat.le_of_not_lt hlt)]

end Slots

end Readiness
