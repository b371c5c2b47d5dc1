namespace Readiness

/-!
# Finite maps in insertion order

`OrderedMap κ α` keeps its bindings in the order in which their keys first came in, at most one
binding per key:

* `find?` is the view of a map as a partial function;
* `insert` replaces a binding in place, or appends a new one;
* `erase` drops a binding and keeps the order of the rest.

The lemmas below give the effect of `insert` and `erase` on `find?` and on `keys`.
-/

/-- A finite map whose bindings are listed in insertion order. -/
structure OrderedMap (κ α : Type) where
  /-- The bindings, oldest key first. -/
  entries : List (κ × α)
  /-- No key is bound twice. -/
  nodup : (entries.map Prod.fst).Nodup

namespace OrderedMap

variable {κ α : Type}

/-- The map without bindings. -/
def empty : OrderedMap κ α := ⟨[], by simp⟩

instance : EmptyCollection (OrderedMap κ α) := ⟨empty⟩

instance : Inhabited (OrderedMap κ α) := ⟨empty⟩

/-- Two maps with the same bindings in the same order are equal. -/
theorem ext {m m' : OrderedMap κ α} (h : m.entries = m'.entries) : m = m' := by
  cases m; cases m'; simp_all

/-- The bound keys, oldest first. -/
def keys (m : OrderedMap κ α) : List κ := m.entries.map Prod.fst

/-- The bound values, in the order of their keys. -/
def values (m : OrderedMap κ α) : List α := m.entries.map Prod.snd

/-- Replaces every value by its image, keys and order kept. -/
def mapValues {β : Type} (f : κ → α → β) (m : OrderedMap κ α) : OrderedMap κ β where
  entries := m.entries.map fun e => (e.1, f e.1 e.2)
  nodup := by simpa [List.map_map, Function.comp_def] using m.nodup

variable [DecidableEq κ]

/-- The value bound to `k`. -/
def find? (m : OrderedMap κ α) (k : κ) : Option α :=
  (m.entries.find? fun e => e.1 = k).map Prod.snd

/-- Binds `k` to `a`: in the place of its old binding, or at the end. -/
def insert (m : OrderedMap κ α) (k : κ) (a : α) : OrderedMap κ α :=
  if h : k ∈ m.entries.map Prod.fst then
    ⟨m.entries.map fun e => if e.1 = k then (k, a) else e, by
      have : (m.entries.map fun e => if e.1 = k then (k, a) else e).map Prod.fst
          = m.entries.map Prod.fst := by
        rw [List.map_map]
        refine List.map_congr_left fun e _ => ?_
        by_cases he : e.1 = k <;> simp [he]
      rw [this]; exact m.nodup⟩
  else
    ⟨m.entries ++ [(k, a)], by
      rw [List.map_append, List.nodup_append]
      refine ⟨m.nodup, by simp, ?_⟩
      intro x hx y hy hxy
      simp only [List.map_cons, List.map_nil, List.mem_singleton] at hy
      exact h (hy ▸ hxy ▸ hx)⟩

/-- Drops the binding of `k`, if there is one. -/
def erase (m : OrderedMap κ α) (k : κ) : OrderedMap κ α :=
  ⟨m.entries.filter fun e => e.1 ≠ k, m.nodup.sublist (List.filter_sublist.map Prod.fst)⟩

/-! ### Effect on look-ups -/

@[simp] theorem find?_empty (k : κ) : (∅ : OrderedMap κ α).find? k = none := rfl

/-- A key is bound exactly when it is listed. -/
theorem find?_eq_none_iff (m : OrderedMap κ α) (k : κ) : m.find? k = none ↔ k ∉ m.keys := by
  simp only [find?, keys, Option.map_eq_none_iff, List.find?_eq_none, List.mem_map, decide_eq_true_eq]
  grind

/-- The last insertion for a key is what a look-up finds. -/
@[simp] theorem find?_insert_self (m : OrderedMap κ α) (k : κ) (a : α) :
    (m.insert k a).find? k = some a := by
  unfold insert
  split
  · -- The key is bound: its entry is replaced, and no other entry has this key.
    next h =>
    obtain ⟨e, he, rfl⟩ := List.mem_map.mp h
    simp only [find?, List.find?_map, Option.map_map]
    cases hf : m.entries.find? ((fun x => decide (x.1 = e.1)) ∘
        fun x => if x.1 = e.1 then (e.1, a) else x) with
    | none =>
      have := List.find?_eq_none.mp hf e he
      simp at this
    | some x =>
      have := List.find?_some hf
      by_cases hx : x.1 = e.1 <;> simp_all
  · -- The key is new: the search runs through to the appended entry.
    next h =>
    have : m.entries.find? (fun e => decide (e.1 = k)) = none := by
      rw [List.find?_eq_none]
      intro e he
      have : e.1 ≠ k := fun hk => h (hk ▸ List.mem_map_of_mem he)
      simpa using this
    simp [find?, List.find?_append, this]

/-- An insertion leaves the other keys alone. -/
theorem find?_insert_of_ne (m : OrderedMap κ α) {k k' : κ} (a : α) (hk : k' ≠ k) :
    (m.insert k a).find? k' = m.find? k' := by
  unfold insert
  split
  · -- Replacing the entry of `k` does not move the test for `k'`.
    simp only [find?, List.find?_map, Option.map_map]
    have hp : ((fun x : κ × α => decide (x.1 = k')) ∘ fun x => if x.1 = k then (k, a) else x)
        = fun x => decide (x.1 = k') := by
      funext x
      by_cases hx : x.1 = k
      · simp [hx]
      · simp [hx]
    rw [hp]
    cases hf : m.entries.find? (fun x => decide (x.1 = k')) with
    | none => rfl
    | some x =>
      have := List.find?_some hf
      simp only [decide_eq_true_eq] at this
      simp [show x.1 ≠ k from this ▸ hk]
  · have hnone : List.find? (fun e : κ × α => decide (e.1 = k')) [(k, a)] = none := by
      simp [Ne.symm hk]
    simp only [find?, List.find?_append, hnone, Option.or_none]

/-- An erased key is no longer bound. -/
@[simp] theorem find?_erase_self (m : OrderedMap κ α) (k : κ) : (m.erase k).find? k = none := by
  simp [find?, erase]

/-- Erasing a key leaves the other keys alone. -/
theorem find?_erase_of_ne (m : OrderedMap κ α) {k k' : κ} (hk : k' ≠ k) :
    (m.erase k).find? k' = m.find? k' := by
  simp only [find?, erase, List.find?_filter]
  congr 2
  funext e
  by_cases he : e.1 = k'
  · simp [he, hk]
  · simp [he]

/-- In a list without repeated keys, a search for a key finds its only entry. -/
private theorem find?_eq_some_of_mem {l : List (κ × α)} (hnd : (l.map Prod.fst).Nodup) {k : κ}
    {a : α} (h : (k, a) ∈ l) : l.find? (fun e => e.1 = k) = some (k, a) := by
  induction l with
  | nil => cases h
  | cons e l ih =>
    rw [List.map_cons, List.nodup_cons] at hnd
    rcases List.mem_cons.mp h with rfl | hl
    · simp
    · have hne : e.1 ≠ k := by
        intro he
        have hmem : (k, a).1 ∈ l.map Prod.fst := List.mem_map_of_mem hl
        exact hnd.1 (he ▸ hmem)
      rw [List.find?_cons_of_neg (by simpa using hne)]
      exact ih hnd.2 hl

/-- The bindings are what look-ups find. -/
theorem mem_entries_iff (m : OrderedMap κ α) (k : κ) (a : α) :
    (k, a) ∈ m.entries ↔ m.find? k = some a := by
  unfold find?
  constructor
  · intro h
    rw [find?_eq_some_of_mem m.nodup h]
    rfl
  · intro h
    obtain ⟨e, hf, rfl⟩ := Option.map_eq_some_iff.mp h
    have hk : e.1 = k := by simpa using List.find?_some hf
    rw [← hk]
    exact List.mem_of_find?_eq_some hf

/-- A look-up in the images finds the image. -/
@[simp] theorem find?_mapValues {β : Type} (m : OrderedMap κ α) (f : κ → α → β) (k : κ) :
    (m.mapValues f).find? k = (m.find? k).map (f k) := by
  unfold find? mapValues
  simp only [List.find?_map, Option.map_map, Function.comp_def]
  cases hf : m.entries.find? (fun e => decide (e.1 = k)) with
  | none => rfl
  | some e =>
    have hk : e.1 = k := by simpa using List.find?_some hf
    simp [hk]

/-! ### Changes that undo each other -/

/-- The bindings after an insertion for a bound key. -/
theorem entries_insert_of_find? {m : OrderedMap κ α} {k : κ} {a : α} (h : m.find? k = some a)
    (b : α) : (m.insert k b).entries = m.entries.map fun e => if e.1 = k then (k, b) else e := by
  have hk : k ∈ m.entries.map Prod.fst :=
    List.mem_map_of_mem (f := Prod.fst) ((m.mem_entries_iff k a).mpr h)
  unfold insert
  rw [dif_pos hk]

/-- Binding a key to what it is bound to changes nothing. -/
theorem insert_of_find? {m : OrderedMap κ α} {k : κ} {a : α} (h : m.find? k = some a) :
    m.insert k a = m := by
  apply ext
  rw [entries_insert_of_find? h]
  refine (List.map_congr_left fun e he => ?_).trans (List.map_id m.entries)
  by_cases hk : e.1 = k
  · -- This is the one binding of the key.
    have hfind : m.find? e.1 = some e.2 := (m.mem_entries_iff e.1 e.2).mp he
    rw [hk, h] at hfind
    rw [if_pos hk, Option.some.inj hfind, ← hk]
    rfl
  · rw [if_neg hk]
    rfl

/-- Only the last of two insertions for a key counts. -/
theorem insert_insert {m : OrderedMap κ α} (k : κ) (a b : α) :
    (m.insert k a).insert k b = m.insert k b := by
  apply ext
  rw [entries_insert_of_find? (m.find?_insert_self k a)]
  unfold insert
  split
  · rw [List.map_map]
    refine List.map_congr_left fun e _ => ?_
    by_cases hk : e.1 = k <;> simp [hk]
  · next h =>
    rw [List.map_append]
    congr 1
    · refine (List.map_congr_left fun e he => ?_).trans (List.map_id m.entries)
      have hk : e.1 ≠ k := fun hk => h (hk ▸ List.mem_map_of_mem he)
      rw [if_neg hk]
      rfl
    · simp

/-- Erasing a key that was just bound leaves the other bindings. -/
theorem erase_insert {m : OrderedMap κ α} {k : κ} (h : m.find? k = none) (a : α) :
    (m.insert k a).erase k = m := by
  have hk : k ∉ m.entries.map Prod.fst := (m.find?_eq_none_iff k).mp h
  apply ext
  unfold insert erase
  rw [dif_neg hk]
  show (m.entries ++ [(k, a)]).filter _ = m.entries
  rw [List.filter_append]
  have hold : m.entries.filter (fun e => e.1 ≠ k) = m.entries := by
    apply List.filter_eq_self.mpr
    intro e he
    have hne : e.1 ≠ k := fun heq => hk (heq ▸ List.mem_map_of_mem he)
    simpa using hne
  rw [hold]
  simp

end OrderedMap

end Readiness
