import Readiness.Event
import Readiness.OrderedMap
import Readiness.Slots

namespace Readiness

/-!
# The registry of watches

A `Registry` holds the live watches of a collector in two structures that belong together:

* `slots` keeps each `Watch` under a small key, which is reused once the watch is gone;
* `chains` lists, for every watched descriptor, the keys of its watches in the order in which they
  were added.

A `Token` names a watch by key and version. Each insertion takes a fresh version, so a token of a
watch that is gone does not name the watch that took over its slot (`find?`).
-/

/-- A request to report conditions of a descriptor. -/
structure Watch where
  /-- The watched descriptor. -/
  fd : Fd
  /-- The conditions asked for, with the option to keep reporting. -/
  mask : Mask
  /-- The version of the insertion that made the watch. -/
  version : UInt32
  /-- Cleared once a watch that does not persist has reported. -/
  armed : Bool
deriving DecidableEq, Inhabited

/-- A handle on a watch: its slot, and the version the slot has to carry. -/
structure Token where
  /-- The slot of the watch. -/
  key : Nat
  /-- The version of the watch. -/
  version : UInt32
deriving DecidableEq, Inhabited

/-- How a token is written. -/
def Token.text (t : Token) : String :=
  s!"WatchToken \x7b key: {t.key}, version: {t.version.toNat} \x7d"

/-- The live watches of a collector. -/
structure Registry where
  /-- The watches by key. -/
  slots : Slots Watch
  /-- The keys of the watches of each descriptor, in the order in which they were added. -/
  chains : OrderedMap Fd (List Nat)
  /-- The version of the next insertion. -/
  nextVersion : UInt32

namespace Registry

/-- The registry without watches. -/
def empty : Registry := ⟨∅, ∅, 0⟩

instance : EmptyCollection Registry := ⟨empty⟩

instance : Inhabited Registry := ⟨empty⟩

/-! ### Look-ups -/

/-- The watch in slot `key`. -/
def watch? (r : Registry) (key : Nat) : Option Watch := r.slots.get? key

/-- The watch a token names: its slot is occupied and carries the version of the token. -/
def find? (r : Registry) (t : Token) : Option Watch :=
  (r.watch? t.key).filter fun w => w.version = t.version

/-- The keys of the watches of a descriptor, in the order in which they were added. -/
def chain (r : Registry) (fd : Fd) : List Nat := (r.chains.find? fd).getD []

/-- The number of watches. -/
def size (r : Registry) : Nat := r.slots.size

/-- The union of the masks of the armed watches among `keys`. -/
def armedMaskOf (r : Registry) (keys : List Nat) : Mask :=
  ((keys.filterMap r.watch?).filter Watch.armed).foldl (fun a w => a ∪ w.mask) ∅

/-- The union of the masks of the armed watches of a descriptor. -/
def armedMask (r : Registry) (fd : Fd) : Mask := r.armedMaskOf (r.chain fd)

/-! ### Changes -/

/-- The token the next insertion hands out. -/
def nextToken (r : Registry) : Token := ⟨r.slots.nextKey, r.nextVersion⟩

/-- Adds an armed watch behind the other watches of its descriptor, named by `nextToken`. -/
def insert (r : Registry) (fd : Fd) (mask : Mask) : Registry where
  slots := r.slots.insert ⟨fd, mask, r.nextVersion, true⟩
  chains := r.chains.insert fd (r.chain fd ++ [r.slots.nextKey])
  nextVersion := r.nextVersion + 1

/-- The keys of `fd` without `key`; a descriptor without keys is not listed. -/
def unchain (chains : OrderedMap Fd (List Nat)) (fd : Fd) (key : Nat) : OrderedMap Fd (List Nat) :=
  match chains.find? fd with
  | none => chains
  | some keys =>
    let rest := keys.filter fun k => k ≠ key
    -- The last key takes the list with it.
    if rest = [] then chains.erase fd else chains.insert fd rest

/-- Drops the watch in slot `key`, and its descriptor once that has no watch left. -/
def forget (r : Registry) (key : Nat) : Registry :=
  match r.watch? key with
  | none => r
  | some w =>
    -- The counter stays: no version is handed out twice.
    { r with
      slots := r.slots.remove key
      chains := unchain r.chains w.fd key }

/-- Sets whether the watch in slot `key` is armed. -/
def setArmed (r : Registry) (key : Nat) (armed : Bool) : Registry :=
  { r with slots := r.slots.modify key fun w => { w with armed := armed } }

/-! ### Effect on look-ups -/

@[simp] theorem watch?_empty (key : Nat) : (∅ : Registry).watch? key = none := rfl

/-- An insertion makes one new watch and keeps the others. -/
theorem watch?_insert (r : Registry) (fd : Fd) (mask : Mask) (key : Nat) :
    (r.insert fd mask).watch? key =
      if key = r.slots.nextKey then some ⟨fd, mask, r.nextVersion, true⟩ else r.watch? key :=
  Slots.get?_insert _ _ _

/-- Forgetting a key drops its watch and keeps the others. -/
theorem watch?_forget (r : Registry) (key j : Nat) :
    (r.forget key).watch? j = if j = key then none else r.watch? j := by
  unfold forget
  split
  · next h =>
    by_cases hj : j = key
    · subst hj; simp [h]
    · simp [hj]
  · exact Slots.get?_remove _ _ _

/-- Arming a watch changes nothing else about it, and no other watch. -/
theorem watch?_setArmed (r : Registry) (key : Nat) (armed : Bool) (j : Nat) :
    (r.setArmed key armed).watch? j =
      if j = key then (r.watch? j).map fun w => { w with armed := armed } else r.watch? j :=
  Slots.get?_modify _ _ _ _

@[simp] theorem chain_setArmed (r : Registry) (key : Nat) (armed : Bool) (fd : Fd) :
    (r.setArmed key armed).chain fd = r.chain fd := rfl

/-- A new watch reports behind the others of its descriptor. -/
theorem chain_insert (r : Registry) (fd fd' : Fd) (mask : Mask) :
    (r.insert fd mask).chain fd' =
      if fd' = fd then r.chain fd ++ [r.slots.nextKey] else r.chain fd' := by
  unfold chain insert
  by_cases h : fd' = fd
  · subst h; simp [chain]
  · simp [h, OrderedMap.find?_insert_of_ne _ _ h]

@[simp] theorem chain_empty (fd : Fd) : (∅ : Registry).chain fd = [] := rfl

/-- Dropping a key from the list of `fd` keeps the other keys of `fd`. -/
theorem find?_unchain_self (chains : OrderedMap Fd (List Nat)) (fd : Fd) (key : Nat) :
    ((unchain chains fd key).find? fd).getD [] =
      ((chains.find? fd).getD []).filter fun k => k ≠ key := by
  unfold unchain
  cases h : chains.find? fd with
  | none => simp [h]
  | some keys =>
    by_cases hk : (keys.filter fun k => k ≠ key) = []
    · simp only [hk, if_true, OrderedMap.find?_erase_self, Option.getD_some, Option.getD_none]
    · simp only [hk, if_false, OrderedMap.find?_insert_self, Option.getD_some]

/-- Dropping a key from the list of `fd` leaves the other descriptors alone. -/
theorem find?_unchain_of_ne (chains : OrderedMap Fd (List Nat)) {fd fd' : Fd} (key : Nat)
    (hfd : fd' ≠ fd) : (unchain chains fd key).find? fd' = chains.find? fd' := by
  unfold unchain
  cases chains.find? fd with
  | none => rfl
  | some keys =>
    by_cases hk : (keys.filter fun k => k ≠ key) = []
    · simp only [hk, if_true, OrderedMap.find?_erase_of_ne _ hfd]
    · simp only [hk, if_false, OrderedMap.find?_insert_of_ne _ _ hfd]

/-- Forgetting a key drops it from the list of its descriptor, and from no other. -/
theorem chain_forget {r : Registry} {key : Nat} {w : Watch} (h : r.watch? key = some w) (fd : Fd) :
    (r.forget key).chain fd =
      if fd = w.fd then (r.chain fd).filter fun k => k ≠ key else r.chain fd := by
  unfold chain forget
  rw [h]
  by_cases hfd : fd = w.fd
  · subst hfd
    simp only [if_true, find?_unchain_self]
  · simp only [hfd, if_false, find?_unchain_of_ne _ _ hfd]

/-- A key that is not in use is not forgotten. -/
theorem forget_of_watch?_eq_none {r : Registry} {key : Nat} (h : r.watch? key = none) :
    r.forget key = r := by
  unfold forget
  rw [h]

/-! ### Effect on the size and the version counter -/

@[simp] theorem size_insert (r : Registry) (fd : Fd) (mask : Mask) :
    (r.insert fd mask).size = r.size + 1 :=
  Slots.size_insert _ _

/-- Forgetting a watch leaves one less. -/
theorem size_forget {r : Registry} {key : Nat} {w : Watch} (h : r.watch? key = some w) :
    (r.forget key).size + 1 = r.size := by
  unfold forget
  rw [h]
  exact Slots.size_remove _ h

@[simp] theorem size_setArmed (r : Registry) (key : Nat) (armed : Bool) :
    (r.setArmed key armed).size = r.size :=
  Slots.size_modify _ _ _

@[simp] theorem nextVersion_insert (r : Registry) (fd : Fd) (mask : Mask) :
    (r.insert fd mask).nextVersion = r.nextVersion + 1 := rfl

/-- Versions are never handed out again: forgetting a watch keeps the counter. -/
@[simp] theorem nextVersion_forget (r : Registry) (key : Nat) :
    (r.forget key).nextVersion = r.nextVersion := by
  unfold forget
  split <;> rfl

end Registry

end Readiness
