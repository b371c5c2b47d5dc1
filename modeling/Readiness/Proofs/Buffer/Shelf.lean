import Readiness.Proofs.Buffer.InPlace

namespace Readiness

/-!
# Buffers on a shelf

Whatever holds records can be pushed to, freed of a descriptor, and cleared.  A shelf has several of
these, numbered in the order in which they came up: the first ones are there from the start, and the
others are clones.

* `Buffer.apply`, `SlotArray.apply?` and `BoundedList.apply` — an operation on a buffer, on its
  array, and on the list that it stands for (`Buffer.apply?_layout`, `Buffer.apply_toBoundedList`);
* `Shelf.play` — moves on a shelf, one after the other.  What commutes with the operations commutes
  with the moves (`Shelf.play_map`), and what the operations keep the moves keep
  (`Shelf.play_keeps`);
* `Shelf.play_solo` — each place of a shelf goes through the operations on that place, and no
  others;
* `Shelf.play_clone` — so do the original and its clone, from what the original was when it was
  cloned.
-/

namespace Buffer

/-! ### Operations -/

/-- An operation on a buffer. -/
inductive Op where
  /-- Pushes a record of `mask` for `fd`. -/
  | push (fd : Fd) (mask : Mask)
  /-- Removes the records of `fd`. -/
  | removeFd (fd : Fd)
  /-- Forgets all records. -/
  | clear
deriving DecidableEq

/-- What an operation answers. -/
inductive Answer where
  /-- A record was pushed. -/
  | pushed
  /-- There was no room for it. -/
  | refused (x : Overflow)
  /-- How many records were removed. -/
  | removed (count : Nat)
  /-- There are no records any more. -/
  | cleared
deriving DecidableEq

/-- The answer to a push.  One that is refused changes nothing. -/
def Answer.ofPush {β : Type} (b : β) : Except Overflow β → Answer × β
  | .error x => (.refused x, b)
  | .ok b' => (.pushed, b')

/-- An operation on a buffer. -/
def apply (b : Buffer) : Op → Answer × Buffer
  | .push fd mask => Answer.ofPush b (b.push (.ofMask fd mask))
  | .removeFd fd => (.removed (b.countFd fd), b.removeFd fd)
  | .clear => (.cleared, b.clear)

end Buffer

/-- An operation on an array; none if an access is outside of it. -/
def SlotArray.apply? (a : SlotArray) : Buffer.Op → Option (Buffer.Answer × SlotArray)
  | .push fd mask => some (Buffer.Answer.ofPush a (a.push (.ofMask fd mask)))
  | .removeFd fd => (a.removeFd? fd).map fun removed => (.removed removed.1, removed.2)
  | .clear => some (.cleared, a.clear)

/-- A list of records that may not become longer than a bound. -/
structure BoundedList where
  /-- The largest number of records. -/
  bound : Nat
  /-- The records. -/
  records : List Record
deriving DecidableEq

/-- An operation on a bounded list. -/
def BoundedList.apply (l : BoundedList) : Buffer.Op → Buffer.Answer × BoundedList
  | .push fd mask =>
    if l.records.length < l.bound then
      (.pushed, { l with records := l.records ++ [⟨fd, mask.bits⟩] })
    else (.refused ⟨fd, l.bound⟩, l)
  | .removeFd fd =>
    (.removed (l.records.countP fun r => r.fd = fd),
      { l with records := l.records.filter fun r => r.fd ≠ fd })
  | .clear => (.cleared, { l with records := [] })

namespace Buffer

/-- A record fits exactly when a slot is left. -/
theorem apply_push (b : Buffer) (fd : Fd) (mask : Mask) :
    b.apply (.push fd mask) =
      if b.size < b.capacity then
        (.pushed, ⟨b.records ++ [.ofMask fd mask], b.spare.tail⟩)
      else (.refused ⟨fd, b.capacity⟩, b) := by
  unfold apply
  dsimp only
  rw [push_eq]
  split <;> rfl

/-- No operation changes the capacity. -/
theorem capacity_apply (b : Buffer) (op : Op) : (b.apply op).2.capacity = b.capacity := by
  cases op with
  | push fd mask =>
    unfold apply
    dsimp only
    cases hpush : b.push (.ofMask fd mask) with
    | error x => rfl
    | ok b' => exact capacity_push hpush
  | removeFd fd => exact capacity_removeFd b fd
  | clear => rfl

/-- The list that a buffer stands for. -/
def toBoundedList (b : Buffer) : BoundedList := ⟨b.capacity, b.records⟩

/-- An operation does to the list of a buffer what it does to the buffer. -/
theorem apply_toBoundedList (b : Buffer) (op : Op) :
    b.toBoundedList.apply op = ((b.apply op).1, (b.apply op).2.toBoundedList) := by
  have hcap := b.capacity_apply op
  unfold toBoundedList
  rw [hcap]
  cases op with
  | push fd mask =>
    rw [apply_push]
    unfold BoundedList.apply
    by_cases hroom : b.size < b.capacity
    · rw [if_pos hroom]
      exact if_pos hroom
    · rw [if_neg hroom]
      exact if_neg hroom
  | removeFd fd => rfl
  | clear => rfl

/-- An operation does to the array of a buffer what it does to the buffer, within the array. -/
theorem apply?_layout (b : Buffer) (op : Op) :
    b.layout.apply? op = some ((b.apply op).1, (b.apply op).2.layout) := by
  cases op with
  | push fd mask =>
    unfold SlotArray.apply? apply
    dsimp only
    rw [push_layout]
    cases b.push (.ofMask fd mask) <;> rfl
  | removeFd fd =>
    unfold SlotArray.apply? apply
    dsimp only
    rw [removeFd?_layout]
    rfl
  | clear => rfl

end Buffer

/-! ### Moves on a shelf -/

namespace Shelf

/-- A move on a shelf. -/
inductive Move where
  /-- An operation on the buffer in a place. -/
  | use (place : Nat) (op : Buffer.Op)
  /-- Puts a clone of the buffer in a place behind all others. -/
  | clone (place : Nat)
deriving DecidableEq

/-- What a move answers. -/
inductive Reply where
  /-- What the operation answered. -/
  | used (answer : Buffer.Answer)
  /-- The place of the clone. -/
  | cloned (place : Nat)
  /-- There is nothing in the place. -/
  | absent
deriving DecidableEq

section Play

variable {β γ : Type} (apply : β → Buffer.Op → Buffer.Answer × β)

/-- One move. -/
def move (shelf : List β) : Move → Reply × List β
  | .use i op =>
    match shelf[i]? with
    | none => (.absent, shelf)
    | some b => (.used (apply b op).1, shelf.set i (apply b op).2)
  | .clone i =>
    match shelf[i]? with
    | none => (.absent, shelf)
    | some b => (.cloned shelf.length, shelf ++ [b])

/-- Moves, one after the other. -/
def play (shelf : List β) : List Move → List Reply × List β
  | [] => ([], shelf)
  | m :: moves =>
    let moved := move apply shelf m
    let played := play moved.2 moves
    (moved.1 :: played.1, played.2)

theorem play_cons (shelf : List β) (m : Move) (moves : List Move) :
    play apply shelf (m :: moves) =
      ((move apply shelf m).1 :: (play apply (move apply shelf m).2 moves).1,
        (play apply (move apply shelf m).2 moves).2) := rfl

theorem length_play (shelf : List β) (moves : List Move) :
    (play apply shelf moves).1.length = moves.length := by
  induction moves generalizing shelf with
  | nil => rfl
  | cons m moves ih => exact congrArg (· + 1) (ih _)

theorem play_append (shelf : List β) (before after : List Move) :
    play apply shelf (before ++ after) =
      let played := play apply shelf before
      (played.1 ++ (play apply played.2 after).1, (play apply played.2 after).2) := by
  induction before generalizing shelf with
  | nil => rfl
  | cons m before ih =>
    rw [List.cons_append, play_cons, ih, play_cons]
    rfl

/-- What commutes with the operations commutes with a move. -/
theorem move_map {apply' : γ → Buffer.Op → Buffer.Answer × γ} {f : β → γ}
    (hf : ∀ b op, apply' (f b) op = ((apply b op).1, f (apply b op).2)) (shelf : List β)
    (m : Move) :
    move apply' (shelf.map f) m =
      ((move apply shelf m).1, (move apply shelf m).2.map f) := by
  cases m with
  | use i op =>
    unfold move
    dsimp only
    rw [List.getElem?_map]
    cases shelf[i]? with
    | none => rfl
    | some b =>
      dsimp only [Option.map_some]
      rw [hf, List.map_set]
  | clone i =>
    unfold move
    dsimp only
    rw [List.getElem?_map]
    cases shelf[i]? with
    | none => rfl
    | some b =>
      dsimp only [Option.map_some]
      rw [List.length_map, List.map_append]
      rfl

/-- What commutes with the operations commutes with the moves. -/
theorem play_map {apply' : γ → Buffer.Op → Buffer.Answer × γ} {f : β → γ}
    (hf : ∀ b op, apply' (f b) op = ((apply b op).1, f (apply b op).2)) (shelf : List β)
    (moves : List Move) :
    play apply' (shelf.map f) moves =
      ((play apply shelf moves).1, (play apply shelf moves).2.map f) := by
  induction moves generalizing shelf with
  | nil => rfl
  | cons m moves ih =>
    rw [play_cons, move_map apply hf, ih, play_cons]

/-- What every operation keeps is kept by a move. -/
theorem move_keeps {P : β → Prop} (hP : ∀ b op, P b → P (apply b op).2) {shelf : List β}
    (hshelf : ∀ b ∈ shelf, P b) (m : Move) : ∀ b ∈ (move apply shelf m).2, P b := by
  cases m with
  | use i op =>
    unfold move
    dsimp only
    cases hi : shelf[i]? with
    | none => exact hshelf
    | some b =>
      intro b' hb'
      rcases List.mem_or_eq_of_mem_set hb' with h | rfl
      · exact hshelf b' h
      · exact hP b op (hshelf b (List.mem_of_getElem? hi))
  | clone i =>
    unfold move
    dsimp only
    cases hi : shelf[i]? with
    | none => exact hshelf
    | some b =>
      intro b' hb'
      rcases List.mem_append.mp hb' with h | h
      · exact hshelf b' h
      · rw [List.mem_singleton.mp h]
        exact hshelf b (List.mem_of_getElem? hi)

/-- What every operation keeps is kept by all moves. -/
theorem play_keeps {P : β → Prop} (hP : ∀ b op, P b → P (apply b op).2) {shelf : List β}
    (hshelf : ∀ b ∈ shelf, P b) (moves : List Move) : ∀ b ∈ (play apply shelf moves).2, P b := by
  induction moves generalizing shelf with
  | nil => exact hshelf
  | cons m moves ih => exact ih (move_keeps apply hP hshelf m)

end Play

/-- All buffers that one is turned into have its capacity. -/
theorem capacity_play (b : Buffer) (moves : List Move) :
    ∀ b' ∈ (play Buffer.apply [b] moves).2, b'.capacity = b.capacity := by
  refine play_keeps Buffer.apply (fun b' op h => (b'.capacity_apply op).trans h) ?_ moves
  intro b' hb'
  rw [List.mem_singleton.mp hb']

/-! ### One place of a shelf -/

/-- The operation of a move on a place. -/
def Move.op? (i : Nat) : Move → Option Buffer.Op
  | .use j op => if j = i then some op else none
  | .clone _ => none

/-- The operations on a place. -/
def ops (i : Nat) (moves : List Move) : List Buffer.Op := moves.filterMap (Move.op? i)

/-- The answer to a move on a place. -/
def answer? (i : Nat) : Move × Reply → Option Buffer.Answer
  | (.use j _, .used answer) => if j = i then some answer else none
  | _ => none

/-- The answers to the operations on a place. -/
def answers (i : Nat) (moves : List Move) (replies : List Reply) : List Buffer.Answer :=
  (moves.zip replies).filterMap (answer? i)

section Solo

variable {β : Type} (apply : β → Buffer.Op → Buffer.Answer × β)

/-- Operations on a single buffer, one after the other. -/
def solo (b : β) : List Buffer.Op → List Buffer.Answer × β
  | [] => ([], b)
  | op :: ops =>
    let applied := apply b op
    let rest := solo applied.2 ops
    (applied.1 :: rest.1, rest.2)

/-- A move does to a place the operation that it has for it, if any. -/
theorem move_solo {shelf : List β} {i : Nat} {b : β} (hb : shelf[i]? = some b) (m : Move) :
    answer? i (m, (move apply shelf m).1) = (m.op? i).map (fun op => (apply b op).1) ∧
    (move apply shelf m).2[i]? = some ((m.op? i).elim b fun op => (apply b op).2) := by
  obtain ⟨hlt, hget⟩ := List.getElem?_eq_some_iff.mp hb
  cases m with
  | use j op =>
    unfold move Move.op?
    dsimp only
    by_cases hji : j = i
    · subst hji
      rw [hb, if_pos rfl]
      exact ⟨if_pos rfl, List.getElem?_set_self hlt⟩
    · rw [if_neg hji]
      cases shelf[j]? with
      | none => exact ⟨rfl, hb⟩
      | some b' => exact ⟨if_neg hji, (List.getElem?_set_ne hji).trans hb⟩
  | clone j =>
    unfold move
    dsimp only
    cases shelf[j]? with
    | none => exact ⟨rfl, hb⟩
    | some b' => exact ⟨rfl, (List.getElem?_append_left hlt).trans hb⟩

/-- **Each place goes through its own operations.**  The moves on other places, and clonings, do not
    touch it. -/
theorem play_solo {shelf : List β} {i : Nat} {b : β} (hb : shelf[i]? = some b)
    (moves : List Move) :
    answers i moves (play apply shelf moves).1 = (solo apply b (ops i moves)).1 ∧
    (play apply shelf moves).2[i]? = some (solo apply b (ops i moves)).2 := by
  induction moves generalizing shelf b with
  | nil => exact ⟨rfl, hb⟩
  | cons m moves ih =>
    obtain ⟨hanswer, hplace⟩ := move_solo apply hb m
    obtain ⟨hanswers, hend⟩ := ih hplace
    unfold ops answers
    rw [play_cons, List.zip_cons_cons, List.filterMap_cons, List.filterMap_cons, hanswer]
    cases hop : m.op? i with
    | none =>
      rw [hop] at hanswers hend
      exact ⟨hanswers, hend⟩
    | some op =>
      rw [hop] at hanswers hend
      exact ⟨congrArg _ hanswers, hend⟩

/-- **A clone is independent of its original.**  Both start as what the original was, and then each
    goes through the operations on it. -/
theorem play_clone {shelf : List β} {i : Nat} {b : β} (hb : shelf[i]? = some b)
    (moves : List Move) {replies : List Reply} {shelf' : List β}
    (hplay : play apply shelf (.clone i :: moves) = (replies, shelf')) :
    replies.head? = some (.cloned shelf.length) ∧
    ∀ j, j = i ∨ j = shelf.length →
      answers j moves replies.tail = (solo apply b (ops j moves)).1 ∧
      shelf'[j]? = some (solo apply b (ops j moves)).2 := by
  have hmove : move apply shelf (.clone i) = (.cloned shelf.length, shelf ++ [b]) := by
    unfold move
    dsimp only
    rw [hb]
  rw [play_cons, hmove] at hplay
  cases hplay
  refine ⟨rfl, fun j hj => play_solo apply ?_ moves⟩
  rcases hj with rfl | rfl
  · exact (List.getElem?_append_left (List.getElem?_eq_some_iff.mp hb).1).trans hb
  · exact List.getElem?_concat_length ..

end Solo

end Shelf

end Readiness
