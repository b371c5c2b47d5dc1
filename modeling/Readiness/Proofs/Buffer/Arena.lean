import Readiness.Proofs.Buffer.Shelf

namespace Readiness

/-!
# Buffers in memory

Each buffer of a shelf has a block of memory for its slots.  A clone gets a block of its own, with a
copy of what is in the block of the original.  A buffer is read and written through the number of
its block; both fail if there is no such block, or outside of it.

* `Arena.move?`, `Arena.play?` — the moves on a shelf, done in memory;
* `Arena.Holds` — memory holds the arrays of a shelf of buffers, each in a block that no other
  buffer has.  A move keeps that, and does not fail (`Arena.move?_holds`);
* `Buffer.refines_bounded_list` — what comes of all that for the buffers that a requested one is
  turned into: they are bounded lists.
-/

/-- Where a buffer is in memory. -/
structure Handle where
  /-- The number of its block. -/
  block : Nat
  /-- How many of its slots are filled. -/
  size : Nat

/-- A shelf of buffers in memory. -/
structure Arena where
  /-- The blocks. -/
  blocks : List (Array Record)
  /-- The buffers, by their places on the shelf. -/
  handles : List Handle

namespace Arena

/-- One buffer of blank slots. -/
def ofCapacity (capacity : Nat) : Arena := ⟨[Array.replicate capacity .blank], [⟨0, 0⟩]⟩

/-- The array of a buffer; none if there is no such block. -/
def view? (blocks : List (Array Record)) (h : Handle) : Option SlotArray :=
  match blocks[h.block]? with
  | none => none
  | some slots => some ⟨slots, h.size⟩

/-- One move in memory; none if an access is outside of it. -/
def move? (a : Arena) : Shelf.Move → Option (Shelf.Reply × Arena)
  | .use i op =>
    match a.handles[i]? with
    | none => some (.absent, a)
    | some h =>
      match (view? a.blocks h).bind fun array => array.apply? op with
      | none => none
      | some (answer, array) =>
        some (.used answer,
          ⟨a.blocks.set h.block array.slots, a.handles.set i ⟨h.block, array.size⟩⟩)
  | .clone i =>
    match a.handles[i]? with
    | none => some (.absent, a)
    | some h =>
      match view? a.blocks h with
      | none => none
      | some array =>
        some (.cloned a.handles.length,
          ⟨a.blocks ++ [array.slots], a.handles ++ [⟨a.blocks.length, array.size⟩]⟩)

/-- Moves in memory, one after the other; none if an access is outside of it. -/
def play? (a : Arena) : List Shelf.Move → Option (List Shelf.Reply × Arena)
  | [] => some ([], a)
  | m :: moves =>
    match a.move? m with
    | none => none
    | some (reply, a') => (play? a' moves).map fun played => (reply :: played.1, played.2)

/-! ### Views -/

theorem lt_of_view? {blocks : List (Array Record)} {h : Handle} {array : SlotArray}
    (hv : view? blocks h = some array) : h.block < blocks.length := by
  unfold view? at hv
  cases hblock : blocks[h.block]? with
  | none =>
    rw [hblock] at hv
    cases hv
  | some slots => exact (List.getElem?_eq_some_iff.mp hblock).1

/-- What is written to a block is there. -/
theorem view?_set_self {blocks : List (Array Record)} {i : Nat} (hi : i < blocks.length)
    (array : SlotArray) : view? (blocks.set i array.slots) ⟨i, array.size⟩ = some array := by
  unfold view?
  dsimp only
  rw [List.getElem?_set_self hi]

/-- Nothing changes in another block. -/
theorem view?_set_ne (blocks : List (Array Record)) {i : Nat} {h : Handle} (hi : i ≠ h.block)
    (slots : Array Record) : view? (blocks.set i slots) h = view? blocks h := by
  unfold view?
  rw [List.getElem?_set_ne hi]

/-- Nothing changes in the blocks that there were. -/
theorem view?_append {blocks : List (Array Record)} {h : Handle} {array : SlotArray}
    (hv : view? blocks h = some array) (more : List (Array Record)) :
    view? (blocks ++ more) h = some array := by
  rw [← hv]
  unfold view?
  rw [List.getElem?_append_left (lt_of_view? hv)]

/-- What a block is allocated for is there. -/
theorem view?_alloc (blocks : List (Array Record)) (array : SlotArray) :
    view? (blocks ++ [array.slots]) ⟨blocks.length, array.size⟩ = some array := by
  unfold view?
  dsimp only
  rw [List.getElem?_concat_length]

/-! ### Memory holds a shelf -/

/-- The buffers in memory are those of a shelf, and no two of them share a block. -/
structure Holds (a : Arena) (shelf : List Buffer) : Prop where
  /-- Each buffer has its array in memory. -/
  views : ∀ i : Nat, a.handles[i]?.map (view? a.blocks) = shelf[i]?.map fun b => some b.layout
  /-- The blocks are distinct. -/
  apart : (a.handles.map Handle.block).Nodup

theorem holds_ofCapacity (capacity : Nat) :
    (ofCapacity capacity).Holds [Buffer.ofCapacity capacity] where
  views
    | 0 => congrArg (fun array => some (some array)) (Buffer.layout_ofCapacity capacity).symm
    | _ + 1 => rfl
  apart := List.nodup_cons.mpr ⟨List.not_mem_nil, List.nodup_nil⟩

variable {a : Arena} {shelf : List Buffer}

/-- A buffer of the shelf is in memory. -/
theorem Holds.handle (h : a.Holds shelf) {i : Nat} {b : Buffer} (hb : shelf[i]? = some b) :
    ∃ x, a.handles[i]? = some x ∧ view? a.blocks x = some b.layout := by
  have hview := h.views i
  rw [hb] at hview
  exact Option.map_eq_some_iff.mp hview

/-- What is in memory is on the shelf. -/
theorem Holds.handle_none (h : a.Holds shelf) {i : Nat} (hb : shelf[i]? = none) :
    a.handles[i]? = none := by
  have hview := h.views i
  rw [hb] at hview
  exact Option.map_eq_none_iff.mp hview

theorem Holds.length_handles (h : a.Holds shelf) : a.handles.length = shelf.length := by
  apply Nat.le_antisymm
  · exact List.getElem?_eq_none_iff.mp (h.handle_none (List.getElem?_eq_none (Nat.le_refl _)))
  · have hview := h.views a.handles.length
    rw [List.getElem?_eq_none (Nat.le_refl _)] at hview
    exact List.getElem?_eq_none_iff.mp (Option.map_eq_none_iff.mp hview.symm)

/-- A buffer is written to its own block, where no other buffer is. -/
theorem Holds.set (h : a.Holds shelf) {i : Nat} {b : Buffer} (hb : shelf[i]? = some b) {x : Handle}
    (hx : a.handles[i]? = some x) (b' : Buffer) :
    Holds ⟨a.blocks.set x.block b'.layout.slots, a.handles.set i ⟨x.block, b'.layout.size⟩⟩
      (shelf.set i b') := by
  obtain ⟨x', hx', hview⟩ := h.handle hb
  cases hx.symm.trans hx'
  have hlt : i < a.handles.length := (List.getElem?_eq_some_iff.mp hx).1
  have hblock : (a.handles.map Handle.block)[i]? = some x.block := by
    rw [List.getElem?_map, hx]
    rfl
  obtain ⟨hlt', hget⟩ := List.getElem?_eq_some_iff.mp hblock
  refine ⟨fun j => ?_, ?_⟩
  · dsimp only
    by_cases hij : i = j
    · subst hij
      rw [List.getElem?_set_self hlt, List.getElem?_set_self (h.length_handles ▸ hlt),
        Option.map_some, view?_set_self (lt_of_view? hview)]
      rfl
    · rw [List.getElem?_set_ne hij, List.getElem?_set_ne hij, ← h.views j]
      cases hy : a.handles[j]? with
      | none => rfl
      | some y =>
        have hne : x.block ≠ y.block := by
          intro heq
          refine hij ((List.getElem?_inj hlt' h.apart).mp ?_)
          rw [hblock, List.getElem?_map, hy, heq]
          rfl
        rw [Option.map_some, Option.map_some, view?_set_ne _ hne]
  · have hkept : (a.handles.set i ⟨x.block, b'.layout.size⟩).map Handle.block =
        a.handles.map Handle.block := by
      rw [List.map_set]
      exact hget ▸ List.set_getElem_self hlt'
    rw [hkept]
    exact h.apart

/-- A clone is written to a block that no buffer had before. -/
theorem Holds.append (h : a.Holds shelf) (b : Buffer) :
    Holds ⟨a.blocks ++ [b.layout.slots], a.handles ++ [⟨a.blocks.length, b.layout.size⟩]⟩
      (shelf ++ [b]) := by
  have hold : ∀ x ∈ a.handles, ∃ array, view? a.blocks x = some array := by
    intro x hx
    obtain ⟨i, hi⟩ := List.getElem?_of_mem hx
    have hview := h.views i
    rw [hi] at hview
    obtain ⟨b', -, hb'⟩ := Option.map_eq_some_iff.mp hview.symm
    exact ⟨b'.layout, hb'.symm⟩
  refine ⟨fun j => ?_, ?_⟩
  · dsimp only
    rcases Nat.lt_trichotomy j a.handles.length with hj | hj | hj
    · rw [List.getElem?_append_left hj, List.getElem?_append_left (h.length_handles ▸ hj),
        ← h.views j, List.getElem?_eq_getElem hj]
      obtain ⟨array, hview⟩ := hold _ (List.getElem_mem hj)
      rw [Option.map_some, Option.map_some, view?_append hview, hview]
    · have hplace : (shelf ++ [b])[j]? = some b := by
        rw [hj, h.length_handles]
        exact List.getElem?_concat_length
      rw [hplace, hj, List.getElem?_concat_length, Option.map_some, view?_alloc]
      rfl
    · rw [List.getElem?_eq_none, List.getElem?_eq_none]
      · rfl
      · rw [List.length_append, ← h.length_handles]
        exact hj
      · rw [List.length_append]
        exact hj
  · rw [List.map_append, List.nodup_append]
    refine ⟨h.apart, List.nodup_cons.mpr ⟨List.not_mem_nil, List.nodup_nil⟩, ?_⟩
    intro block hblock new hnew
    obtain ⟨x, hx, rfl⟩ := List.mem_map.mp hblock
    obtain ⟨array, hview⟩ := hold x hx
    rw [List.mem_singleton.mp hnew]
    exact Nat.ne_of_lt (lt_of_view? hview)

/-- **A move stays within memory.**  It answers what it answers on the shelf, and memory then holds
    the shelf after the move. -/
theorem move?_holds (h : a.Holds shelf) (m : Shelf.Move) :
    ∃ a', a.move? m = some ((Shelf.move Buffer.apply shelf m).1, a') ∧
      a'.Holds (Shelf.move Buffer.apply shelf m).2 := by
  cases m with
  | use i op =>
    unfold move? Shelf.move
    dsimp only
    cases hb : shelf[i]? with
    | none =>
      rw [h.handle_none hb]
      exact ⟨a, rfl, h⟩
    | some b =>
      obtain ⟨x, hx, hview⟩ := h.handle hb
      rw [hx]
      dsimp only
      rw [hview, Option.bind_some, Buffer.apply?_layout]
      exact ⟨_, rfl, h.set hb hx (b.apply op).2⟩
  | clone i =>
    unfold move? Shelf.move
    dsimp only
    cases hb : shelf[i]? with
    | none =>
      rw [h.handle_none hb]
      exact ⟨a, rfl, h⟩
    | some b =>
      obtain ⟨x, hx, hview⟩ := h.handle hb
      rw [hx]
      dsimp only
      rw [hview, h.length_handles]
      exact ⟨_, rfl, h.append b⟩

/-- All moves together. -/
theorem play?_holds (h : a.Holds shelf) (moves : List Shelf.Move) :
    ∃ a', a.play? moves = some ((Shelf.play Buffer.apply shelf moves).1, a') ∧
      a'.Holds (Shelf.play Buffer.apply shelf moves).2 := by
  induction moves generalizing a shelf with
  | nil => exact ⟨a, rfl, h⟩
  | cons m moves ih =>
    obtain ⟨a₁, hmove, h₁⟩ := move?_holds h m
    obtain ⟨a₂, hplay, h₂⟩ := ih h₁
    refine ⟨a₂, ?_, h₂⟩
    unfold play? Shelf.play
    rw [hmove]
    dsimp only
    rw [hplay]
    rfl

end Arena

/-! ### What becomes of a buffer -/

/-- **A buffer is a bounded list.**  Ask for a buffer with room for some number of records, or for as
    many as fit some number of bytes, at eight bytes each.  If its slots take more bytes than one
    allocation may, then there is none.  If they do not, it has just the slots that were asked for,
    all of them blank.

    Take any moves that push, remove, clear and clone, on this buffer and on its clones.  Each
    answers what it answers for lists bounded by the number of slots, and the buffers hold the
    records of these lists: a push appends a record if the list is shorter than the bound, and fails
    otherwise; a removal leaves the other records in their order, and counts those it removes;
    clearing leaves none.

    In memory the same moves have the same answers, with no access outside of a block, and the
    arrays are those of the buffers, each in a block of its own.  The capacity never changes, and no
    buffer holds more records than that.

    A clone gets the first free place.  From then on, the original and the clone each go through the
    operations on it, and no others. -/
theorem Buffer.refines_bounded_list {request : Request} {capacity : Nat}
    (hrequest : (∃ n, request = .records n ∧ capacity = n.toNat) ∨
      ∃ n, request = .bytes n ∧ capacity = n.toNat / 8) (moves : List Shelf.Move) :
    (0x7fffffffffffffff < capacity * 8 ∧ allocate? request = none) ∨
    (capacity * 8 ≤ 0x7fffffffffffffff ∧ ∃ b replies shelf arena,
      allocate? request = some b ∧ b.capacity = capacity ∧ b.records = [] ∧
      Shelf.play apply [b] moves = (replies, shelf) ∧
      Shelf.play BoundedList.apply [⟨capacity, []⟩] moves = (replies, shelf.map toBoundedList) ∧
      (Arena.ofCapacity capacity).play? moves = some (replies, arena) ∧
      arena.Holds shelf ∧
      (∀ b' ∈ shelf, b'.layout.records? = some b'.records ∧ b'.size = b'.records.length ∧
        b'.capacity = capacity ∧ b'.size ≤ capacity) ∧
      ∀ before i after original, moves = before ++ .clone i :: after →
        (Shelf.play apply [b] before).2[i]? = some original →
        let clone := (Shelf.play apply [b] before).2.length
        replies[before.length]? = some (.cloned clone) ∧
        ∀ j, j = i ∨ j = clone →
          Shelf.answers j after (replies.drop (before.length + 1)) =
            (Shelf.solo apply original (Shelf.ops j after)).1 ∧
          shelf[j]? = some (Shelf.solo apply original (Shelf.ops j after)).2) := by
  have hslots : request.capacity = capacity := by
    rcases hrequest with ⟨n, rfl, rfl⟩ | ⟨n, rfl, rfl⟩
    · rfl
    · rfl
  subst hslots
  rcases Nat.lt_or_ge 0x7fffffffffffffff (request.capacity * 8) with hlt | hle
  · exact Or.inl ⟨hlt, allocate?_of_lt hlt⟩
  have hcap := Shelf.capacity_play (ofCapacity request.capacity) moves
  have hlist := Shelf.play_map apply apply_toBoundedList [ofCapacity request.capacity] moves
  rw [capacity_ofCapacity] at hcap
  obtain ⟨arena, hplay, hholds⟩ :=
    Arena.play?_holds (Arena.holds_ofCapacity request.capacity) moves
  refine Or.inr ⟨hle, _, _, _, arena, allocate?_of_le hle, capacity_ofCapacity _, rfl, rfl, ?_,
    hplay, hholds, fun b' hb' => ?_, ?_⟩
  · rw [← hlist, List.map_singleton, toBoundedList, capacity_ofCapacity]
    rfl
  · have hsize := b'.size_le_capacity
    rw [hcap b' hb'] at hsize
    exact ⟨b'.records?_layout, rfl, hcap b' hb', hsize⟩
  · rintro before i after original rfl horiginal
    have hlength := Shelf.length_play apply [ofCapacity request.capacity] before
    rw [Shelf.play_append]
    dsimp only
    obtain ⟨hreply, hplaces⟩ := Shelf.play_clone apply horiginal after rfl
    rw [List.getElem?_append_right (Nat.le_of_eq hlength), hlength, Nat.sub_self,
      ← List.head?_eq_getElem?, List.drop_append, hlength, Nat.add_sub_cancel_left, List.drop_one,
      List.drop_eq_nil_of_le (hlength ▸ Nat.le_succ _), List.nil_append]
    exact ⟨hreply, hplaces⟩

/-- There is room for three records in 29 bytes.  Two are pushed, the second with all bits for a
    negative descriptor, and then there is a clone.  The original takes a third record, refuses a
    fourth, and closes the gaps that a removal leaves.  None of that happens to the clone. -/
theorem Buffer.refines_bounded_list_three :
    ∃ b replies shelf arena,
      allocate? (.bytes 29) = some b ∧ b.capacity = 3 ∧
      Shelf.play apply [b]
        [.use 0 (.push 5 .read), .use 0 (.push (-1) ⟨0xffff⟩), .clone 0, .use 0 (.push 5 .write),
          .use 0 (.push 7 .read), .use 0 (.removeFd 5), .use 1 (.removeFd 9), .use 2 .clear] =
        (replies, shelf) ∧
      replies =
        [.used .pushed, .used .pushed, .cloned 1, .used .pushed, .used (.refused ⟨7, 3⟩),
          .used (.removed 2), .used (.removed 0), .absent] ∧
      shelf.map toBoundedList = [⟨3, [⟨-1, 0xffff⟩]⟩, ⟨3, [⟨5, 2⟩, ⟨-1, 0xffff⟩]⟩] ∧
      Arena.Holds arena shelf := by
  rcases @refines_bounded_list (.bytes 29) 3 (Or.inr ⟨29, rfl, by decide⟩)
      [.use 0 (.push 5 .read), .use 0 (.push (-1) ⟨0xffff⟩), .clone 0, .use 0 (.push 5 .write),
        .use 0 (.push 7 .read), .use 0 (.removeFd 5), .use 1 (.removeFd 9), .use 2 .clear] with
    ⟨hlt, -⟩ | ⟨-, b, replies, shelf, arena, hb, hcap, -, hplay, hlist, -, hholds, -⟩
  · exact absurd hlt (by decide)
  · exact ⟨b, replies, shelf, arena, hb, hcap, hplay, (congrArg Prod.fst hlist).symm,
      (congrArg Prod.snd hlist).symm, hholds⟩

end Readiness
