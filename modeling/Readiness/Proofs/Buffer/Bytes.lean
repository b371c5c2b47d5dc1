import Readiness.Proofs.Buffer.Shelf

namespace Readiness

/-!
# The bytes of a buffer

A caller may read a buffer as bytes.  The slots stand one behind the other, each in the layout of a
record, whether they are filled or not.

* `Record.read?` — the records in a row of bytes;
* `Buffer.Legible` — what the bytes of a buffer say: its records, in full, and zeros between them;
* `Buffer.Rewrites` — which of the bytes an operation may change.  An operation never changes those
  behind the records that it leaves (`Buffer.spare_apply`);
* `Buffer.bytes_round_trip` — both hold for every buffer that a requested one is turned into.
-/

namespace Record

/-! ### Records in a row -/

/-- The first `n` records in some bytes; none if there are fewer. -/
def read? : Nat → List UInt8 → Option (List Record)
  | 0, _ => some []
  | n + 1, bytes =>
    match ofBytes? (bytes.take size) with
    | none => none
    | some r => (read? n (bytes.drop size)).map (r :: ·)

/-- Reading the bytes of some records gives these records, whatever stands behind them. -/
theorem read?_append (rs : List Record) (rest : List UInt8) :
    read? rs.length (rs.flatMap toBytes ++ rest) = some rs := by
  induction rs with
  | nil => rfl
  | cons r rs ih =>
    have hlength := r.length_toBytes
    rw [List.flatMap_cons, List.append_assoc, List.length_cons]
    unfold read?
    rw [List.take_left' hlength, List.drop_left' hlength, ofBytes?_toBytes]
    dsimp only
    rw [ih]
    rfl

theorem length_flatMap_toBytes (rs : List Record) :
    (rs.flatMap toBytes).length = rs.length * size := by
  induction rs with
  | nil => rfl
  | cons r rs ih =>
    rw [List.flatMap_cons, List.length_append, ih, length_toBytes, List.length_cons, Nat.succ_mul,
      Nat.add_comm]

/-- The bytes behind some records are those of the records behind them. -/
theorem drop_flatMap_toBytes (rs : List Record) (n : Nat) :
    (rs.flatMap toBytes).drop (n * size) = (rs.drop n).flatMap toBytes := by
  induction n generalizing rs with
  | zero => rw [Nat.zero_mul, List.drop_zero, List.drop_zero]
  | succ n ih =>
    cases rs with
    | nil => rfl
    | cons r rs =>
      rw [List.flatMap_cons, Nat.succ_mul, Nat.add_comm, ← List.drop_drop,
        List.drop_left' r.length_toBytes, ih, List.drop_succ_cons]

/-- The bytes in front of some records are those of the records in front of them. -/
theorem take_flatMap_toBytes (rs : List Record) (n : Nat) :
    (rs.flatMap toBytes).take (n * size) = (rs.take n).flatMap toBytes := by
  induction n generalizing rs with
  | zero => rw [Nat.zero_mul, List.take_zero, List.take_zero]; rfl
  | succ n ih =>
    cases rs with
    | nil => rfl
    | cons r rs =>
      rw [List.flatMap_cons, Nat.succ_mul, Nat.add_comm, List.take_add,
        List.take_left' r.length_toBytes, List.drop_left' r.length_toBytes, ih, List.take_succ_cons,
        List.flatMap_cons]

/-- The bytes of one of several records. -/
theorem slot_flatMap_toBytes {rs : List Record} {i : Nat} {r : Record} (hr : rs[i]? = some r) :
    ((rs.flatMap toBytes).drop (i * size)).take size = r.toBytes := by
  obtain ⟨hi, rfl⟩ := List.getElem?_eq_some_iff.mp hr
  rw [drop_flatMap_toBytes, List.drop_eq_getElem_cons hi, List.flatMap_cons,
    List.take_left' (length_toBytes _)]

/-- The padding of a record. -/
theorem padding_toBytes (r : Record) : r.toBytes[6]? = some 0 ∧ r.toBytes[7]? = some 0 :=
  ⟨rfl, rfl⟩

/-- The descriptor is read as a signed number, and the mask as an unsigned one, with all bits. -/
theorem fields_of_ofBytes? {bytes : List UInt8} {r : Record} (hr : ofBytes? bytes = some r) :
    r.fd.toInt = Int.bmod (LittleEndian.decode (bytes.take 4)) UInt32.size ∧
    r.bits.toNat = LittleEndian.decode ((bytes.drop maskOffset).take 2) := by
  unfold ofBytes? at hr
  split at hr
  case isFalse => cases hr
  case isTrue hlength =>
    cases hr
    constructor
    · exact BitVec.toInt_ofNat' ..
    · have hlt := LittleEndian.decode_lt ((bytes.drop maskOffset).take 2)
      have hpow : Nat.pow 256 ((bytes.drop maskOffset).take 2).length ≤ UInt16.size :=
        Nat.pow_le_pow_right (by decide : 0 < 256) (List.length_take_le 2 _)
      exact Nat.mod_eq_of_lt (Nat.lt_of_lt_of_le hlt hpow)

end Record

/-! ### What the bytes of a buffer say -/

/-- The bytes of all slots of an array. -/
def SlotArray.toBytes (a : SlotArray) : List UInt8 := a.slots.toList.flatMap Record.toBytes

namespace Buffer

/-- What the bytes of a buffer say. -/
structure Legible (capacity : Nat) (b : Buffer) : Prop where
  /-- Each slot takes its bytes, and there are no others. -/
  length : b.toBytes.length = capacity * Record.size
  /-- The first ones are those of the records. -/
  records : Record.read? b.size (b.toBytes.take (b.size * Record.size)) = some b.records
  /-- A record stands where it belongs, with its sign and with all its bits. -/
  fields : ∀ (i : Nat) r, b.records[i]? = some r →
    let slot := (b.toBytes.drop (i * Record.size)).take Record.size
    r.fd.toInt = Int.bmod (LittleEndian.decode (slot.take 4)) UInt32.size ∧
    r.bits.toNat = LittleEndian.decode ((slot.drop Record.maskOffset).take 2)
  /-- The last two bytes of a slot are zero. -/
  padding : ∀ i < capacity, b.toBytes[i * Record.size + 6]? = some 0 ∧
    b.toBytes[i * Record.size + 7]? = some 0
  /-- All slots can be read, and give the same bytes when they are written again. -/
  again : ∃ slots, Record.read? capacity b.toBytes = some slots ∧
    slots.flatMap Record.toBytes = b.toBytes
  /-- They are the bytes of its array. -/
  inPlace : b.layout.toBytes = b.toBytes

/-- The bytes of every buffer are legible. -/
theorem legible (b : Buffer) : b.Legible b.capacity where
  length := Record.length_flatMap_toBytes b.slots
  records := by
    unfold toBytes
    rw [Record.take_flatMap_toBytes, slots, size, List.take_left,
      ← List.append_nil (b.records.flatMap _)]
    exact Record.read?_append b.records []
  fields i r hr := by
    have hslot : b.slots[i]? = some r := by
      rw [slots, List.getElem?_append_left (List.getElem?_eq_some_iff.mp hr).1, hr]
    intro slot
    have hbytes : slot = r.toBytes := Record.slot_flatMap_toBytes hslot
    rw [hbytes]
    exact Record.fields_of_ofBytes? (Record.ofBytes?_toBytes r)
  padding i hi := by
    have hslot := Record.slot_flatMap_toBytes (List.getElem?_eq_getElem hi)
    have hbyte : ∀ k < Record.size, b.toBytes[i * Record.size + k]? = b.slots[i].toBytes[k]? := by
      intro k hk
      rw [← hslot, List.getElem?_take_of_lt hk, List.getElem?_drop]
      rfl
    rw [hbyte 6 (by decide), hbyte 7 (by decide)]
    exact Record.padding_toBytes _
  again := by
    refine ⟨b.slots, ?_, rfl⟩
    have hread := Record.read?_append b.slots []
    rwa [List.append_nil] at hread
  inPlace := rfl

/-! ### What an operation does to the bytes -/

/-- Which bytes an operation on a buffer may change. -/
structure Rewrites (b : Buffer) (op : Op) (answer : Answer) (b' : Buffer) : Prop where
  /-- Done in place, the operation has this outcome. -/
  inPlace : b.layout.apply? op = some (answer, b'.layout)
  /-- The slots behind the records that are left keep their bytes. -/
  tail : b'.toBytes.drop (b'.size * Record.size) = b.toBytes.drop (b'.size * Record.size)
  /-- Clearing, or a push without room, leaves all bytes as they were. -/
  idle : (answer = .cleared ∨ ∃ x, answer = .refused x) → b'.toBytes = b.toBytes
  /-- A push changes the first slot that was not filled, and no others. -/
  pushed : ∀ fd mask, op = .push fd mask → answer = .pushed →
    b'.toBytes.take (b.size * Record.size) = b.toBytes.take (b.size * Record.size) ∧
    Record.ofBytes? ((b'.toBytes.drop (b.size * Record.size)).take Record.size) =
      some ⟨fd, mask.bits⟩ ∧
    b'.toBytes.drop ((b.size + 1) * Record.size) = b.toBytes.drop ((b.size + 1) * Record.size)

/-- **The slots behind the records that an operation leaves are those that were there before.** -/
theorem spare_apply (b : Buffer) (op : Op) :
    (b.apply op).2.spare = b.slots.drop (b.apply op).2.size := by
  cases op with
  | push fd mask =>
    rw [apply_push]
    split
    · show b.spare.tail = (b.records ++ b.spare).drop (b.records ++ [_]).length
      rw [List.length_append, List.drop_append, List.length_singleton,
        List.drop_eq_nil_of_le (Nat.le_succ _), Nat.add_sub_cancel_left, List.nil_append,
        List.drop_one]
    · exact List.drop_left.symm
  | removeFd fd => rfl
  | clear => rfl

theorem drop_toBytes_apply (b : Buffer) (op : Op) :
    (b.apply op).2.toBytes.drop ((b.apply op).2.size * Record.size) =
      b.toBytes.drop ((b.apply op).2.size * Record.size) := by
  have hspare := b.spare_apply op
  generalize (b.apply op).2 = b' at hspare ⊢
  unfold toBytes
  rw [Record.drop_flatMap_toBytes, Record.drop_flatMap_toBytes, ← hspare, slots, size,
    List.drop_left]

/-- An operation changes no bytes but those that it may. -/
theorem rewrites (b : Buffer) (op : Op) : b.Rewrites op (b.apply op).1 (b.apply op).2 where
  inPlace := b.apply?_layout op
  tail := b.drop_toBytes_apply op
  idle h := by
    cases op with
    | push fd mask =>
      rw [apply_push] at h ⊢
      split at h
      · rcases h with h | ⟨x, h⟩ <;> cases h
      · rename_i hfull
        rw [if_neg hfull]
    | removeFd fd => rcases h with h | ⟨x, h⟩ <;> cases h
    | clear => rfl
  pushed fd mask hop hanswer := by
    subst hop
    have htail := b.drop_toBytes_apply (.push fd mask)
    rw [apply_push] at hanswer htail ⊢
    split at hanswer
    case isFalse => cases hanswer
    case isTrue hroom =>
      rw [if_pos hroom] at htail ⊢
      have hslots : slots ⟨b.records ++ [.ofMask fd mask], b.spare.tail⟩ =
          b.records ++ .ofMask fd mask :: b.spare.tail :=
        List.append_assoc ..
      refine ⟨?_, ?_, ?_⟩
      · unfold toBytes
        rw [Record.take_flatMap_toBytes, Record.take_flatMap_toBytes, hslots, slots, size,
          List.take_left, List.take_left]
      · have hslot : (b.records ++ .ofMask fd mask :: b.spare.tail)[b.size]? =
            some (Record.ofMask fd mask) := by
          rw [size, List.getElem?_append_right (Nat.le_refl _), Nat.sub_self,
            List.getElem?_cons_zero]
        rw [toBytes, hslots, Record.slot_flatMap_toBytes hslot]
        exact Record.ofBytes?_toBytes _
      · rwa [size, List.length_append] at htail

/-- **The bytes of a buffer round trip.**  Take any buffer that one of a requested size is turned
    into by pushes, removals, clearings and clonings.

    Its bytes take eight for each slot.  The first ones are read as its records, the descriptor with
    its sign and the mask with all bits, the ones without a name included.  The last two bytes of
    each slot are zero, and what is read from all of them is written as the same bytes.

    No operation on it changes the bytes behind the records that it leaves.  Clearing and a push
    without room change no bytes, and a push with room only those of the first slot that was not
    filled. -/
theorem bytes_round_trip {request : Request} {b : Buffer} (hb : allocate? request = some b)
    (moves : List Shelf.Move) :
    ∀ b' ∈ (Shelf.play apply [b] moves).2,
      b'.Legible request.capacity ∧ ∀ op, b'.Rewrites op (b'.apply op).1 (b'.apply op).2 := by
  intro b' hb'
  have hlegible := b'.legible
  rw [Shelf.capacity_play b moves b' hb', eq_ofCapacity_of_allocate? hb, capacity_ofCapacity]
    at hlegible
  exact ⟨hlegible, b'.rewrites⟩

/-- A negative descriptor with bits that have no name, and behind it a reader.  After a clone was
    made, the first one is removed from the original: the reader moves to the front, and its old
    bytes stay. -/
theorem bytes_round_trip_two :
    ∃ b original clone,
      allocate? (.records 2) = some b ∧
      (Shelf.play apply [b]
        [.use 0 (.push (-2) ⟨0x8123⟩), .use 0 (.push 5 .read), .clone 0,
          .use 0 (.removeFd (-2))]).2 = [original, clone] ∧
      original.records = [⟨5, 2⟩] ∧
      original.toBytes = [5, 0, 0, 0, 2, 0, 0, 0, 5, 0, 0, 0, 2, 0, 0, 0] ∧
      clone.toBytes = [0xfe, 0xff, 0xff, 0xff, 0x23, 0x81, 0, 0, 5, 0, 0, 0, 2, 0, 0, 0] ∧
      Legible 2 original ∧ Legible 2 clone ∧
      Rewrites clone .clear .cleared clone.clear := by
  have h := bytes_round_trip (show allocate? (.records 2) = some (ofCapacity 2) from rfl)
    [.use 0 (.push (-2) ⟨0x8123⟩), .use 0 (.push 5 .read), .clone 0, .use 0 (.removeFd (-2))]
  obtain ⟨horiginal, -⟩ := h _ List.mem_cons_self
  obtain ⟨hclone, hrewrites⟩ := h _ (List.mem_cons_of_mem _ List.mem_cons_self)
  exact ⟨_, _, _, rfl, rfl, rfl, rfl, rfl, horiginal, hclone, hrewrites .clear⟩

end Buffer

end Readiness
