import Readiness.Proofs.Erasure
import Readiness.Proofs.Roster
import Readiness.Scenario.Session

namespace Readiness

/-!
# Fan-out against the unbounded reference

A delivery writes into a buffer of bounded capacity, goes on after the buffer has overflowed, and
leaves the watches that did not fit armed.  It still is the reference as far as the buffer goes.

* `Delivery.Follows` — how a delivery stands to the records that the reference has made so far.  The
  relation is the same before and after the overflow;
* `Delivery.Follows.offer` / `Follows.fanOut` — an offer, and an event, follow the reference;
* `History.deliver_eq_reference` — a delivery reports what the reference does as far as the buffer
  goes, and fails exactly if that is not all.  `Collector.run_delivers` says that a run comes to one
  such delivery.
-/

/-! ### Deliveries into a bounded buffer -/

/-- `d` is what a delivery into a buffer of capacity `cap` comes to, if it starts from the watches
    of `r` and the reference has made the records `F` by now.  What the buffer has no room for is
    not reported, and its watches are not spent; the first such record is the overflow. -/
structure Delivery.Follows (cap : Nat) (r : Registry) (F : List (Nat × Record)) (d : Delivery) :
    Prop where
  capacity_eq : d.buffer.capacity = cap
  records_eq : d.buffer.records = (F.take cap).map Prod.snd
  overflow_eq : d.overflow = F[cap]?.map fun x => ⟨x.2.fd, cap⟩
  chain_eq : ∀ fd, d.registry.chain fd = r.chain fd
  watch?_eq : ∀ key, d.registry.watch? key =
    (r.watch? key).map fun w => w.after key (F.take cap)

namespace Delivery

/-- An offer in the words of the reference. -/
theorem offer_eq {d : Delivery} {e : Event} {key : Nat} {w : Watch}
    (hw : d.registry.watch? key = some w) (hfd : w.fd = e.fd) :
    d.offer e.fd e.mask key =
      if w.reports e then
        if d.buffer.size < d.buffer.capacity then
          { d with
            registry := d.registry.setArmed key w.mask.isPersistent
            buffer := ⟨d.buffer.records ++ [.ofMask e.fd (w.share e)], d.buffer.spare.tail⟩ }
        else { d with overflow := d.overflow <|> some ⟨e.fd, d.buffer.capacity⟩ }
      else d := by
  have hreports : w.reports e = (w.armed && !(e.mask ∩ w.mask.conditions).isEmpty) := by
    unfold Watch.reports
    rw [Watch.share_eq, decide_eq_true hfd, Bool.true_and]
  unfold offer
  rw [hw, hreports, Watch.share_eq]
  dsimp only
  by_cases hr : (w.armed && !(e.mask ∩ w.mask.conditions).isEmpty) = true
  · rw [if_pos hr, if_pos hr, Buffer.push_eq]
    by_cases hs : d.buffer.size < d.buffer.capacity
    · rw [if_pos hs, if_pos hs]
    · rw [if_neg hs, if_neg hs]
      rfl
  · rw [if_neg hr, if_neg hr]

namespace Follows

variable {cap : Nat} {r : Registry} {F : List (Nat × Record)} {d : Delivery}

/-- As long as the reference has not overflowed, the delivery is the reference. -/
theorem watch?_of_length_le (h : Follows cap r F d) (hF : F.length ≤ cap) {key : Nat} {w : Watch}
    (hw : r.watch? key = some w) : d.registry.watch? key = some (w.after key F) := by
  rw [h.watch?_eq, hw, List.take_of_length_le hF]
  rfl

/-- The buffer is full once the reference has made as many records as it holds. -/
theorem not_size_lt (h : Follows cap r F d) (hF : cap ≤ F.length) :
    ¬ d.buffer.size < d.buffer.capacity := by
  unfold Buffer.size
  rw [h.capacity_eq, h.records_eq, List.length_map, List.length_take, Nat.min_eq_left hF]
  exact Nat.lt_irrefl cap

/-- An offer before the overflow makes the record of the reference. -/
theorem offer_of_lt (h : Follows cap r F d) (hF : F.length < cap) {e : Event} {key : Nat}
    {w : Watch} (hw : r.watch? key = some w) (hfd : w.fd = e.fd)
    (hr : (w.after key F).reports e = true) :
    Follows cap r (F ++ [(key, .ofMask e.fd ((w.after key F).share e))])
      (d.offer e.fd e.mask key) := by
  have hwatch := h.watch?_of_length_le (Nat.le_of_lt hF) hw
  have hfd' : (w.after key F).fd = e.fd := by rw [Watch.fd_after, hfd]
  have harmed : (w.after key F).armed = true := by
    unfold Watch.reports at hr
    simp only [Bool.and_eq_true] at hr
    exact hr.1.2
  have hsize : d.buffer.size < d.buffer.capacity := by
    unfold Buffer.size
    rw [h.capacity_eq, h.records_eq, List.take_of_length_le (Nat.le_of_lt hF), List.length_map]
    exact hF
  have htake : ∀ x, (F ++ [x] : List (Nat × Record)).take cap = F ++ [x] := by
    intro x
    apply List.take_of_length_le
    rw [List.length_append, List.length_singleton]
    exact hF
  rw [offer_eq hwatch hfd', if_pos hr, if_pos hsize]
  -- The buffer grows by the record, nothing overflows, and only the watch of the record is spent.
  refine ⟨?_, ?_, ?_, h.chain_eq, ?_⟩
  · have hpush := Buffer.push_eq d.buffer (.ofMask e.fd ((w.after key F).share e))
    rw [if_pos hsize] at hpush
    rw [← h.capacity_eq]
    exact Buffer.capacity_push hpush
  · rw [htake, List.map_append]
    show d.buffer.records ++ _ = _
    rw [h.records_eq, List.take_of_length_le (Nat.le_of_lt hF)]
    rfl
  · have hnone : F[cap]? = none := List.getElem?_eq_none (Nat.le_of_lt hF)
    have hnone' : (F ++ [(key, Record.ofMask e.fd ((w.after key F).share e))])[cap]? = none := by
      apply List.getElem?_eq_none
      rw [List.length_append, List.length_singleton]
      exact hF
    rw [hnone']
    show d.overflow = _
    rw [h.overflow_eq, hnone]
  · intro k
    show (d.registry.setArmed key _).watch? k = _
    rw [Registry.watch?_setArmed, htake]
    by_cases hk : k = key
    · subst hk
      rw [if_pos rfl, hwatch, hw, Option.map_some, Option.map_some,
        Watch.after_append_of_mem _ _ (List.mem_singleton_self _)]
      unfold Watch.spend
      rw [harmed, Bool.true_and]
    · rw [if_neg hk, h.watch?_eq, List.take_of_length_le (Nat.le_of_lt hF)]
      congr 1
      funext v
      rw [Watch.after_append_of_notMem]
      simpa using hk

/-- An offer with a full buffer reports nothing; the first one that should have is the overflow. -/
theorem offer_of_le (h : Follows cap r F d) (hF : cap ≤ F.length) {e : Event} {key : Nat}
    {w : Watch} (hw : r.watch? key = some w) (hfd : w.fd = e.fd) :
    Follows cap r (F ++ Roster.emit [(key, w.after key F)] e) (d.offer e.fd e.mask key) := by
  have hwatch : d.registry.watch? key = some (w.after key (F.take cap)) := by
    rw [h.watch?_eq, hw]
    rfl
  have hfd' : (w.after key (F.take cap)).fd = e.fd := by rw [Watch.fd_after, hfd]
  have htake : ∀ G : List (Nat × Record), (F ++ G).take cap = F.take cap :=
    fun G => List.take_append_of_le_length hF
  -- Only the overflow can change.
  obtain ⟨o, hoffer, ho⟩ : ∃ o, d.offer e.fd e.mask key = { d with overflow := o } ∧
      o = if (w.after key (F.take cap)).reports e then d.overflow <|> some ⟨e.fd, cap⟩
        else d.overflow := by
    rw [offer_eq hwatch hfd', if_neg (h.not_size_lt hF), h.capacity_eq]
    split
    · exact ⟨_, rfl, rfl⟩
    · exact ⟨_, rfl, rfl⟩
  rw [hoffer]
  refine ⟨h.capacity_eq, ?_, ?_, h.chain_eq, ?_⟩
  · rw [htake]
    exact h.records_eq
  · show o = _
    rw [ho, h.overflow_eq]
    rcases Nat.lt_or_eq_of_le hF with hlt | heq
    · -- The overflow is behind; it stays the first one.
      obtain ⟨x, hx⟩ : ∃ x, F[cap]? = some x := ⟨_, List.getElem?_eq_getElem hlt⟩
      rw [List.getElem?_append_left hlt, hx]
      split <;> rfl
    · -- The buffer has just been filled, and the watches are those of the reference.
      have hle : F.length ≤ cap := Nat.le_of_eq heq.symm
      have hnone : F[cap]? = none := List.getElem?_eq_none hle
      rw [List.getElem?_append_right hle, hnone, List.take_of_length_le hle, heq, Nat.sub_self,
        Roster.emit_cons, Roster.emit_nil, List.append_nil]
      split <;> rfl
  · intro k
    rw [htake]
    exact h.watch?_eq k

/-- **An offer follows the reference**, which lets the watch emit. -/
theorem offer (h : Follows cap r F d) {e : Event} {key : Nat} {w : Watch}
    (hw : r.watch? key = some w) (hfd : w.fd = e.fd) :
    Follows cap r (F ++ Roster.emit [(key, w.after key F)] e) (d.offer e.fd e.mask key) := by
  -- The two sides of the overflow; on the first one a watch that does not report changes nothing.
  rcases Nat.lt_or_ge F.length cap with hF | hF
  · rw [Roster.emit_cons, Roster.emit_nil, List.append_nil]
    by_cases hr : (w.after key F).reports e = true
    · rw [if_pos hr]
      exact h.offer_of_lt hF hw hfd hr
    · have hfd' : (w.after key F).fd = e.fd := by rw [Watch.fd_after, hfd]
      rw [if_neg hr, List.append_nil, offer_eq (h.watch?_of_length_le (Nat.le_of_lt hF) hw) hfd',
        if_neg hr]
      exact h
  · exact h.offer_of_le hF hw hfd

/-- Offers to the watches of a descriptor, one after the other, follow the reference. -/
theorem foldl_offer {e : Event} {R : Roster} (h : Follows cap r F d)
    (hR : ∀ x ∈ R, r.watch? x.1 = some x.2 ∧ x.2.fd = e.fd) (hnd : (R.map Prod.fst).Nodup) :
    Follows cap r (F ++ (Roster.spent R F).emit e)
      ((R.map Prod.fst).foldl (Delivery.offer e.fd e.mask) d) := by
  induction R generalizing F d with
  | nil =>
    show Follows cap r (F ++ []) d
    rw [List.append_nil]
    exact h
  | cons x R ih =>
    obtain ⟨hw, hfd⟩ := hR x List.mem_cons_self
    rw [List.map_cons, List.nodup_cons] at hnd
    have hoffer := h.offer hw hfd
    have hrest := ih hoffer (fun y hy => hR y (List.mem_cons_of_mem _ hy)) hnd.2
    rw [Roster.spent_append_emit hnd.1, List.append_assoc, ← Roster.emit_spent_cons] at hrest
    exact hrest

end Follows

end Delivery

/-- The watch under `key` is armed in `r` and no longer in `r'`. -/
def Registry.Disarmed (r r' : Registry) (key : Nat) : Prop :=
  ∃ w w', r.watch? key = some w ∧ w.armed = true ∧ r'.watch? key = some w' ∧ w'.armed = false

namespace Delivery.Follows

variable {cap : Nat} {r : Registry} {F : List (Nat × Record)} {d : Delivery} {keys : List Nat}

/-- **Fanning an event out follows the reference**, in which the event passes the whole roster. -/
theorem fanOut (h : Follows cap r F d) (he : r.Enrolled keys) (e : Event) :
    Follows cap r (F ++ ((r.roster keys).spent F).emit e) (d.fanOut e) := by
  -- The delivery goes through the keys of the descriptor, the reference through all watches.
  unfold Delivery.fanOut
  rw [h.chain_eq, ← he.map_fst_filter_roster, ← Roster.emit_filter_fd]
  refine h.foldl_offer ?_ ?_
  · intro x hx
    obtain ⟨hx, hfd⟩ := List.mem_filter.mp hx
    exact ⟨he.mem_roster_iff.mp hx, by simpa using hfd⟩
  · rw [he.map_fst_filter_roster, he.chain_eq]
    exact he.nodup.filter _

/-- Fanning a list of events out follows the reference. -/
theorem foldl_fanOut (h : Follows cap r F d) (he : r.Enrolled keys) (es : List Event) :
    Follows cap r (F ++ ((r.roster keys).spent F).emissions es) (es.foldl Delivery.fanOut d) := by
  have hnd := he.nodup_map_fst_roster
  induction es generalizing F d with
  | nil =>
    show Follows cap r (F ++ []) d
    rw [List.append_nil]
    exact h
  | cons e es ih =>
    have hrest := ih (h.fanOut he e)
    rw [← Roster.pass_spent hnd, List.append_assoc] at hrest
    exact hrest

/-- Before the overflow the watches are those of the reference. -/
theorem watch?_eq_some_iff (h : Follows cap r F d) (he : r.Enrolled keys) (hF : F.length ≤ cap)
    {key : Nat} {w : Watch} :
    d.registry.watch? key = some w ↔ (key, w) ∈ (r.roster keys).spent F := by
  rw [h.watch?_eq, List.take_of_length_le hF, Option.map_eq_some_iff]
  unfold Roster.spent
  rw [List.mem_map]
  constructor
  · rintro ⟨v, hv, rfl⟩
    exact ⟨(key, v), he.mem_roster_iff.mpr hv, rfl⟩
  · rintro ⟨⟨k, v⟩, hx, heq⟩
    cases heq
    exact ⟨v, he.mem_roster_iff.mp hx, rfl⟩

/-- If only armed watches made records, those are disarmed that made one the buffer took, and do
    not persist. -/
theorem disarmed_iff (h : Follows cap r F d)
    (harmed : ∀ x ∈ F, ∃ w, r.watch? x.1 = some w ∧ w.armed = true) {key : Nat} :
    r.Disarmed d.registry key ↔
      key ∈ (F.take cap).map Prod.fst ∧
        ∃ w, r.watch? key = some w ∧ w.mask.isPersistent = false := by
  constructor
  · rintro ⟨w, w', hw, ha, hw', ha'⟩
    rw [h.watch?_eq, hw, Option.map_some, Option.some.injEq] at hw'
    by_cases hk : key ∈ (F.take cap).map Prod.fst
    · refine ⟨hk, w, hw, ?_⟩
      unfold Watch.after at hw'
      rw [if_pos hk] at hw'
      rw [← hw'] at ha'
      unfold Watch.spend at ha'
      rw [ha, Bool.true_and] at ha'
      exact ha'
    · unfold Watch.after at hw'
      rw [if_neg hk] at hw'
      rw [← hw', ha] at ha'
      cases ha'
  · rintro ⟨hk, w, hw, hp⟩
    obtain ⟨x, hx, rfl⟩ := List.mem_map.mp hk
    obtain ⟨v, hv, ha⟩ := harmed x (List.mem_of_mem_take hx)
    rw [hw] at hv
    cases hv
    refine ⟨w, w.spend, hw, ha, ?_, ?_⟩
    · rw [h.watch?_eq, hw, Option.map_some]
      unfold Watch.after
      rw [if_pos hk]
    · show (w.armed && w.mask.isPersistent) = false
      rw [hp, Bool.and_false]

/-- A delivery starts with a cleared buffer and no records. -/
theorem start (r : Registry) (b : Buffer) : Follows b.capacity r [] ⟨r, b.clear, none⟩ where
  capacity_eq := Buffer.capacity_clear b
  records_eq := by
    rw [List.take_nil]
    rfl
  overflow_eq := rfl
  chain_eq := fun _ => rfl
  watch?_eq := by
    intro key
    rw [List.take_nil]
    simp

/-- If there is room for the records of the reference, the delivery goes well. -/
theorem result_of_length_le (h : Follows cap r F d) (hF : F.length ≤ cap) : d.result = .ok () := by
  unfold Delivery.result
  rw [h.overflow_eq, List.getElem?_eq_none hF]
  rfl

/-- If there is not, it fails on the first that has none. -/
theorem result_of_lt_length (h : Follows cap r F d) (hF : cap < F.length) :
    d.result = .error (.bufferFull ⟨F[cap].2.fd, cap⟩) := by
  unfold Delivery.result
  rw [h.overflow_eq, List.getElem?_eq_getElem hF]
  rfl

end Delivery.Follows

/-- **A delivery into a cleared buffer** follows the reference from the beginning. -/
theorem Delivery.follows_foldl_fanOut {r : Registry} {keys : List Nat} (he : r.Enrolled keys)
    (b : Buffer) (es : List Event) :
    (es.foldl Delivery.fanOut ⟨r, b.clear, none⟩).Follows b.capacity r
      ((r.roster keys).emissions es) := by
  have h := (Follows.start r b).foldl_fanOut he es
  rw [List.nil_append, Roster.spent_nil] at h
  exact h

/-! ### Every history -/

/-- **A delivery is its reference, as far as the buffer goes.**  After any history, deliver any
    events into a cleared buffer of any capacity, and let the poller accept every registration on
    the way.  If the records `F` of the reference fit the buffer, the delivery succeeds with exactly
    these, and its watches are those of the reference.  If they do not, it fails on the first that
    does not fit, with those before it, and has disarmed the one-shot watches of these. -/
theorem History.deliver_eq_reference {σ : Type} {host : Host σ}
    {allowed : Action σ → σ → σ → Prop} {acts : List (Action σ)} {c : Collector σ} {s : σ}
    (h : History host allowed acts c s) (es : List Event) (b : Buffer) (s₀ : σ)
    (hacc : (Collector.deliver host.traced c.emulated es ⟨c.registry, b.clear, none⟩
      ⟨s₀, []⟩).2.2.AcceptedSince 0) :
    let F := (History.roster acts c).emissions es
    let o := Collector.deliver host c.emulated es ⟨c.registry, b.clear, none⟩ s₀
    (F.length ≤ b.capacity ∧ o.1 = .ok () ∧ o.2.1.buffer.records = F.map Prod.snd ∧
      ∀ key w, o.2.1.registry.watch? key = some w ↔
        (key, w) ∈ (History.roster acts c).settle es) ∨
    (∃ x, F[b.capacity]? = some x ∧ o.1 = .error (.bufferFull ⟨x.2.fd, b.capacity⟩) ∧
      o.2.1.buffer.records = (F.take b.capacity).map Prod.snd ∧
      c.registry.FiresTo o.2.1.registry ∧
      ∀ key, c.registry.Disarmed o.2.1.registry key ↔
        key ∈ (F.take b.capacity).map Prod.fst ∧
          ∃ w, c.registry.watch? key = some w ∧ w.mask.isPersistent = false) := by
  intro F o
  have he := h.enrolled
  have hnd : ((History.roster acts c).map Prod.fst).Nodup := by
    unfold History.roster
    rw [he.map_fst_roster]
    exact he.nodup
  have hfires : c.registry.FiresTo o.2.1.registry :=
    Collector.deliver_firesTo host c.emulated es ⟨c.registry, b.clear, none⟩ s₀
  -- The delivery follows the reference from the cleared buffer on.
  have hfollows := Delivery.follows_foldl_fanOut he b es
  obtain ⟨s', ho⟩ := Collector.deliver_of_accepted host c.emulated es
    ⟨c.registry, b.clear, none⟩ ⟨s₀, []⟩ (Nat.le_refl _) hacc
  generalize es.foldl Delivery.fanOut ⟨c.registry, b.clear, none⟩ = d at hfollows ho
  change o = (d.result, d, s') at ho
  rw [ho] at hfires ⊢
  -- Either the reference has a record that the buffer has no room for, or all of them fit.
  rcases Nat.lt_or_ge b.capacity F.length with hF | hF
  · have harmed : ∀ y ∈ F, ∃ w, c.registry.watch? y.1 = some w ∧ w.armed = true := by
      intro y hy
      obtain ⟨w, hw, ha⟩ := Roster.exists_armed_of_mem_emissions es hy
      exact ⟨w, he.mem_roster_iff.mp hw, ha⟩
    exact Or.inr ⟨F[b.capacity], List.getElem?_eq_getElem hF, hfollows.result_of_lt_length hF,
      hfollows.records_eq, hfires, fun key => hfollows.disarmed_iff harmed⟩
  · refine Or.inl ⟨hF, hfollows.result_of_length_le hF, ?_, fun key w => ?_⟩
    · rw [hfollows.records_eq]
      exact congrArg _ (List.take_of_length_le hF)
    · have hsettle := Roster.settle_spent hnd es []
      rw [List.nil_append, Roster.spent_nil] at hsettle
      rw [hsettle]
      exact hfollows.watch?_eq_some_iff he hF

open Scenario in
/-- Descriptor 5 has a one-shot and a persistent watch and is reported twice, around descriptor 6.
    The buffer has room for the first report of 5: the watch of 6 does not fit and stays armed. -/
theorem deliver_eq_reference_overflow :
    ∃ (c : Collector World) (s : World) (o : Except Error Unit × Delivery × World),
      History (World.host 0) anything
        [.add 5 .read (.ok ⟨0, 0⟩), .add 5 (.read ∪ .persist) (.ok ⟨1, 1⟩),
          .add 6 .write (.ok ⟨2, 2⟩)] c s ∧
      o = Collector.deliver (World.host 0) c.emulated
        [⟨5, true, true, false, none⟩, ⟨6, true, true, false, none⟩, ⟨5, true, true, false, none⟩]
        ⟨c.registry, (Buffer.ofCapacity 2).clear, none⟩ Session.scripted.world ∧
      o.1 = .error (.bufferFull ⟨6, 2⟩) ∧ o.2.1.buffer.records = [⟨5, 2⟩, ⟨5, 2⟩] ∧
      c.registry.Disarmed o.2.1.registry 0 ∧ ¬ c.registry.Disarmed o.2.1.registry 1 ∧
      ¬ c.registry.Disarmed o.2.1.registry 2 := by
  have h₀ : History (World.host 0) anything [] _ _ :=
    .create (show Collector.create (World.host 0) (Buffer.ofCapacity 4) default
      Session.scripted.world = (.ok _, _) from rfl)
  have h₁ := h₀.step (.add 5 .read _ _) trivial
  have h₂ := h₁.step (.add 5 (.read ∪ .persist) _ _) trivial
  have h₃ := h₂.step (.add 6 .write _ _) trivial
  refine ⟨_, _, _, h₃, rfl, ?_⟩
  rcases h₃.deliver_eq_reference
    [⟨5, true, true, false, none⟩, ⟨6, true, true, false, none⟩, ⟨5, true, true, false, none⟩]
    (Buffer.ofCapacity 2) Session.scripted.world (by decide) with
    ⟨hle, -⟩ | ⟨x, hx, ho, hr, -, hd⟩
  · exact absurd hle (by decide)
  · have hoverflow : x = (2, ⟨6, 4⟩) := Option.some.inj (hx.symm.trans (by decide))
    rw [ho, hr, hd, hd, hd, hoverflow]
    refine ⟨rfl, by decide, ⟨by decide, _, rfl, by decide⟩, ?_, ?_⟩
    · rintro ⟨-, w, hw, hp⟩
      cases hw
      exact absurd hp (by decide)
    · rintro ⟨hk, -⟩
      exact absurd hk (by decide)

end Readiness
