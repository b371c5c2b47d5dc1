import Readiness.Proofs.Deposits
import Readiness.Proofs.Poller.Rearming

namespace Readiness

/-!
# What is left in the slots

A run clears its buffer, but the slots keep what was stored in them, and more of it is left behind
when the records of the wake descriptor are taken out.  None of that is ever looked at: a collector
that wipes all slots which are not filled, at any moment, does the same.

* `Buffer.wiped` — the buffer with blanks in these slots.  A cleared buffer that is wiped only
  depends on the capacity (`Buffer.wiped_clear`), and the operations cannot tell
  (`Buffer.push_wiped`, `Buffer.wiped_removeFd`);
* `Collector.deliver_wiped`, `Collector.collect_wiped`, `Collector.wiped_finish` — nor can the parts
  of a run;
* `Collector.wiped_run` — two collectors with equally many slots run alike, whatever their slots
  hold;
* `Collector.run_ignores_leftovers` — what that means to a caller (`Outcome.Alike`).
-/

variable {σ : Type}

namespace Buffer

/-! ### Wiped buffers -/

/-- The buffer with blanks in the slots that are not filled. -/
def wiped (b : Buffer) : Buffer := ⟨b.records, List.replicate b.spare.length .blank⟩

@[simp] theorem capacity_wiped (b : Buffer) : b.wiped.capacity = b.capacity := by
  simp [wiped, capacity, slots]

/-- All that a cleared buffer has is its slots. -/
theorem wiped_clear (b : Buffer) : b.clear.wiped = ofCapacity b.capacity := rfl

/-- The next slot is filled whatever it holds. -/
theorem push_wiped (b : Buffer) (r : Record) : b.wiped.push r = (b.push r).map wiped := by
  have hsize : b.wiped.size = b.size := rfl
  rw [push_eq, push_eq, capacity_wiped, hsize]
  by_cases hroom : b.size < b.capacity
  · rw [if_pos hroom, if_pos hroom]
    show Except.ok (Buffer.mk _ (List.replicate b.spare.length Record.blank).tail) =
      Except.ok (Buffer.mk _ (List.replicate b.spare.tail.length .blank))
    rw [List.tail_replicate, List.length_tail]
    rfl
  · rw [if_neg hroom, if_neg hroom]
    rfl

/-- What a removal leaves behind depends on the slots, but is not looked at either. -/
theorem wiped_removeFd (b : Buffer) (fd : Fd) :
    (b.wiped.removeFd fd).wiped = (b.removeFd fd).wiped := by
  have hslots : b.wiped.slots.length = b.slots.length := b.capacity_wiped
  show Buffer.mk _ (List.replicate (b.wiped.slots.drop _).length .blank) =
    Buffer.mk _ (List.replicate (b.slots.drop _).length .blank)
  rw [List.length_drop, List.length_drop, hslots]
  rfl

end Buffer

namespace Delivery

/-! ### Deliveries -/

/-- A delivery into a wiped buffer. -/
def wiped (d : Delivery) : Delivery := { d with buffer := d.buffer.wiped }

/-- A watch is offered the same conditions, and takes them alike. -/
theorem offer_wiped (fd : Fd) (ready : Mask) (d : Delivery) (key : Nat) :
    offer fd ready d.wiped key = (offer fd ready d key).wiped := by
  unfold offer wiped
  dsimp only
  cases d.registry.watch? key with
  | none => rfl
  | some w =>
    dsimp only
    rw [Buffer.push_wiped]
    by_cases htakes : (w.armed && !(ready ∩ w.mask.conditions).isEmpty) = true
    · rw [if_pos htakes, if_pos htakes]
      cases d.buffer.push (.ofMask fd (ready ∩ w.mask.conditions)) with
      | error x => rfl
      | ok b => rfl
    · rw [if_neg htakes, if_neg htakes]

theorem fanOut_wiped (d : Delivery) (e : Event) : d.wiped.fanOut e = (d.fanOut e).wiped :=
  List.foldl_hom wiped (fun d key => offer_wiped e.fd e.mask d key)

end Delivery

namespace Collector

/-- The same events are delivered, and descriptors are registered again for the same conditions. -/
theorem deliver_wiped (host : Host σ) (emulated : Bool) (es : List Event) (d : Delivery) (s : σ) :
    deliver host emulated es d.wiped s =
      let r := deliver host emulated es d s
      (r.1, r.2.1.wiped, r.2.2) := by
  induction es generalizing d s with
  | nil => rfl
  | cons e es ih =>
    unfold deliver
    dsimp only
    rw [Delivery.fanOut_wiped, show Delivery.rearm? emulated d.wiped (d.fanOut e).wiped e =
      Delivery.rearm? emulated d (d.fanOut e) e from rfl]
    cases Delivery.rearm? emulated d (d.fanOut e) e with
    | none => exact ih _ _
    | some registration =>
      dsimp only
      rcases host.modify e.fd registration s with ⟨err | u, s'⟩
      · rfl
      · exact ih _ _

/-- The same waits are made.  Whether a blocking iteration goes on depends on the records only. -/
theorem collect_wiped (host : Host σ) (emulated : Bool) (timeout : Timeout) (start : Duration)
    (waits : Nat) (limit : Option Duration) (d : Delivery) (s : σ) :
    collect host emulated timeout start waits limit d.wiped s =
      (collect host emulated timeout start waits limit d s).map fun r =>
        (r.1, r.2.1.wiped, r.2.2) := by
  induction waits generalizing limit d s with
  | zero => rfl
  | succ waits ih =>
    unfold collect
    rcases host.wait limit s with ⟨err | es, s'⟩
    · dsimp only
      by_cases hk : err.kind = .interrupted
      · rw [if_pos hk, if_pos hk]
        cases timeout.limitAfter (host.now s' - start) with
        | none => rfl
        | some limit => exact ih _ _ _
      · rw [if_neg hk, if_neg hk]
        rfl
    · dsimp only
      rw [deliver_wiped]
      rcases deliver host emulated es d s' with ⟨err | u, d', s''⟩
      · rfl
      · dsimp only
        have hempty : d'.wiped.buffer.isEmpty = d'.buffer.isEmpty := rfl
        rw [hempty]
        by_cases hb : timeout = .block ∧ d'.buffer.isEmpty
        · rw [if_pos hb, if_pos hb]
          exact ih _ _ _
        · rw [if_neg hb, if_neg hb]
          rfl

/-- The collector with a wiped buffer. -/
def wiped (c : Collector σ) : Collector σ := { c with buffer := c.buffer.wiped }

end Collector

/-- The outcome with a wiped buffer. -/
def Outcome.wiped {α : Type} (o : Outcome σ α) : Outcome σ α :=
  { o with collector := o.collector.wiped }

namespace Collector

/-- The same records of the wake descriptor are taken out and counted. -/
theorem wiped_finish (host : Host σ) (c : Collector σ) (wokeFd : Fd) (answer : Except Error Unit)
    (s : σ) :
    (finish host c.wiped wokeFd answer s).wiped = (finish host c wokeFd answer s).wiped := by
  cases answer with
  | error e =>
    unfold finish Outcome.wiped wiped Buffer.wiped
    dsimp only
    rw [List.length_replicate]
  | ok u =>
    have hremoved := c.buffer.wiped_removeFd wokeFd
    unfold finish Outcome.wiped wiped
    dsimp only
    rw [hremoved]
    rfl

/-- What a run makes of its iteration, but for the slots that are not filled. -/
def ended (host : Host σ) (c : Collector σ) (wokeFd : Fd) (after : σ → σ)
    (r : Except Error Unit × Delivery × σ) : Outcome σ Nat :=
  (finish host { c with registry := r.2.1.registry, buffer := r.2.1.buffer } wokeFd r.1
    (after r.2.2)).wiped

/-- An iteration with a wiped delivery comes to the same. -/
theorem map_ended_wiped (host : Host σ) (c : Collector σ) (wokeFd : Fd) (after : σ → σ)
    (emulated : Bool) (timeout : Timeout) (start : Duration) (waits : Nat) (limit : Option Duration)
    (d : Delivery) (s : σ) :
    (collect host emulated timeout start waits limit d.wiped s).map (ended host c wokeFd after) =
      (collect host emulated timeout start waits limit d s).map (ended host c wokeFd after) := by
  rw [collect_wiped]
  cases collect host emulated timeout start waits limit d s with
  | none => rfl
  | some r =>
    exact congrArg some (wiped_finish host
      { c with registry := r.2.1.registry, buffer := r.2.1.buffer } wokeFd r.1 (after r.2.2))

/-- **Two collectors with equally many slots run alike**, but for what they leave in the slots that
    are not filled. -/
theorem wiped_run (host : Host σ) {c : Collector σ} {b : Buffer} (hb : b.capacity = c.capacity)
    (wakeFd wokeFd : Fd) (timeout : Timeout) (waits : Nat) (s : σ) :
    (({ c with buffer := b } : Collector σ).run host wakeFd wokeFd timeout waits s).map
        Outcome.wiped =
      (c.run host wakeFd wokeFd timeout waits s).map Outcome.wiped := by
  have hblank : b.clear.wiped = c.buffer.clear.wiped := congrArg Buffer.ofCapacity hb
  have hprepared : ({ c with buffer := b } : Collector σ).prepared wakeFd timeout s =
      c.prepared wakeFd timeout s := rfl
  cases hgo : (c.prepared wakeFd timeout s).1 with
  | true =>
    have hgo' := (congrArg Prod.fst hprepared).trans hgo
    rw [run_of_calledOff hgo, run_of_calledOff hgo', hprepared, Option.map_some, Option.map_some]
    unfold Outcome.wiped wiped
    dsimp only
    rw [hblank]
  | false =>
    have hgo' := (congrArg Prod.fst hprepared).trans hgo
    have hfresh : (fresh { c with buffer := b }).wiped = c.fresh.wiped :=
      congrArg (fun buffer => Delivery.mk c.registry buffer none) hblank
    rw [run_of_not_calledOff hgo, run_of_not_calledOff hgo', hprepared, Option.map_map,
      Option.map_map]
    let after (s : σ) := if timeout.mayBlock then c.hook.waitFinished s else s
    show (collect host c.emulated timeout _ waits timeout.limit
        (fresh { c with buffer := b }) _).map (ended host c wokeFd after) =
      (collect host c.emulated timeout _ waits timeout.limit c.fresh _).map
        (ended host c wokeFd after)
    rw [← map_ended_wiped, hfresh, map_ended_wiped]

end Collector

/-! ### What a caller sees -/

/-- Two outcomes that a caller cannot tell apart. -/
structure Outcome.Alike {α : Type} (o o' : Outcome σ α) : Prop where
  /-- The answers are the same. -/
  answer : o'.answer = o.answer
  /-- The same records are left. -/
  events : o'.collector.events = o.collector.events
  /-- There are equally many slots. -/
  capacity : o'.collector.capacity = o.collector.capacity
  /-- The watches with their armed flags, the hook and all else are the same. -/
  others : o'.collector = { o.collector with buffer := o'.collector.buffer }
  /-- The host was asked for the same, and is in the same state. -/
  state : o'.state = o.state

/-- What is the same once it is wiped cannot be told apart. -/
theorem Outcome.alike_of_wiped_eq {α : Type} {o o' : Outcome σ α} (h : o'.wiped = o.wiped) :
    o.Alike o' := by
  obtain ⟨answer, ⟨registry, buffer, emulated, timeUnit, hook⟩, s⟩ := o
  obtain ⟨answer', ⟨registry', buffer', emulated', timeUnit', hook'⟩, s'⟩ := o'
  obtain ⟨rfl, hcollector, rfl⟩ := Outcome.mk.inj h
  obtain ⟨rfl, hbuffer, rfl, rfl, rfl⟩ := Collector.mk.inj hcollector
  refine ⟨rfl, ?_, ?_, rfl, rfl⟩
  · show buffer'.wiped.records = buffer.wiped.records
    exact congrArg Buffer.records hbuffer
  · show buffer'.capacity = buffer.capacity
    rw [← buffer'.capacity_wiped, ← buffer.capacity_wiped]
    exact congrArg Buffer.capacity hbuffer

/-- **A run does not look at what is left in the slots.**  Take any collector on any host, and any
    buffer with as many slots, whatever is in these and however many are filled.  With this buffer
    in the place of its own, the collector runs alike.  Under any timeout, and for any number of
    waits, either both runs have an outcome or none has, and the answer, the records and the watches
    are the same.  So is the state of the host, and with it the trace of what it was asked for, if it
    keeps one.

    Exchanging buffers, of whatever size, hands the old one back as it was left, and does nothing
    else but tell the log. -/
theorem Collector.run_ignores_leftovers (host : Host σ) (c : Collector σ) :
    (∀ b : Buffer, b.capacity = c.capacity →
      let c' : Collector σ := { c with buffer := b }
      (∀ wakeFd wokeFd timeout waits s, Option.Rel Outcome.Alike
        (c.run host wakeFd wokeFd timeout waits s) (c'.run host wakeFd wokeFd timeout waits s)) ∧
      ∀ wakeFd wokeFd ticks waits s, Option.Rel Outcome.Alike
        (c.runTicks host wakeFd wokeFd ticks waits s)
        (c'.runTicks host wakeFd wokeFd ticks waits s)) ∧
    ∀ b s, c.resize host b s =
      ⟨.ok c.buffer, { c with buffer := b }, host.log (.resizing c.capacity b.capacity) s⟩ := by
  refine ⟨fun b hb => ?_, fun b s => rfl⟩
  have hrun : ∀ wakeFd wokeFd timeout waits s, Option.Rel Outcome.Alike
      (c.run host wakeFd wokeFd timeout waits s)
      (({ c with buffer := b } : Collector σ).run host wakeFd wokeFd timeout waits s) := by
    intro wakeFd wokeFd timeout waits s
    have hwiped := wiped_run host hb wakeFd wokeFd timeout waits s
    cases ho : c.run host wakeFd wokeFd timeout waits s with
    | none =>
      rw [ho] at hwiped
      rw [Option.map_eq_none_iff.mp hwiped]
      exact .none
    | some o =>
      rw [ho] at hwiped
      obtain ⟨o', ho', hsame⟩ := Option.map_eq_some_iff.mp hwiped
      rw [ho']
      exact .some (Outcome.alike_of_wiped_eq hsame)
  exact ⟨hrun, fun wakeFd wokeFd ticks => hrun wakeFd wokeFd (.ofTicks ticks c.timeUnit)⟩

open Scenario in
/-- There are persistent readers of 5 and of the wake descriptor 8.  A run has left a record for 5.
    A buffer with two records for 8 and another one in its last slot takes the place of this one.  A
    blocking run then hears of 8 and of 5, and takes out the record of 8, but none of those that
    were there. -/
theorem Collector.run_ignores_leftovers_woken :
    ∃ (c : Collector (Traced World)) (t : Traced World) (b : Buffer)
      (o o' : Outcome (Traced World) Nat),
      History (World.host 0).traced Overheard
        [.add 5 (.read ∪ .persist) (.ok ⟨0, 0⟩), .add 8 (.read ∪ .persist) (.ok ⟨1, 1⟩),
          .run 7 8 .poll (.ok 1)] c t ∧
      c.buffer = ⟨[⟨5, 2⟩], [⟨0, 0⟩, ⟨0, 0⟩]⟩ ∧
      b = ⟨[⟨8, 2⟩, ⟨8, 2⟩], [⟨5, 4⟩]⟩ ∧
      c.run (World.host 0).traced 7 8 .block 1 t = some o ∧
      ({ c with buffer := b } : Collector (Traced World)).run (World.host 0).traced 7 8 .block 1 t =
        some o' ∧
      o.collector.buffer = ⟨[⟨5, 2⟩], [⟨5, 2⟩, ⟨0, 0⟩]⟩ ∧
      o'.collector.buffer = ⟨[⟨5, 2⟩], [⟨5, 2⟩, ⟨5, 4⟩]⟩ ∧
      o'.answer = .ok 1 ∧ Outcome.Alike o o' := by
  have h₀ : History (World.host 0).traced Overheard [] _ _ :=
    .create (show Collector.create (World.host 0).traced (Buffer.ofCapacity 3) default
      ⟨World.answering true
        [.events [⟨5, true, false, false, none⟩],
          .events [⟨8, true, false, false, none⟩, ⟨5, true, false, false, none⟩]], []⟩ =
        (.ok _, _) from rfl)
  have h₁ := h₀.step (.add 5 (.read ∪ .persist) _ _) trivial
  have h₂ := h₁.step (.add 8 (.read ∪ .persist) _ _) trivial
  have h₃ := h₂.step (.run (show Collector.run _ _ 7 8 .poll 1 _ = some _ from rfl)) trivial
  obtain ⟨c, t, o, o', h, hbuffer, ho, ho', hleft, hleft', hanswer⟩ :
      ∃ c t o o', History (World.host 0).traced Overheard _ c t ∧
        c.buffer = ⟨[⟨5, 2⟩], [⟨0, 0⟩, ⟨0, 0⟩]⟩ ∧
        c.run (World.host 0).traced 7 8 .block 1 t = some o ∧
        Collector.run (World.host 0).traced
          { c with buffer := ⟨[⟨8, 2⟩, ⟨8, 2⟩], [⟨5, 4⟩]⟩ } 7 8 .block 1 t = some o' ∧
        o.collector.buffer = ⟨[⟨5, 2⟩], [⟨5, 2⟩, ⟨0, 0⟩]⟩ ∧
        o'.collector.buffer = ⟨[⟨5, 2⟩], [⟨5, 2⟩, ⟨5, 4⟩]⟩ ∧ o'.answer = .ok 1 :=
    ⟨_, _, _, _, h₃, rfl, rfl, rfl, rfl, rfl, rfl⟩
  have hcapacity : Buffer.capacity ⟨[⟨8, 2⟩, ⟨8, 2⟩], [⟨5, 4⟩]⟩ = c.capacity :=
    (congrArg Buffer.capacity hbuffer).symm
  have halike := ((run_ignores_leftovers (World.host 0).traced c).1 _ hcapacity).1 7 8 .block 1 t
  rw [ho, ho'] at halike
  cases halike with
  | some halike => exact ⟨c, t, _, o, o', h, hbuffer, rfl, ho, ho', hleft, hleft', hanswer, halike⟩

end Readiness
