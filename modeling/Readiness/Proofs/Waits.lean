import Readiness.Proofs.Deposits

namespace Readiness

/-!
# The waits of a run

A run waits again after an interruption, for what is left of its time, and a blocking run also
after events that made no record.  So the waits of a run are some that it passed over and one that
ended it.

* `Timeout.Leaves` and `Timeout.IsUp` — what an interruption leaves of a timeout, or that it leaves
  nothing;
* `Collector.PassesOver` and `Collector.Ends` — waits that an iteration goes on after, and a wait
  that ends it.  They determine the iteration (`PassesOver.collect_eq`, `Ends.collect_eq`), and every
  iteration is made of them (`Collector.collect_waits`);
* `Host.answering` — the host whose waits all have one answer;
* `KeepsDeadline` — the limits of the waits of a run with a deadline;
* `Collector.run_keeps_deadline` — the limits add up to the deadline, however often the run is
  interrupted, and the wait that ends it is all that is seen of the waits.
-/

variable {σ : Type}

/-! ### Limits -/

/-- A wait of a run. -/
structure TimedWait where
  /-- The limit it was given. -/
  limit : Option Duration
  /-- What came of it. -/
  answer : Except SystemError (List Event)
  /-- The time since the start of the run when it was over. -/
  elapsed : Duration

/-- A wait with this answer was interrupted. -/
def WasInterrupted (answer : Except SystemError (List Event)) : Prop :=
  ∃ e, answer = .error e ∧ e.kind = .interrupted

namespace Timeout

/-- A run that is interrupted after `elapsed` waits again, and the next wait is given this limit. -/
inductive Leaves : Timeout → (elapsed : Duration) → Option Duration → Prop where
  /-- If it blocks, there is no limit. -/
  | block (elapsed : Duration) : Leaves .block elapsed none
  /-- If it has a deadline, the limit is what is left. -/
  | bounded {d elapsed : Duration} (hearly : elapsed < d) :
      Leaves (.bounded d) elapsed (some (d - elapsed))

/-- A run that is interrupted after `elapsed` is over. -/
inductive IsUp : Timeout → (elapsed : Duration) → Prop where
  /-- If it polls, it has no time. -/
  | poll (elapsed : Duration) : IsUp .poll elapsed
  /-- If it has a deadline, that has come. -/
  | bounded {d elapsed : Duration} (hup : d ≤ elapsed) : IsUp (.bounded d) elapsed

variable {timeout : Timeout} {elapsed : Duration}

theorem Leaves.limitAfter_eq {next : Option Duration} (h : timeout.Leaves elapsed next) :
    timeout.limitAfter elapsed = some next := by
  cases h with
  | block => rfl
  | @bounded d _ hearly =>
    have hleft : ¬ d ≤ elapsed := Nat.not_le_of_lt hearly
    show (d.left? elapsed).map some = _
    rw [Duration.left?, if_neg hleft]
    rfl

theorem IsUp.limitAfter_eq (h : timeout.IsUp elapsed) : timeout.limitAfter elapsed = none := by
  cases h with
  | poll =>
    have hup : Duration.zero ≤ elapsed := Nat.zero_le elapsed.toNanos
    show (Duration.zero.left? elapsed).map some = none
    rw [Duration.left?, if_pos hup]
    rfl
  | @bounded d _ hup =>
    show (d.left? elapsed).map some = none
    rw [Duration.left?, if_pos hup]
    rfl

/-- Either time is left, or it is up. -/
theorem leaves_or_isUp (timeout : Timeout) (elapsed : Duration) :
    (∃ next, timeout.Leaves elapsed next) ∨ timeout.IsUp elapsed := by
  cases timeout with
  | block => exact Or.inl ⟨none, .block elapsed⟩
  | poll => exact Or.inr (.poll elapsed)
  | bounded d =>
    rcases Nat.lt_or_ge elapsed.toNanos d.toNanos with hearly | hup
    · exact Or.inl ⟨_, .bounded hearly⟩
    · exact Or.inr (.bounded hup)

end Timeout

/-! ### Waits that are passed over, and waits that end an iteration -/

namespace Collector

variable {host : Host σ} {emulated : Bool} {timeout : Timeout} {start : Duration} {d : Delivery}
  {limit next : Option Duration} {xs : List TimedWait} {s s' : σ}

/-- The waits `xs`, the first of which is given `limit`, lead from `s` to `s'`, and an iteration with
    the delivery `d` goes on after each: it was interrupted before the time was up, or the iteration
    blocks and the events did nothing to `d`, which has no records.  The wait after them is given
    `next`. -/
inductive PassesOver (host : Host σ) (emulated : Bool) (timeout : Timeout) (start : Duration)
    (d : Delivery) : (limit : Option Duration) → List TimedWait → (next : Option Duration) →
    σ → σ → Prop where
  | nil (limit : Option Duration) (s : σ) :
      PassesOver host emulated timeout start d limit [] limit s s
  | interrupted {limit limit' next : Option Duration} {e : SystemError} {xs : List TimedWait}
      {s s₁ s' : σ} (hw : host.wait limit s = (.error e, s₁)) (hk : e.kind = .interrupted)
      (hleft : timeout.Leaves (host.now s₁ - start) limit')
      (h : PassesOver host emulated timeout start d limit' xs next s₁ s') :
      PassesOver host emulated timeout start d limit
        (⟨limit, .error e, host.now s₁ - start⟩ :: xs) next s s'
  | quiet {limit next : Option Duration} {es : List Event} {xs : List TimedWait} {s s₁ s₂ s' : σ}
      (hblock : timeout = .block) (hw : host.wait limit s = (.ok es, s₁))
      (hd : deliver host emulated es d s₁ = (.ok (), d, s₂)) (hnil : d.buffer.records = [])
      (h : PassesOver host emulated timeout start d limit xs next s₂ s') :
      PassesOver host emulated timeout start d limit
        (⟨limit, .ok es, host.now s₁ - start⟩ :: xs) next s s'

/-- A wait with this answer ends an iteration with the delivery `d`, which comes to `r`. -/
inductive Ends (host : Host σ) (emulated : Bool) (timeout : Timeout) (start : Duration)
    (d : Delivery) : Except SystemError (List Event) → σ → Except Error Unit × Delivery × σ → Prop
    where
  /-- It was interrupted, and the time is up. -/
  | timeUp {e : SystemError} {s : σ} (hk : e.kind = .interrupted)
      (hup : timeout.IsUp (host.now s - start)) :
      Ends host emulated timeout start d (.error e) s (.ok (), d, s)
  /-- It failed with another error. -/
  | failed {e : SystemError} {s : σ} (hk : e.kind ≠ .interrupted) :
      Ends host emulated timeout start d (.error e) s (.error (.io e), d, s)
  /-- Its events overflow the buffer, or the poller refuses a registration. -/
  | broken {es : List Event} {s s' : σ} {err : Error} {d' : Delivery}
      (hd : deliver host emulated es d s = (.error err, d', s')) :
      Ends host emulated timeout start d (.ok es) s (.error err, d', s')
  /-- Its events are delivered, and if the iteration blocks, they made a record. -/
  | delivered {es : List Event} {s s' : σ} {d' : Delivery}
      (hd : deliver host emulated es d s = (.ok (), d', s'))
      (hb : ¬ (timeout = .block ∧ d'.buffer.isEmpty)) :
      Ends host emulated timeout start d (.ok es) s (.ok (), d', s')

/-- An iteration is at the next wait once it has passed over some. -/
theorem PassesOver.collect_eq (h : PassesOver host emulated timeout start d limit xs next s s')
    (n : Nat) :
    collect host emulated timeout start (xs.length + n) limit d s =
      collect host emulated timeout start n next d s' := by
  induction h with
  | nil limit s => rw [List.length_nil, Nat.zero_add]
  | interrupted hw hk hleft _ ih =>
    rw [← ih, List.length_cons, Nat.add_right_comm]
    simp only [collect, hw, if_pos hk, hleft.limitAfter_eq]
  | quiet hblock hw hd hnil _ ih =>
    have hempty : timeout = .block ∧ d.buffer.isEmpty := ⟨hblock, List.isEmpty_iff.mpr hnil⟩
    rw [← ih, List.length_cons, Nat.add_right_comm]
    simp only [collect, hw, hd, if_pos hempty]

/-- The events it has offered by then did nothing. -/
theorem PassesOver.collected_eq (h : PassesOver host emulated timeout start d limit xs next s s') :
    ∃ pre, pre.foldl Delivery.fanOut d = d ∧ ∀ n,
      collected host emulated timeout start (xs.length + n) limit d s =
        pre ++ collected host emulated timeout start n next d s' := by
  induction h with
  | nil limit s =>
    refine ⟨[], rfl, fun n => ?_⟩
    rw [List.length_nil, Nat.zero_add, List.nil_append]
  | interrupted hw hk hleft _ ih =>
    obtain ⟨pre, hpre, hrest⟩ := ih
    refine ⟨pre, hpre, fun n => ?_⟩
    rw [← hrest, List.length_cons, Nat.add_right_comm]
    simp only [collected, hw, if_pos hk, hleft.limitAfter_eq]
  | @quiet limit next es xs s s₁ s₂ s' hblock hw hd hnil _ ih =>
    have hempty : timeout = .block ∧ d.buffer.isEmpty := ⟨hblock, List.isEmpty_iff.mpr hnil⟩
    have hfold := deliver_delivered host emulated es d s₁
    rw [hd] at hfold
    obtain ⟨pre, hpre, hrest⟩ := ih
    refine ⟨delivered host emulated es d s₁ ++ pre, ?_, fun n => ?_⟩
    · rw [List.foldl_append, ← hfold]
      exact hpre
    · rw [List.append_assoc, ← hrest, List.length_cons, Nat.add_right_comm]
      simp only [collected, hw, hd, if_pos hempty]

/-- An iteration is over with a wait that ends it. -/
theorem Ends.collect_eq {answer : Except SystemError (List Event)}
    {r : Except Error Unit × Delivery × σ} (h : Ends host emulated timeout start d answer s' r)
    (hw : host.wait limit s = (answer, s')) (n : Nat) :
    collect host emulated timeout start (n + 1) limit d s = some r := by
  cases h with
  | timeUp hk hup => simp only [collect, hw, if_pos hk, hup.limitAfter_eq]
  | failed hk => simp only [collect, hw, if_neg hk]
  | broken hd => simp only [collect, hw, hd]
  | delivered hd hb => simp only [collect, hw, hd, if_neg hb]

/-- **Every wait** is passed over, or ends the iteration. -/
theorem passesOver_or_ends (host : Host σ) (emulated : Bool) (timeout : Timeout)
    (start : Duration) (d : Delivery) (limit : Option Duration) (s : σ) :
    (∃ x limit' s₁, ∀ {xs next s'}, PassesOver host emulated timeout start d limit' xs next s₁ s' →
      PassesOver host emulated timeout start d limit (x :: xs) next s s') ∨
    ∃ answer s₁ r, host.wait limit s = (answer, s₁) ∧
      Ends host emulated timeout start d answer s₁ r := by
  rcases hw : host.wait limit s with ⟨e | es, s₁⟩
  · by_cases hk : e.kind = .interrupted
    · rcases timeout.leaves_or_isUp (host.now s₁ - start) with ⟨limit', hleft⟩ | hup
      · exact Or.inl ⟨_, limit', s₁, fun h => .interrupted hw hk hleft h⟩
      · exact Or.inr ⟨_, s₁, _, rfl, .timeUp hk hup⟩
    · exact Or.inr ⟨_, s₁, _, rfl, .failed hk⟩
  · rcases hd : deliver host emulated es d s₁ with ⟨err | u, d', s₂⟩
    · exact Or.inr ⟨_, s₁, _, rfl, .broken hd⟩
    · by_cases hb : timeout = .block ∧ d'.buffer.isEmpty
      · -- Nothing was reported, so nothing was done.
        have hnil : d'.buffer.records = [] := List.isEmpty_iff.mp hb.2
        obtain rfl : d' = d := deliver_of_quiet hd hnil
        exact Or.inl ⟨_, limit, s₂, fun h => .quiet hb.1 hw hd hnil h⟩
      · exact Or.inr ⟨_, s₁, _, rfl, .delivered hd hb⟩

/-- **Inversion of an iteration by its waits.**  It passes over some of them, and has none left
    then, or the next one ends it. -/
theorem collect_waits (host : Host σ) (emulated : Bool) (timeout : Timeout) (start : Duration)
    (waits : Nat) (limit : Option Duration) (d : Delivery) (s : σ) :
    ∃ xs next s₁, PassesOver host emulated timeout start d limit xs next s s₁ ∧
      ((xs.length = waits ∧ collect host emulated timeout start waits limit d s = none) ∨
        ∃ answer s₂ r, xs.length < waits ∧ host.wait next s₁ = (answer, s₂) ∧
          Ends host emulated timeout start d answer s₂ r ∧
          collect host emulated timeout start waits limit d s = some r) := by
  -- By induction on the waits that may be made; the delivery is the same at each of them.
  induction waits generalizing limit s with
  | zero => exact ⟨[], limit, s, .nil limit s, Or.inl ⟨rfl, rfl⟩⟩
  | succ n ih =>
    rcases passesOver_or_ends host emulated timeout start d limit s with
      ⟨x, limit', s', hpass⟩ | ⟨answer, s', r, hw, hends⟩
    · obtain ⟨xs, next, s₁, h, hrest⟩ := ih limit' s'
      have hone := (hpass (.nil limit' s')).collect_eq n
      rw [List.length_singleton, Nat.add_comm] at hone
      refine ⟨x :: xs, next, s₁, hpass h, ?_⟩
      rw [hone, List.length_cons, Nat.add_right_cancel_iff, Nat.add_lt_add_iff_right]
      exact hrest
    · exact ⟨[], limit, s, .nil limit s,
        Or.inr ⟨answer, s', r, Nat.succ_pos n, hw, hends, hends.collect_eq hw n⟩⟩

end Collector

/-! ### One answer in place of all waits -/

/-- The host whose waits all have the same answer, and lead to the same state. -/
def Host.answering (host : Host σ) (answer : Except SystemError (List Event)) (s' : σ) : Host σ :=
  { host with wait := fun _ _ => (answer, s') }

namespace Collector

variable {host : Host σ} {emulated : Bool} {timeout : Timeout} {start : Duration} {d : Delivery}

/-- A delivery does not wait. -/
theorem deliver_answering (host : Host σ) (answer : Except SystemError (List Event)) (s' : σ)
    (emulated : Bool) (es : List Event) (d : Delivery) (s : σ) :
    deliver (host.answering answer s') emulated es d s = deliver host emulated es d s := by
  induction es generalizing d s with
  | nil => rfl
  | cons e es ih =>
    unfold deliver
    simp only [ih]
    rfl

/-- The answer that ended an iteration ends any iteration as its only answer, if it was not
    interrupted. -/
theorem Ends.collect_answering {answer : Except SystemError (List Event)} {s' : σ}
    {r : Except Error Unit × Delivery × σ} (h : Ends host emulated timeout start d answer s' r)
    (hint : ¬ WasInterrupted answer) {timeout' : Timeout}
    (htimeout : timeout' = .block → timeout = .block) (start' : Duration) (limit : Option Duration)
    (s : σ) :
    collect (host.answering answer s') emulated timeout' start' 1 limit d s = some r := by
  have hends : Ends (host.answering answer s') emulated timeout' start' d answer s' r := by
    cases h with
    | timeUp hk _ => exact absurd ⟨_, rfl, hk⟩ hint
    | failed hk => exact .failed hk
    | broken hd => exact .broken ((deliver_answering ..).trans hd)
    | delivered hd hb =>
      exact .delivered ((deliver_answering ..).trans hd) fun h => hb ⟨htimeout h.1, h.2⟩
  exact hends.collect_eq rfl 0

end Collector

/-! ### Deadlines -/

/-- The waits `xs` of a run that may last `d` were interrupted in time, and got the limits that this
    leaves; the wait after them is given `next`. -/
structure KeepsDeadline (d : Duration) (xs : List TimedWait) (next : Option Duration) : Prop where
  /-- All of them were interrupted before the deadline. -/
  early : ∀ x ∈ xs, WasInterrupted x.answer ∧ x.elapsed < d
  /-- The first wait is given all the time, and each of the others what the wait before it left. -/
  limits_eq : xs.map TimedWait.limit ++ [next] = some d :: xs.map fun x => some (d - x.elapsed)
  /-- What a wait left is not nothing, and together with the time so far it is all the time. -/
  left_eq : ∀ x ∈ xs, 0 < (d - x.elapsed).toNanos ∧
    x.elapsed.toNanos + (d - x.elapsed).toNanos = d.toNanos
  /-- Unless the clock goes back, no limit is above one before. -/
  not_above : (xs.map TimedWait.elapsed).Pairwise (fun t t' => t ≤ t') →
    (xs.map TimedWait.limit ++ [next]).Pairwise fun l l' =>
      ∀ {r r'}, l = some r → l' = some r' → r' ≤ r

/-- Waits that were interrupted in time, with the limits that they left. -/
theorem KeepsDeadline.of_limits {d : Duration} {xs : List TimedWait} {next : Option Duration}
    (hearly : ∀ x ∈ xs, WasInterrupted x.answer ∧ x.elapsed < d)
    (hlimits : xs.map TimedWait.limit ++ [next] = some d :: xs.map fun x => some (d - x.elapsed)) :
    KeepsDeadline d xs next where
  early := hearly
  limits_eq := hlimits
  left_eq := by
    intro x hx
    have hlt := (Duration.lt_def _ _).mp (hearly x hx).2
    rw [Duration.toNanos_sub]
    omega
  not_above := by
    intro hclock
    rw [hlimits, List.pairwise_cons]
    constructor
    -- No wait gets more than the first, and of two later ones the elapsed times decide.
    · rintro l hl r r' ⟨⟩ hr'
      obtain ⟨x, -, rfl⟩ := List.mem_map.mp hl
      cases hr'
      rw [Duration.le_def, Duration.toNanos_sub]
      exact Nat.sub_le _ _
    · rw [List.pairwise_map] at hclock ⊢
      refine hclock.imp ?_
      rintro x y hxy r r' ⟨⟩ ⟨⟩
      rw [Duration.le_def] at hxy
      rw [Duration.le_def, Duration.toNanos_sub, Duration.toNanos_sub]
      omega

namespace Collector.PassesOver

variable {host : Host σ} {emulated : Bool} {start : Duration} {d : Delivery}
  {limit next : Option Duration} {xs : List TimedWait} {s s' : σ}

/-- With a deadline only interruptions before it are passed over, and the limits are what they
    leave. -/
theorem of_bounded {t : Duration}
    (h : PassesOver host emulated (.bounded t) start d limit xs next s s') :
    (∀ x ∈ xs, WasInterrupted x.answer ∧ x.elapsed < t) ∧
    xs.map TimedWait.limit ++ [next] = limit :: xs.map fun x => some (t - x.elapsed) := by
  induction h with
  | nil limit s => exact ⟨fun x hx => absurd hx List.not_mem_nil, rfl⟩
  | interrupted _ hk hleft _ ih =>
    obtain ⟨hearly, hlimits⟩ := ih
    cases hleft with
    | bounded hlt =>
      refine ⟨List.forall_mem_cons.mpr ⟨⟨⟨_, rfl, hk⟩, hlt⟩, hearly⟩, ?_⟩
      rw [List.map_cons, List.cons_append, hlimits, List.map_cons]
  | quiet hblock => cases hblock

/-- Without time nothing is passed over. -/
theorem of_poll (h : PassesOver host emulated .poll start d limit xs next s s') :
    xs = [] ∧ next = limit := by
  cases h with
  | nil => exact ⟨rfl, rfl⟩
  | interrupted _ _ hleft => cases hleft
  | quiet hblock => cases hblock

/-- Without a deadline no wait has a limit. -/
theorem of_block (h : PassesOver host emulated .block start d limit xs next s s')
    (hlimit : limit = none) : next = none ∧ ∀ x ∈ xs, x.limit = none := by
  induction h with
  | nil limit s => exact ⟨hlimit, fun x hx => absurd hx List.not_mem_nil⟩
  | interrupted _ _ hleft _ ih =>
    cases hleft with
    | block =>
      obtain ⟨hnext, hxs⟩ := ih rfl
      exact ⟨hnext, List.forall_mem_cons.mpr ⟨hlimit, hxs⟩⟩
  | quiet _ _ _ _ _ ih =>
    obtain ⟨hnext, hxs⟩ := ih hlimit
    exact ⟨hnext, List.forall_mem_cons.mpr ⟨hlimit, hxs⟩⟩

end Collector.PassesOver

namespace Collector

/-- A run that reports nothing leaves a cleared buffer. -/
theorem finish_fresh (host : Host σ) (c : Collector σ) (wokeFd : Fd) (s : σ) :
    finish host { c with registry := c.fresh.registry, buffer := c.fresh.buffer } wokeFd (.ok ()) s =
      ⟨.ok 0, { c with buffer := c.buffer.clear }, host.log (.reported 0) s⟩ :=
  rfl

/-- **Interrupted waits keep the deadline.**  A run that is not called off passes over some waits.

    * If it may last `d`, the first wait is given `d`.  Those it passes over were interrupted before
      that, and each leaves the rest of `d`, which is not nothing, to the next.
    * If it polls, it passes over none, and the only wait is given no time.
    * If it blocks, no wait is given a limit.

    The next wait ends the run, unless there is none left.  If it is interrupted, then the run does
    not block, its time is up, and it reports nothing.  If it is not interrupted, the run is that with
    its answer for the only one. -/
theorem run_keeps_deadline (host : Host σ) (c : Collector σ) {wakeFd : Fd} (wokeFd : Fd)
    {timeout : Timeout} {s s₀ : σ} (hgo : c.prepared wakeFd timeout s = (false, s₀)) (waits : Nat) :
    ∃ limit xs next s₁,
      PassesOver host c.emulated timeout (host.now s₀) c.fresh limit xs next s₀ s₁ ∧
      (∀ d, timeout = .bounded d → limit = some d ∧ KeepsDeadline d xs next) ∧
      (timeout = .poll → limit = some .zero ∧ xs = [] ∧ next = some .zero) ∧
      (timeout = .block → limit = none ∧ (∀ x ∈ xs, x.limit = none) ∧ next = none) ∧
      ((xs.length = waits ∧ c.run host wakeFd wokeFd timeout waits s = none) ∨
        ∃ answer s₂ o, xs.length < waits ∧ host.wait next s₁ = (answer, s₂) ∧
          c.run host wakeFd wokeFd timeout waits s = some o ∧
          ((WasInterrupted answer ∧ timeout ≠ .block ∧
              (∀ d, timeout = .bounded d → d ≤ host.now s₂ - host.now s₀) ∧
              o = ⟨.ok 0, { c with buffer := c.buffer.clear }, host.log (.reported 0)
                (if timeout.mayBlock then c.hook.waitFinished s₂ else s₂)⟩ ∧
              o.collector.events = []) ∨
            (¬ WasInterrupted answer ∧
              c.run (host.answering answer s₂) wakeFd wokeFd timeout 1 s = some o))) := by
  have hfalse : (c.prepared wakeFd timeout s).1 = false := by rw [hgo]
  obtain ⟨xs, next, s₁, hpass, hend⟩ :=
    collect_waits host c.emulated timeout (host.now s₀) waits timeout.limit c.fresh s₀
  refine ⟨timeout.limit, xs, next, s₁, hpass, ?_, ?_, ?_, ?_⟩
  · rintro d rfl
    obtain ⟨hearly, hlimits⟩ := hpass.of_bounded
    exact ⟨rfl, .of_limits hearly hlimits⟩
  · rintro rfl
    exact ⟨rfl, hpass.of_poll⟩
  · rintro rfl
    exact ⟨rfl, (hpass.of_block rfl).symm⟩
  rw [run_of_not_calledOff hfalse, hgo]
  rcases hend with ⟨hlen, hnone⟩ | ⟨answer, s₂, r, hlen, hw, hends, hr⟩
  · exact Or.inl ⟨hlen, by rw [hnone]; rfl⟩
  refine Or.inr ⟨answer, s₂, _, hlen, hw, congrArg (Option.map _) hr, ?_⟩
  by_cases hint : WasInterrupted answer
  · refine Or.inl ⟨hint, ?_⟩
    obtain ⟨e, rfl, hk⟩ := hint
    cases hends with
    | timeUp _ hup =>
      refine ⟨?_, ?_, finish_fresh host c wokeFd _, rfl⟩
      · rintro rfl
        cases hup
      · rintro d rfl
        cases hup with
        | bounded hup => exact hup
    | failed hk' => exact absurd hk hk'
  · refine Or.inr ⟨hint, ?_⟩
    rw [run_of_not_calledOff hfalse, hgo, hends.collect_answering hint id]
    rfl

open Scenario in
/-- A run of 10 milliseconds is interrupted after 4, and in the wait for the other 6, after 11. -/
theorem run_keeps_deadline_twice :
    ∃ (c : Collector World) (s s₁ s₂ : World),
      c.prepared 7 (.bounded (.ofMillis 10)) s = (false, s) ∧
      (World.host 0).wait (some (.ofMillis 10)) s = (.error (.os 4), s₁) ∧
      (World.host 0).wait (some (.ofMillis 6)) s₁ = (.error (.os 4), s₂) ∧
      c.run (World.host 0) 7 8 (.bounded (.ofMillis 10)) 3 s =
        some ⟨.ok 0, { c with buffer := c.buffer.clear }, (World.host 0).log (.reported 0) s₂⟩ := by
  have hgo : Collector.prepared (σ := World) ⟨∅, .ofCapacity 1, false, default, .none⟩ 7
      (.bounded (.ofMillis 10)) { Session.scripted.world with
        pollers := .scripted { Poller.Script.empty with
          waits := [.failure 4 4, .failure 4 7, .events []] } } = (false, _) := rfl
  obtain ⟨limit, xs, next, s₁, hpass, hdeadline, -, -, hend⟩ :=
    run_keeps_deadline (World.host 0) _ 8 hgo 3
  obtain ⟨rfl, -⟩ := hdeadline _ rfl
  cases hpass with
  | nil limit s =>
    rcases hend with ⟨hlen, -⟩ | ⟨answer, s₂, o, -, hw, -, ⟨-, -, hup, -⟩ | ⟨hint, -⟩⟩
    · cases hlen
    · cases hw
      exact absurd (hup _ rfl) (by decide)
    · cases hw
      exact absurd ⟨_, rfl, by decide⟩ hint
  | quiet hblock => cases hblock
  | interrupted hw hk hleft hpass =>
    cases hw
    cases hleft
    cases hpass with
    | nil limit s =>
      rcases hend with ⟨hlen, -⟩ | ⟨answer, s₂, o, -, hw, hrun, ⟨-, -, -, rfl, -⟩ | ⟨hint, -⟩⟩
      · cases hlen
      · cases hw
        exact ⟨_, _, _, _, hgo, rfl, rfl, hrun⟩
      · cases hw
        exact absurd ⟨_, rfl, by decide⟩ hint
    | quiet hblock => cases hblock
    | interrupted hw hk hleft hpass =>
      cases hw
      cases hleft with
      | bounded hearly => exact absurd hearly (by decide)

end Collector

end Readiness
