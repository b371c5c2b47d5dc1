import Readiness.Proofs.Recovery

namespace Readiness

/-!
# Blocking runs

A blocking run waits until something is reported.  What it does before that is not seen, so it is an
iteration on the first wait that matters.

* `Registry.Ignores` — no armed watch asks for what the events report, and `Registry.Idle`, that an
  answer is an interruption or such events;
* `Collector.foldl_fanOut_eq_fresh_iff` — these are the events that do nothing;
* `Collector.PassesOver.idle` — so a blocking run only passes over idle waits;
* `History.blocks_until_productive` — the run is that of the first other wait, as if a run that only
  polls had been given its answer.
-/

variable {σ : Type} {host : Host σ}

/-! ### Waits that do not matter -/

/-- No armed watch asks for a condition that the events report of its descriptor. -/
def Registry.Ignores (r : Registry) (es : List Event) : Prop :=
  ∀ e ∈ es, ∀ key w, r.watch? key = some w → w.reports e = false

/-- A wait with this answer was interrupted, or has events for nobody. -/
def Registry.Idle (r : Registry) : Except SystemError (List Event) → Prop
  | .error e => e.kind = .interrupted
  | .ok es => r.Ignores es

/-- Events make no record exactly if no watch reports one of them. -/
theorem Roster.emissions_eq_nil_iff {R : Roster} {es : List Event} :
    R.emissions es = [] ↔ ∀ e ∈ es, ∀ x ∈ R, x.2.reports e = false := by
  have hemit : ∀ {e : Event}, R.emit e = [] ↔ ∀ x ∈ R, x.2.reports e = false := by
    intro e
    unfold Roster.emit
    rw [List.map_eq_nil_iff, List.filter_eq_nil_iff]
    simp only [Bool.not_eq_true]
  induction es with
  | nil => exact iff_of_true rfl fun e he => absurd he List.not_mem_nil
  | cons e es ih =>
    show R.emit e ++ (R.pass e).emissions es = [] ↔ _
    rw [List.append_eq_nil_iff, List.forall_mem_cons, hemit]
    refine and_congr_right fun hnone => ?_
    -- An event that nobody reports leaves the watches as they are.
    have hpass : R.pass e = R := by
      unfold Roster.pass
      conv_rhs => rw [← List.map_id R]
      refine List.map_congr_left fun x hx => ?_
      rw [hnone x hx]
      rfl
    rw [hpass]
    exact ih

namespace Collector

variable {c : Collector σ} {keys : List Nat}

/-- Events that are ignored make no record. -/
theorem emissions_eq_nil_iff_ignores {r : Registry} (he : r.Enrolled keys) {es : List Event} :
    (r.roster keys).emissions es = [] ↔ r.Ignores es := by
  rw [Roster.emissions_eq_nil_iff]
  constructor
  · exact fun h e hmem key w hw => h e hmem (key, w) (he.mem_roster_iff.mpr hw)
  · exact fun h e hmem x hx => h e hmem x.1 x.2 (he.mem_roster_iff.mp hx)

/-- **Events do nothing exactly if they are ignored.** -/
theorem foldl_fanOut_eq_fresh_iff (he : c.registry.Enrolled keys) {es : List Event} :
    es.foldl Delivery.fanOut c.fresh = c.fresh ↔ c.registry.Ignores es := by
  constructor
  · exact fun h => (emissions_eq_nil_iff_ignores he).mp (emissions_eq_nil he h)
  · intro h
    induction es with
    | nil => rfl
    | cons e es ih =>
      have hone : c.registry.Ignores [e] := by
        intro e' hmem
        rw [List.mem_singleton] at hmem
        exact hmem ▸ h e List.mem_cons_self
      -- There is no record of the event, neither in the buffer nor as an overflow.
      have hfollows : (c.fresh.fanOut e).Follows c.buffer.capacity c.registry [] := by
        have hfold := Delivery.follows_foldl_fanOut he c.buffer [e]
        rw [(emissions_eq_nil_iff_ignores he).mpr hone] at hfold
        exact hfold
      have hquiet : (c.fresh.fanOut e).Quiet := by
        refine ⟨?_, hfollows.overflow_eq⟩
        rw [hfollows.records_eq, List.take_nil, List.map_nil]
      rw [List.foldl_cons, Delivery.fanOut_of_quiet hquiet]
      exact ih fun e' hmem => h e' (List.mem_cons_of_mem e hmem)

/-- A delivery that did nothing was of events that are ignored. -/
theorem ignores_of_deliver_eq (he : c.registry.Enrolled keys) {es : List Event} {s s' : σ}
    (hd : deliver host c.emulated es c.fresh s = (.ok (), c.fresh, s')) : c.registry.Ignores es := by
  have hfold := deliver_delivered host c.emulated es c.fresh s
  have hall : delivered host c.emulated es c.fresh s = es := by
    apply delivered_eq
    intro err
    rw [hd]
    intro h
    cases h
  rw [hall, hd] at hfold
  exact (foldl_fanOut_eq_fresh_iff he).mp hfold.symm

/-- **A run only passes over idle waits.** -/
theorem PassesOver.idle (he : c.registry.Enrolled keys) {timeout : Timeout} {start : Duration}
    {limit next : Option Duration} {xs : List TimedWait} {s s' : σ}
    (h : PassesOver host c.emulated timeout start c.fresh limit xs next s s') :
    ∀ x ∈ xs, c.registry.Idle x.answer := by
  induction h with
  | nil limit s => exact fun x hx => absurd hx List.not_mem_nil
  | interrupted _ hk _ _ ih => exact List.forall_mem_cons.mpr ⟨hk, ih⟩
  | quiet _ _ hd _ _ ih => exact List.forall_mem_cons.mpr ⟨ignores_of_deliver_eq he hd, ih⟩

/-! ### The wait that matters -/

/-- The records an iteration has made when its run ends are the deposits of the run. -/
theorem records_eq_deposits (he : c.registry.Enrolled keys) {wakeFd : Fd} {timeout : Timeout}
    {s s₀ : σ} (hgo : c.prepared wakeFd timeout s = (false, s₀)) {waits : Nat}
    {r : Except Error Unit × Delivery × σ}
    (hr : collect host c.emulated timeout (host.now s₀) waits timeout.limit c.fresh s₀ = some r) :
    r.2.1.buffer.records = (c.deposits host wakeFd timeout waits s).map Prod.snd := by
  have hoff := offered_of_not_calledOff host (congrArg Prod.fst hgo) waits
  rw [hgo] at hoff
  have hfollows := Delivery.follows_foldl_fanOut he c.buffer (c.offered host wakeFd timeout waits s)
  rw [collect_collected hr, ← hoff, deposits_eq host he]
  exact hfollows.records_eq

/-- What an iteration is finished with, and what is left of the buffer, does not depend on the
    host. -/
theorem finish_congr (host host' : Host σ) (c : Collector σ) (wokeFd : Fd)
    (answer : Except Error Unit) (s s' : σ) :
    (finish host' c wokeFd answer s').answer = (finish host c wokeFd answer s).answer ∧
      (finish host' c wokeFd answer s').collector = (finish host c wokeFd answer s).collector := by
  cases answer with
  | error e => exact ⟨rfl, rfl⟩
  | ok u => exact ⟨rfl, rfl⟩

/-- How a blocking run that deposits `F` and answers `answer` ends with the answer of a wait, which
    leads to `s`: the wait failed, its events made a record or overflowed the buffer, or the poller
    refused a registration when they were delivered. -/
inductive EndsOn (host : Host σ) (c : Collector σ) (F : List (Nat × Record))
    (answer : Except Error Nat) : Except SystemError (List Event) → σ → Prop where
  | failed {e : SystemError} {s : σ} (hk : e.kind ≠ .interrupted) (ha : answer = .error (.io e)) :
      EndsOn host c F answer (.error e) s
  | reported {es : List Event} {s : σ} (hes : ¬ c.registry.Ignores es) (hF : F ≠ []) :
      EndsOn host c F answer (.ok es) s
  | overflowed {es : List Event} {s : σ} {x : Overflow} (hes : ¬ c.registry.Ignores es)
      (ha : answer = .error (.bufferFull x)) : EndsOn host c F answer (.ok es) s
  | refused {es : List Event} {s : σ} {err : SystemError}
      (hd : (deliver host c.emulated es c.fresh s).1 = .error (.io err))
      (ha : answer = .error (.io err)) : EndsOn host c F answer (.ok es) s

/-- Only a report lets a run end well, so something was deposited. -/
theorem EndsOn.ne_nil {F : List (Nat × Record)} {n : Nat}
    {answer : Except SystemError (List Event)} {s : σ} (h : EndsOn host c F (.ok n) answer s) :
    F ≠ [] := by
  cases h with
  | failed _ ha => cases ha
  | reported _ hF => exact hF
  | overflowed _ ha => cases ha
  | refused _ ha => cases ha

/-- A delivery that was not refused anything, and did something, was not of ignored events. -/
theorem not_ignores_of_delivers (he : c.registry.Enrolled keys) {es : List Event} {d : Delivery}
    {s s' : σ} (h : Delivers host c.emulated es c.fresh s d s') (hne : d ≠ c.fresh) :
    ¬ c.registry.Ignores es := by
  intro hes
  rw [h.eq_foldl, (foldl_fanOut_eq_fresh_iff he).mpr hes] at hne
  exact hne rfl

/-- A wait that ends a blocking iteration ends its run in one of these ways. -/
theorem Ends.endsOn (he : c.registry.Enrolled keys) {start : Duration}
    {answer : Except SystemError (List Event)} {s' : σ} {r : Except Error Unit × Delivery × σ}
    (h : Ends host c.emulated .block start c.fresh answer s' r) {F : List (Nat × Record)}
    (hF : r.2.1.buffer.records = F.map Prod.snd) (wokeFd : Fd) (s : σ) :
    EndsOn host c F (finish host { c with registry := r.2.1.registry, buffer := r.2.1.buffer } wokeFd
      r.1 s).answer answer s' := by
  cases h with
  | timeUp _ hup => cases hup
  | failed hk => exact .failed hk rfl
  | broken hd =>
    rcases deliver_cases host c.emulated _ c.fresh s' with ⟨d, s₂, hall, heq⟩ |
      ⟨_, _, _, _, _, _, err, _, -, -, -, -, heq⟩
    · -- Nothing was refused, so there was an overflow.
      rw [heq] at hd
      obtain ⟨hresult, hd⟩ := Prod.mk.inj hd
      unfold Delivery.result at hresult
      cases ho : d.overflow with
      | none =>
        rw [ho] at hresult
        cases hresult
      | some x =>
        rw [ho] at hresult
        cases hresult
        refine .overflowed (not_ignores_of_delivers he hall fun hsame => ?_) rfl
        rw [hsame] at ho
        cases ho
    · rw [heq] at hd
      cases hd
      exact .refused (by rw [heq]) rfl
  | delivered hd hb =>
    rcases deliver_cases host c.emulated _ c.fresh s' with ⟨d, s₂, hall, heq⟩ |
      ⟨_, _, _, _, _, _, err, _, -, -, -, -, heq⟩
    · rw [heq] at hd
      obtain ⟨rfl, -⟩ := Prod.mk.inj (Prod.mk.inj hd).2
      have hrecords : d.buffer.records ≠ [] :=
        fun hnil => hb ⟨rfl, List.isEmpty_iff.mpr hnil⟩
      refine .reported (not_ignores_of_delivers he hall fun hsame => ?_) fun hnil => ?_
      · rw [hsame] at hrecords
        exact hrecords rfl
      · rw [hnil] at hF
        exact hrecords hF
    · rw [heq] at hd
      cases hd

/-- A run that ends well and reports nothing deposited nothing, or only for the wake descriptor. -/
theorem fd_eq_of_finish_eq_zero {F : List (Nat × Record)} (hF : c.buffer.records = F.map Prod.snd)
    {answer : Except Error Unit} {wokeFd : Fd} {s : σ}
    (hzero : (finish host c wokeFd answer s).answer = .ok 0) : ∀ x ∈ F, x.2.fd = wokeFd := by
  intro x hx
  cases answer with
  | error e => cases hzero
  | ok u =>
    have hsize : (c.buffer.records.filter fun r => r.fd ≠ wokeFd).length = 0 := Except.ok.inj hzero
    rw [hF, List.length_eq_zero_iff, List.filter_eq_nil_iff] at hsize
    simpa using hsize x.2 (List.mem_map_of_mem hx)

end Collector

/-! ### Every history -/

/-- **A blocking run is one iteration on the first wait that matters.**  After any history, a blocking
    run that is not called off passes over idle waits without a limit.  If it has a wait left then,
    it ends with that: the wait failed, its events made a record or an overflow, or the poller refused
    a registration.  The answer and the collector are those of a run that only polls and is given just
    the answer of this wait.  So the run reports nothing only if all it deposited was for the wake
    descriptor. -/
theorem History.blocks_until_productive {allowed : Action σ → σ → σ → Prop}
    {acts : List (Action σ)} {c : Collector σ} {s : σ} (h : History host allowed acts c s)
    {wakeFd : Fd} (wokeFd : Fd) {s₀ : σ} (hgo : c.prepared wakeFd .block s = (false, s₀))
    (waits : Nat) :
    ∃ xs s₁,
      Collector.PassesOver host c.emulated .block (host.now s₀) c.fresh none xs none s₀ s₁ ∧
      (∀ x ∈ xs, x.limit = none ∧ c.registry.Idle x.answer) ∧
      ((xs.length = waits ∧ c.run host wakeFd wokeFd .block waits s = none) ∨
        ∃ answer s₂ o o', xs.length < waits ∧ host.wait none s₁ = (answer, s₂) ∧
          c.run host wakeFd wokeFd .block waits s = some o ∧
          Collector.EndsOn host c (c.deposits host wakeFd .block waits s) o.answer answer s₂ ∧
          c.run (host.answering answer s₂) wakeFd wokeFd .poll 1 s = some o' ∧
          o'.answer = o.answer ∧ o'.collector = o.collector ∧
          (o.answer = .ok 0 → c.deposits host wakeFd .block waits s ≠ [] ∧
            ∀ x ∈ c.deposits host wakeFd .block waits s, x.2.fd = wokeFd)) := by
  have he := h.enrolled
  obtain ⟨xs, next, s₁, hpass, hend⟩ :=
    Collector.collect_waits host c.emulated .block (host.now s₀) waits none c.fresh s₀
  obtain ⟨rfl, hnone⟩ := hpass.of_block rfl
  refine ⟨xs, s₁, hpass, fun x hx => ⟨hnone x hx, hpass.idle he x hx⟩, ?_⟩
  rw [Collector.run_of_not_calledOff (congrArg Prod.fst hgo), hgo]
  rcases hend with ⟨hlen, hout⟩ | ⟨answer, s₂, r, hlen, hw, hends, hr⟩
  · exact Or.inl ⟨hlen, congrArg (Option.map _) hout⟩
  have hF := Collector.records_eq_deposits he hgo hr
  have hint : ¬ WasInterrupted answer := by
    rintro ⟨e, rfl, hk⟩
    cases hends with
    | timeUp _ hup => cases hup
    | failed hk' => exact hk' hk
  have hpolls : Timeout.poll = .block → Timeout.block = .block := fun _ => rfl
  have hpoll := hends.collect_answering hint hpolls (host.now s) Timeout.poll.limit s
  have hpolled : (c.prepared wakeFd .poll s).1 = false := rfl
  have hfinish := Collector.finish_congr host (host.answering answer s₂)
    { c with registry := r.2.1.registry, buffer := r.2.1.buffer } wokeFd r.1
    (c.hook.waitFinished r.2.2) r.2.2
  have hends' := hends.endsOn he hF wokeFd (c.hook.waitFinished r.2.2)
  refine Or.inr ⟨answer, s₂, _, _, hlen, hw, congrArg (Option.map _) hr, hends',
    (Collector.run_of_not_calledOff hpolled wokeFd 1).trans (congrArg (Option.map _) hpoll),
    hfinish.1, hfinish.2, fun hzero => ⟨?_, ?_⟩⟩
  · exact (hzero ▸ hends').ne_nil
  · exact Collector.fd_eq_of_finish_eq_zero
      (c := { c with registry := r.2.1.registry, buffer := r.2.1.buffer }) hF hzero

open Scenario in
/-- The first wait is interrupted, the second reports a descriptor that nobody watches, and the third
    the wake descriptor.  The run reports nothing, and has heard the wake. -/
theorem blocks_until_wake :
    ∃ (c : Collector World) (s s₂ : World) (answer : Except SystemError (List Event))
      (o o' : Outcome World Nat),
      History (World.host 0) anything [.add 8 .read (.ok ⟨0, 0⟩)] c s ∧
      c.run (World.host 0) 7 8 .block 3 s = some o ∧ o.answer = .ok 0 ∧
      c.deposits (World.host 0) 7 .block 3 s ≠ [] ∧
      (∀ x ∈ c.deposits (World.host 0) 7 .block 3 s, x.2.fd = 8) ∧
      c.run ((World.host 0).answering answer s₂) 7 8 .poll 1 s = some o' ∧
      o'.answer = .ok 0 ∧ o'.collector = o.collector := by
  have h₀ : History (World.host 0) anything [] _ _ :=
    .create (show Collector.create (World.host 0) (Buffer.ofCapacity 4) default
      { Session.scripted.world with
        pollers := .scripted
          { Poller.Script.empty with
            waits := [.failure 4 0, .events [⟨6, true, false, false, none⟩],
              .events [⟨8, true, false, false, none⟩]] } } = (.ok _, _) from rfl)
  have h₁ := h₀.step (.add 8 .read _ _) trivial
  obtain ⟨c, s, o, h, hgo, ho, hzero⟩ :
      ∃ (c : Collector World) (s : World) (o : Outcome World Nat),
        History (World.host 0) anything [.add 8 .read (.ok ⟨0, 0⟩)] c s ∧
        c.prepared 7 .block s = (false, s) ∧ c.run (World.host 0) 7 8 .block 3 s = some o ∧
        o.answer = .ok 0 := ⟨_, _, _, h₁, rfl, rfl, rfl⟩
  obtain ⟨xs, s₁, -, -, ⟨-, hnone⟩ | ⟨answer, s₂, p, o', -, -, hp, -, ho', ha, hc, hwake⟩⟩ :=
    h.blocks_until_productive 8 hgo 3
  · rw [ho] at hnone
    cases hnone
  · rw [ho] at hp
    cases hp
    obtain ⟨hne, hfd⟩ := hwake hzero
    exact ⟨c, s, s₂, answer, o, o', h, ho, hzero, hne, hfd, ho', ha.trans hzero, hc⟩

end Readiness
