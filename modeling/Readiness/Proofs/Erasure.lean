import Readiness.Proofs.Trace

namespace Readiness

/-!
# Hosts that carry more state

A host can carry state that no answer depends on, as the traced host carries its trace.  A collector
does not notice, so what is shown of histories with a trace holds of every history.

* `Host.Over f host' host` — every call on `host'` is the call on `host`, once `f` has forgotten the
  rest of the state (`Host.traced_over`);
* `WaitHook.Over` / `Collector.Over` / `Outcome.Over` — the same for hooks, collectors and outcomes;
* `Collector.deliver_of_accepted` — what is accepted with a trace is accepted without one;
* `Collector.Over.add` and so on — the operations agree.  `Collector.collect_over` is the one with an
  induction, over the waits of an iteration;
* `History.exists_traced` — every history is what is left of a history with a trace.
-/

variable {σ τ : Type}

/-! ### Hosts, hooks and collectors -/

/-- Every call on `host'` is the call on `host`, as far as `f` shows the state. -/
structure Host.Over (f : τ → σ) (host' : Host τ) (host : Host σ) : Prop where
  openPoller : ∀ s, host.openPoller (f s) = (host'.openPoller s).map id f
  add : ∀ fd r s, host.add fd r (f s) = (host'.add fd r s).map id f
  modify : ∀ fd r s, host.modify fd r (f s) = (host'.modify fd r s).map id f
  delete : ∀ fd s, host.delete fd (f s) = (host'.delete fd s).map id f
  wait : ∀ limit s, host.wait limit (f s) = (host'.wait limit s).map id f
  now : ∀ s, host.now (f s) = host'.now s
  drain : ∀ fd s, host.drain fd (f s) = (host'.drain fd s).map id f
  log : ∀ e s, host.log e (f s) = f (host'.log e s)

/-- Every call of `hook'` is the call of `hook`, as far as `f` shows the state. -/
structure WaitHook.Over (f : τ → σ) (hook' : WaitHook τ) (hook : WaitHook σ) : Prop where
  prepareToWait : ∀ fd s, hook.prepareToWait fd (f s) = (hook'.prepareToWait fd s).map id f
  waitFinished : ∀ s, hook.waitFinished (f s) = f (hook'.waitFinished s)

/-- The collectors differ at most in their hooks, which agree. -/
structure Collector.Over (f : τ → σ) (c' : Collector τ) (c : Collector σ) : Prop where
  registry_eq : c'.registry = c.registry
  buffer_eq : c'.buffer = c.buffer
  emulated_eq : c'.emulated = c.emulated
  timeUnit_eq : c'.timeUnit = c.timeUnit
  hook : c'.hook.Over f c.hook

/-- The outcomes have the same answer, and agree in what they leave behind. -/
structure Outcome.Over {α : Type} (f : τ → σ) (o' : Outcome τ α) (o : Outcome σ α) : Prop where
  answer_eq : o'.answer = o.answer
  collector : o'.collector.Over f o.collector
  state_eq : f o'.state = o.state

/-- A hook without callbacks lies over one without. -/
theorem WaitHook.none_over (f : τ → σ) : (WaitHook.none : WaitHook τ).Over f .none where
  prepareToWait := fun _ _ => rfl
  waitFinished := fun _ => rfl

/-- **The traced host** lies over the host. -/
theorem Host.traced_over (host : Host σ) : host.traced.Over Traced.state host where
  openPoller := fun _ => rfl
  add := fun _ _ _ => rfl
  modify := fun _ _ _ => rfl
  delete := fun _ _ => rfl
  wait := fun _ _ => rfl
  now := fun _ => rfl
  drain := fun _ _ => rfl
  log := fun _ _ => rfl

/-- A traced hook lies over the hook. -/
theorem WaitHook.traced_over (hook : WaitHook σ) : hook.traced.Over Traced.state hook where
  prepareToWait := fun _ _ => rfl
  waitFinished := fun _ => rfl

namespace Collector

variable {f : τ → σ} {host' : Host τ} {host : Host σ}

/-! ### Iterations -/

/-- A delivery on `host'` is the delivery on `host`. -/
theorem deliver_over (h : host'.Over f host) (emulated : Bool) (es : List Event) (d : Delivery)
    (s : τ) :
    deliver host emulated es d (f s) = (deliver host' emulated es d s).map id (Prod.map id f) := by
  induction es generalizing d s with
  | nil => rfl
  | cons e es ih =>
    unfold deliver
    dsimp only
    cases Delivery.rearm? emulated d (d.fanOut e) e with
    | none => exact ih (d.fanOut e) s
    | some r =>
      dsimp only
      rw [h.modify]
      rcases host'.modify e.fd r s with ⟨err | u, s'⟩
      · rfl
      · exact ih (d.fanOut e) s'

/-- **A delivery whose calls are accepted** when they are written down offers every event, in order,
    and ends as the offers say. -/
theorem deliver_of_accepted (host : Host σ) (emulated : Bool) (es : List Event) (d : Delivery)
    (t : Traced σ) {n : Nat} (hn : n ≤ t.trace.length)
    (h : (deliver host.traced emulated es d t).2.2.AcceptedSince n) :
    ∃ s, deliver host emulated es d t.state =
      ((es.foldl Delivery.fanOut d).result, es.foldl Delivery.fanOut d, s) := by
  obtain ⟨d', t', hall, heq⟩ := delivers_of_accepted hn h
  refine ⟨t'.state, ?_⟩
  rw [deliver_over host.traced_over, heq, hall.eq_foldl]
  rfl

/-- **An iteration** on `host'` is the iteration on `host`, wait by wait. -/
theorem collect_over (h : host'.Over f host) (emulated : Bool) (timeout : Timeout)
    (start : Duration) (waits : Nat) (limit : Option Duration) (d : Delivery) (s : τ) :
    collect host emulated timeout start waits limit d (f s) =
      (collect host' emulated timeout start waits limit d s).map
        (Prod.map id (Prod.map id f)) := by
  induction waits generalizing limit d s with
  | zero => rfl
  | succ n ih =>
    unfold collect
    rw [h.wait]
    rcases host'.wait limit s with ⟨err | es, s'⟩
    · -- The wait failed; only an interruption goes on.
      dsimp only [Prod.map, id]
      rw [h.now]
      split
      · cases timeout.limitAfter (host'.now s' - start) with
        | none => rfl
        | some left => exact ih left d s'
      · rfl
    · -- The wait gave events; only a blocking run without records goes on.
      dsimp only [Prod.map, id]
      rw [deliver_over h]
      rcases deliver host' emulated es d s' with ⟨err | u, d', s₂⟩
      · rfl
      · dsimp only [Prod.map, id]
        split
        · exact ih limit d' s₂
        · rfl

/-! ### Operations -/

/-- Opening a poller on `host'` is opening one on `host`. -/
theorem exists_create_over (h : host'.Over f host) {buffer : Buffer} {timeUnit : TimeUnit} {s : τ}
    {s₁ : σ} {c : Collector σ} (hc : create host buffer timeUnit (f s) = (.ok c, s₁)) :
    ∃ c' s', create host' buffer timeUnit s = (.ok c', s') ∧ c'.Over f c ∧ f s' = s₁ := by
  unfold create at hc ⊢
  rw [h.openPoller] at hc
  rcases hopen : host'.openPoller s with ⟨err | hasLevel, s'⟩
  · rw [hopen] at hc
    cases hc
  · rw [hopen] at hc
    cases hc
    refine ⟨_, _, rfl, ⟨rfl, rfl, rfl, rfl, WaitHook.none_over f⟩, ?_⟩
    cases hasLevel with
    | true => exact (h.log _ _).symm
    | false =>
      show f (host'.log _ (host'.log _ s')) = host.log _ (host.log _ (f s'))
      rw [h.log, h.log]

namespace Over

variable {c' : Collector τ} {c : Collector σ}

/-- The collectors ask for the same registrations. -/
theorem registrationOf_eq (hc : c'.Over f c) (r : Registry) (fd : Fd) :
    c'.registrationOf r fd = c.registrationOf r fd := by
  unfold registrationOf
  rw [hc.emulated_eq]

/-- Additions agree. -/
theorem add (hc : c'.Over f c) (h : host'.Over f host) (fd : Fd) (mask : Mask) (s : τ) :
    (c'.add host' fd mask s).Over f (c.add host fd mask (f s)) := by
  unfold Collector.add
  dsimp only
  rw [hc.registrationOf_eq, hc.registry_eq]
  have hcall : ∀ r, (if ((c.registry.insert fd mask).chain fd).length = 1 then host.add
      else host.modify) fd r (f s) =
        ((if ((c.registry.insert fd mask).chain fd).length = 1 then host'.add
          else host'.modify) fd r s).map id f := by
    intro r
    split
    · exact h.add fd r s
    · exact h.modify fd r s
  rw [hcall]
  rcases (if ((c.registry.insert fd mask).chain fd).length = 1 then host'.add
    else host'.modify) fd _ s with ⟨err | u, s'⟩
  · exact ⟨rfl, ⟨rfl, hc.buffer_eq, hc.emulated_eq, hc.timeUnit_eq, hc.hook⟩, rfl⟩
  · exact ⟨rfl, ⟨rfl, hc.buffer_eq, hc.emulated_eq, hc.timeUnit_eq, hc.hook⟩, (h.log _ _).symm⟩

/-- Removals agree. -/
theorem remove (hc : c'.Over f c) (h : host'.Over f host) (t : Token) (s : τ) :
    (c'.remove host' t s).Over f (c.remove host t (f s)) := by
  unfold Collector.remove
  rw [hc.registry_eq]
  cases c.registry.find? t with
  | none => exact ⟨rfl, hc, rfl⟩
  | some w =>
    dsimp only
    rw [hc.registrationOf_eq, h.log]
    split
    · rw [h.delete]
      exact ⟨rfl, ⟨rfl, hc.buffer_eq, hc.emulated_eq, hc.timeUnit_eq, hc.hook⟩, rfl⟩
    · rw [h.modify]
      exact ⟨rfl, ⟨rfl, hc.buffer_eq, hc.emulated_eq, hc.timeUnit_eq, hc.hook⟩, rfl⟩

/-- Exchanges of the buffer agree. -/
theorem resize (hc : c'.Over f c) (h : host'.Over f host) (b : Buffer) (s : τ) :
    (c'.resize host' b s).Over f (c.resize host b (f s)) := by
  unfold Collector.resize
  rw [hc.buffer_eq, h.log]
  exact ⟨rfl, ⟨hc.registry_eq, rfl, hc.emulated_eq, hc.timeUnit_eq, hc.hook⟩, rfl⟩

/-- The ends of iterations agree. -/
theorem finish (hc : c'.Over f c) (h : host'.Over f host) (wokeFd : Fd)
    (answer : Except Error Unit) (s : τ) :
    (Collector.finish host' c' wokeFd answer s).Over f
      (Collector.finish host c wokeFd answer (f s)) := by
  cases answer with
  | error e => exact ⟨rfl, hc, rfl⟩
  | ok u =>
    rcases hdrain : host'.drain wokeFd s with ⟨bytes, s'⟩
    have hdrain' : host.drain wokeFd (f s) = (bytes, f s') := by
      rw [h.drain, hdrain]
      rfl
    unfold Collector.finish
    rw [hdrain, hdrain', hc.buffer_eq]
    refine ⟨rfl, ⟨hc.registry_eq, rfl, hc.emulated_eq, hc.timeUnit_eq, hc.hook⟩, ?_⟩
    dsimp only
    rw [← h.log]
    split
    · rfl
    · rw [← h.log]

/-- **A run** on `host` is one on `host'`. -/
theorem exists_run (hc : c'.Over f c) (h : host'.Over f host) {wakeFd wokeFd : Fd}
    {timeout : Timeout} {waits : Nat} {s : τ} {o : Outcome σ Nat}
    (ho : c.run host wakeFd wokeFd timeout waits (f s) = some o) :
    ∃ o', c'.run host' wakeFd wokeFd timeout waits s = some o' ∧ o'.Over f o := by
  have hleft : ∀ r b, ({ c' with registry := r, buffer := b, emulated := c.emulated }).Over f
      { c with registry := r, buffer := b } :=
    fun _ _ => ⟨rfl, rfl, rfl, hc.timeUnit_eq, hc.hook⟩
  unfold run at ho ⊢
  dsimp only at ho ⊢
  rw [hc.buffer_eq, hc.emulated_eq, hc.registry_eq]
  by_cases hb : timeout.mayBlock = true
  · rw [if_pos hb] at ho ⊢
    rw [hc.hook.prepareToWait] at ho
    rcases hhook : c'.hook.prepareToWait wakeFd s with ⟨calledOff, s₁⟩
    rw [hhook] at ho
    cases calledOff with
    | true =>
      cases ho
      exact ⟨_, rfl, rfl, hleft _ _, (h.log _ _).symm⟩
    | false =>
      dsimp only [Prod.map, id] at ho ⊢
      rw [h.now, collect_over h, Option.map_map] at ho
      obtain ⟨⟨answer, d, s₂⟩, hcollect, rfl⟩ := Option.map_eq_some_iff.mp ho
      rw [hcollect]
      refine ⟨_, rfl, ?_⟩
      dsimp only [Function.comp, Prod.map, id]
      rw [hc.hook.waitFinished]
      exact (hleft _ _).finish h wokeFd answer _
  · rw [if_neg hb] at ho ⊢
    rw [h.now, collect_over h, Option.map_map] at ho
    obtain ⟨⟨answer, d, s₂⟩, hcollect, rfl⟩ := Option.map_eq_some_iff.mp ho
    rw [hcollect]
    exact ⟨_, rfl, (hleft d.registry d.buffer).finish h wokeFd answer s₂⟩

end Over

end Collector

/-! ### Every history -/

/-- An action on the traced host, which keeps the calls of its hooks in the trace. -/
def Action.traced : Action σ → Action (Traced σ)
  | .add fd mask answer => .add fd mask answer
  | .remove token answer => .remove token answer
  | .resize buffer => .resize buffer
  | .setHook hook => .setHook hook.traced
  | .run wakeFd wokeFd timeout answer => .run wakeFd wokeFd timeout answer

/-- Every step is what is left of a step with a trace. -/
theorem Step.exists_traced {host : Host σ} {a : Action σ} {c c₁ : Collector σ} {s s₁ : σ}
    (hs : Step host a c s c₁ s₁) {c' : Collector (Traced σ)} {t : Traced σ}
    (hc : c'.Over Traced.state c) (ht : t.state = s) :
    ∃ c₁' t₁, Step host.traced a.traced c' t c₁' t₁ ∧ c₁'.Over Traced.state c₁ ∧
      t₁.state = s₁ := by
  subst ht
  have h := host.traced_over
  cases hs with
  | add fd mask =>
    have ho := hc.add h fd mask t
    have hstep : Step host.traced _ c' t _ _ := .add fd mask c' t
    rw [ho.answer_eq] at hstep
    exact ⟨_, _, hstep, ho.collector, ho.state_eq⟩
  | remove token =>
    have ho := hc.remove h token t
    have hstep : Step host.traced _ c' t _ _ := .remove token c' t
    rw [ho.answer_eq] at hstep
    exact ⟨_, _, hstep, ho.collector, ho.state_eq⟩
  | resize b =>
    have ho := hc.resize h b t
    exact ⟨_, _, .resize b c' t, ho.collector, ho.state_eq⟩
  | setHook hook =>
    exact ⟨_, _, .setHook hook.traced c' t, ⟨hc.registry_eq, hc.buffer_eq, hc.emulated_eq,
      hc.timeUnit_eq, hook.traced_over⟩, rfl⟩
  | run hrun =>
    obtain ⟨o', hrun', ho⟩ := hc.exists_run h hrun
    have hstep := Step.run hrun'
    rw [ho.answer_eq] at hstep
    exact ⟨_, _, hstep, ho.collector, ho.state_eq⟩

/-- **Every history is what is left of a history with a trace.**  Its actions are the same, with the
    same answers, its collector has the same watches and the same buffer, and the host is in the same
    state. -/
theorem History.exists_traced {host : Host σ} {allowed : Action σ → σ → σ → Prop}
    {acts : List (Action σ)} {c : Collector σ} {s : σ} (h : History host allowed acts c s) :
    ∃ c' t, History host.traced anything (acts.map Action.traced) c' t ∧
      c'.Over Traced.state c ∧ t.state = s := by
  induction h with
  | create hc =>
    rename_i s₀ _ _
    obtain ⟨c', t, hc', hover, ht⟩ :=
      Collector.exists_create_over (s := ⟨s₀, []⟩) host.traced_over hc
    exact ⟨c', t, .create hc', hover, ht⟩
  | step _ hs _ ih =>
    obtain ⟨c', t, hist, hover, ht⟩ := ih
    obtain ⟨c₁', t₁, hstep, hover₁, ht₁⟩ := hs.exists_traced hover ht
    refine ⟨c₁', t₁, ?_, hover₁, ht₁⟩
    rw [List.map_append]
    exact hist.step hstep trivial

end Readiness
