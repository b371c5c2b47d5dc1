import Readiness.Proofs.Deposits

namespace Readiness

/-!
# The calls of a hook come in pairs

A hook is told before a run waits and after it has waited, so that a scheduler knows whether its thread
sleeps.  Between the two calls lies everything the run has to do with the poller, and nothing gets
past the second one, whatever goes wrong in between.

* `installed? acts` — the hook that is in force after these actions (`History.hook_eq`);
* `Traced.Polling` — only the poller was asked in between.  So it is for an iteration
  (`Collector.collect_polling`), whether its waits fail, its buffer overflows or a registration is
  refused;
* `Collector.trace_finish` — all that is left for the end of a run is to drain the pipe;
* `History.hook_brackets` — the calls of the hook in a run.
-/

variable {σ : Type} {host : Host σ}

/-! ### The hook in force -/

/-- The hook after an action. -/
def Action.install (hook? : Option (WaitHook σ)) : Action σ → Option (WaitHook σ)
  | .setHook hook => some hook
  | _ => hook?

/-- The hook that was set last, if any was. -/
def installed? (acts : List (Action σ)) : Option (WaitHook σ) := acts.foldl Action.install none

theorem installed?_append (acts : List (Action σ)) (a : Action σ) :
    installed? (acts ++ [a]) = a.install (installed? acts) :=
  List.foldl_append

/-- Only setting a hook changes it. -/
theorem Step.hook_eq {a : Action σ} {c c' : Collector σ} {s s' : σ} (hs : Step host a c s c' s')
    {hook? : Option (WaitHook σ)} (h : c.hook = hook?.getD .none) :
    c'.hook = (a.install hook?).getD .none := by
  cases hs with
  | add fd mask =>
    rcases c.add_cases host fd mask s with ⟨e, s', -, ho⟩ | ⟨s', -, ho⟩
    · rw [ho]
      exact h
    · rw [ho]
      exact h
  | remove t =>
    rcases c.remove_cases host t s with ⟨-, ho⟩ | ⟨w, a, s', -, -, ho⟩
    · rw [ho]
      exact h
    · rw [ho]
      exact h
  | resize b => exact h
  | setHook hook => rfl
  | run ho =>
    rw [(Collector.run_firesTo ho).2]
    exact h

/-- **The hook in force** is the one that was set last. -/
theorem History.hook_eq {allowed : Action σ → σ → σ → Prop} {acts : List (Action σ)}
    {c : Collector σ} {s : σ} (h : History host allowed acts c s) :
    c.hook = (installed? acts).getD .none := by
  induction h with
  | create hc => exact (Collector.create_eq hc).2.2
  | step _ hs _ ih =>
    rw [installed?_append]
    exact hs.hook_eq ih

/-! ### Calls -/

/-- Whether an exchange is with a hook. -/
def Exchange.isHookCall : Exchange → Bool
  | .prepare _ _ => true
  | .finished => true
  | _ => false

/-- What is asked of the poller is not asked of a hook. -/
theorem Exchange.isHookCall_of_not_isAside {x : Exchange} (hx : x.isAside = false) :
    x.isHookCall = false := by
  cases x with
  | add fd r answer => rfl
  | modify fd r answer => rfl
  | delete fd answer => rfl
  | wait limit answer => rfl
  | drain fd bytes => rfl
  | prepare wakeFd calledOff => cases hx
  | finished => cases hx

/-- `t'` comes after `t`, and only the poller was asked in between. -/
def Traced.Polling (t t' : Traced σ) : Prop :=
  ∃ xs, t'.trace = t.trace ++ xs ∧ ∀ x ∈ xs, x.isAside = false

namespace Traced.Polling

theorem refl (t : Traced σ) : t.Polling t :=
  ⟨[], (List.append_nil _).symm, fun _ hx => absurd hx List.not_mem_nil⟩

theorem append {t t' t'' : Traced σ} (h : t.Polling t') {x : Exchange}
    (ht : t''.trace = t'.trace ++ [x]) (hx : x.isAside = false) : t.Polling t'' := by
  obtain ⟨xs, ht', hxs⟩ := h
  refine ⟨xs ++ [x], ?_, ?_⟩
  · rw [ht, ht', List.append_assoc]
  · rintro y hy
    rcases List.mem_append.mp hy with hy | hy
    · exact hxs y hy
    · rw [List.mem_singleton.mp hy]
      exact hx

end Traced.Polling

namespace Collector

/-- A delivery asks the poller only, also when it is refused. -/
theorem deliver_polling (host : Host σ) (emulated : Bool) (es : List Event) (d : Delivery)
    {t t' : Traced σ} (h : t.Polling t') :
    t.Polling (deliver host.traced emulated es d t').2.2 := by
  induction es generalizing d t' with
  | nil => exact h
  | cons e es ih =>
    unfold deliver
    dsimp only
    cases Delivery.rearm? emulated d (d.fanOut e) e with
    | none => exact ih (d.fanOut e) h
    | some r =>
      dsimp only
      rcases hm : host.traced.modify e.fd r t' with ⟨err | u, t₁⟩
      · exact h.append (Traced.of_note hm).2 rfl
      · exact ih (d.fanOut e) (h.append (Traced.of_note hm).2 rfl)

/-- **An iteration asks the poller only**, however it ends. -/
theorem collect_polling {emulated : Bool} {timeout : Timeout} {start : Duration} {waits : Nat}
    {limit : Option Duration} {d : Delivery} {t : Traced σ}
    {r : Except Error Unit × Delivery × Traced σ}
    (hr : collect host.traced emulated timeout start waits limit d t = some r) :
    t.Polling r.2.2 :=
  collect_induction (fun _ t' => t.Polling t')
    (fun h hw => h.append (Traced.of_note hw).2 rfl)
    (fun h hw => deliver_polling host emulated _ _ (h.append (Traced.of_note hw).2 rfl)) hr
    (Traced.Polling.refl t)

/-- **The end of a run** drains the pipe or does nothing, and does nothing after a failure. -/
theorem trace_finish (host : Host σ) (c : Collector (Traced σ)) (wokeFd : Fd)
    (answer : Except Error Unit) (t : Traced σ) :
    ∃ drained, (finish host.traced c wokeFd answer t).state.trace = t.trace ++ drained ∧
      (drained = [] ∨ answer = .ok () ∧ ∃ bytes, drained = [.drain wokeFd bytes]) := by
  unfold finish
  cases answer with
  | error e => exact ⟨[], (List.append_nil _).symm, Or.inl rfl⟩
  | ok u =>
    dsimp only
    split
    · exact ⟨[], (List.append_nil _).symm, Or.inl rfl⟩
    · exact ⟨_, (Traced.of_note rfl).2, Or.inr ⟨rfl, _, rfl⟩⟩

end Collector

theorem Timeout.mayBlock_of_ne_poll {timeout : Timeout} (h : timeout ≠ .poll) :
    timeout.mayBlock = true := by
  cases timeout with
  | block => rfl
  | poll => exact absurd rfl h
  | bounded duration => rfl

/-! ### Every history -/

/-- **A run that polls calls no hook.** -/
theorem Collector.run_poll_hookless {c : Collector (Traced σ)} {wakeFd wokeFd : Fd} {waits : Nat}
    {t : Traced σ} {o : Outcome (Traced σ) Nat}
    (ho : c.run host.traced wakeFd wokeFd .poll waits t = some o) :
    ∃ xs, o.state.trace = t.trace ++ xs ∧ ∀ x ∈ xs, x.isHookCall = false := by
  rcases run_cases ho with ⟨hblock, -⟩ | ⟨t₀, t₁, answer, d, rfl, hc, rfl⟩
  · cases hblock
  · obtain ⟨calls, hcalls, hpoller⟩ := collect_polling hc
    obtain ⟨drained, hdrained, hdrain⟩ := trace_finish host
      { c with registry := d.registry, buffer := d.buffer } wokeFd answer t₁
    refine ⟨calls ++ drained, ?_, ?_⟩
    · rw [← List.append_assoc]
      exact hdrained.trans (congrArg (· ++ drained) hcalls)
    · intro x hx
      rcases List.mem_append.mp hx with hx | hx
      · exact Exchange.isHookCall_of_not_isAside (hpoller x hx)
      · rcases hdrain with rfl | ⟨-, bytes, rfl⟩
        · cases hx
        · rw [List.mem_singleton.mp hx]
          rfl

/-- **The hook brackets the iteration.**  Take a run after any history that has set this hook, which
    may answer what it likes, and so may the poller.  A run that polls calls no hook.  Any other run
    calls it first, once, with the wake descriptor of this run.  If the hook calls the run off, that
    was all: the answer is 0, nothing is reported, and the watches are as they were.  If not, the
    iteration follows, that is all waits and all deliveries; then the hook is told that it is over,
    once, whether the iteration went well or not; and only then may the pipe be drained. -/
theorem History.hook_brackets {allowed : Action (Traced σ) → Traced σ → Traced σ → Prop}
    {acts : List (Action (Traced σ))} {c : Collector (Traced σ)} {t : Traced σ}
    (h : History host.traced allowed acts c t) {hook : WaitHook σ}
    (hhook : installed? acts = some hook.traced) (wakeFd wokeFd : Fd) (timeout : Timeout)
    (waits : Nat) :
    (timeout ≠ .poll → (hook.prepareToWait wakeFd t.state).1 = true →
      ∃ o, c.run host.traced wakeFd wokeFd timeout waits t = some o ∧ o.answer = .ok 0 ∧
        o.collector.events = [] ∧ o.collector.registry = c.registry ∧
        o.state.trace = t.trace ++ [.prepare wakeFd true]) ∧
    ∀ {o}, c.run host.traced wakeFd wokeFd timeout waits t = some o →
      (timeout = .poll → ∃ xs, o.state.trace = t.trace ++ xs ∧ ∀ x ∈ xs, x.isHookCall = false) ∧
      (timeout ≠ .poll → (hook.prepareToWait wakeFd t.state).1 = false →
        ∃ t₀ t₁ answer d calls drained, t₀.trace = t.trace ++ [.prepare wakeFd false] ∧
          Collector.collect host.traced c.emulated timeout (host.traced.now t₀) waits timeout.limit
            c.fresh t₀ = some (answer, d, t₁) ∧
          t₁.trace = t₀.trace ++ calls ∧ (∀ x ∈ calls, x.isAside = false) ∧
          o.state.trace = t₁.trace ++ .finished :: drained ∧
          (drained = [] ∨ answer = .ok () ∧ ∃ bytes, drained = [.drain wokeFd bytes]) ∧
          o.collector.registry = d.registry ∧ ∀ e, o.answer = .error e ↔ answer = .error e) := by
  have hc : c.hook = hook.traced := by
    rw [h.hook_eq, hhook]
    rfl
  rcases hprepare : hook.prepareToWait wakeFd t.state with ⟨calledOff, s⟩
  have hcall : c.hook.prepareToWait wakeFd t =
      (calledOff, ⟨s, t.trace ++ [.prepare wakeFd calledOff]⟩) := by
    rw [hc]
    exact Traced.note_eq hprepare
  refine ⟨?_, ?_⟩
  · rintro hpoll (rfl : calledOff = true)
    have hprepared : c.prepared wakeFd timeout t =
        (true, ⟨s, t.trace ++ [.prepare wakeFd true]⟩) := by
      unfold Collector.prepared
      rw [if_pos (Timeout.mayBlock_of_ne_poll hpoll), hcall]
    have hrun : c.run host.traced wakeFd wokeFd timeout waits t = _ :=
      Collector.run_of_calledOff (by rw [hprepared]) wokeFd waits
    rw [hprepared] at hrun
    exact ⟨_, hrun, rfl, Buffer.records_clear _, rfl, rfl⟩
  · intro o ho
    refine ⟨fun hpoll => Collector.run_poll_hookless (hpoll ▸ ho), ?_⟩
    rintro hpoll (rfl : calledOff = false)
    have hblock := Timeout.mayBlock_of_ne_poll hpoll
    rcases Collector.run_cases ho with ⟨-, hcalled, -⟩ | ⟨t₀, t₁, answer, d, ht₀, hcollect, rfl⟩
    · rw [hcall] at hcalled
      cases hcalled
    · rw [if_pos hblock, hcall] at ht₀
      obtain ⟨calls, hcalls, hpoller⟩ := Collector.collect_polling hcollect
      obtain ⟨drained, hdrained, hdrain⟩ := Collector.trace_finish host
        { c with registry := d.registry, buffer := d.buffer } wokeFd answer (c.hook.waitFinished t₁)
      obtain ⟨buffer, hb⟩ := Collector.finish_collector host.traced
        { c with registry := d.registry, buffer := d.buffer } wokeFd answer (c.hook.waitFinished t₁)
      have hfinished : (c.hook.waitFinished t₁).trace = t₁.trace ++ [.finished] := by
        rw [hc]
        rfl
      refine ⟨t₀, t₁, answer, d, calls, drained, by rw [ht₀], hcollect, hcalls, hpoller, ?_, hdrain,
        ?_, ?_⟩
      · rw [if_pos hblock, hdrained, hfinished, List.append_assoc]
        rfl
      · rw [if_pos hblock, hb]
      · intro e
        cases answer with
        | error err =>
          show Except.error err = Except.error e ↔ _
          rw [Except.error.injEq, Except.error.injEq]
        | ok u => exact iff_of_false (fun he => nomatch he) (fun he => nomatch he)

open Scenario in
/-- The hook calls the first run off, although it would not wait at all.  In the second run the first
    wait is interrupted, and the event of the other one finds no room.  The run fails, and the hook
    still hears that it is over. -/
theorem hook_brackets_overflow :
    ∃ (c c' : Collector (Traced World)) (t t' : Traced World) (o o' : Outcome (Traced World) Nat),
      History (World.host 0).traced anything
        [.setHook (World.hook 0).traced, .add 5 .read (.ok ⟨0, 0⟩)] c t ∧
      c.run (World.host 0).traced 7 8 (.bounded .zero) 2 t = some o ∧ o.answer = .ok 0 ∧
      o.state.trace = t.trace ++ [.prepare 7 true] ∧
      History (World.host 0).traced anything
        [.setHook (World.hook 0).traced, .add 5 .read (.ok ⟨0, 0⟩),
          .run 7 8 (.bounded .zero) (.ok 0)] c' t' ∧
      c'.run (World.host 0).traced 7 8 .block 2 t' = some o' ∧
      o'.answer = .error (.bufferFull ⟨5, 0⟩) ∧
      ∃ calls, calls.length = 3 ∧ (∀ x ∈ calls, x.isAside = false) ∧
        o'.state.trace = t'.trace ++ .prepare 7 false :: calls ++ [.finished] := by
  have h₀ : History (World.host 0).traced anything [] _ _ :=
    .create (show Collector.create (World.host 0).traced (Buffer.ofCapacity 0) default
      ⟨{ Session.scripted.world with
        pollers := .scripted
          { Poller.Script.empty with
            waits := [.failure 4 0, .events [⟨5, true, false, false, none⟩]] }
        hooks := (∅ : OrderedMap Int HookScript).insert 0 ⟨[true], false⟩ }, []⟩ = (.ok _, _) from rfl)
  have h₁ := h₀.step (.setHook (World.hook 0).traced _ _) trivial
  have h₂ := h₁.step (.add 5 .read _ _) trivial
  obtain ⟨o, ho, hanswer, -, -, htrace⟩ :=
    (h₂.hook_brackets rfl 7 8 (.bounded .zero) 2).1 (by decide) rfl
  have h₃ := h₂.step
    (.run (show Collector.run _ _ 7 8 (.bounded .zero) 2 _ = some _ from rfl)) trivial
  obtain ⟨c', t', o', h₃', ho', hanswer', hasked, hlength⟩ :
      ∃ c' t' o', History (World.host 0).traced anything _ c' t' ∧
        c'.run (World.host 0).traced 7 8 .block 2 t' = some o' ∧
        o'.answer = .error (.bufferFull ⟨5, 0⟩) ∧
        ((World.hook 0).prepareToWait 7 t'.state).1 = false ∧
        o'.state.trace.length = t'.trace.length + 5 := ⟨_, _, _, h₃, rfl, rfl, rfl, rfl⟩
  obtain ⟨t₀, t₁, answer, d, calls, drained, ht₀, -, ht₁, hpoller, hfinished, hdrain, -, herror⟩ :=
    ((h₃'.hook_brackets rfl 7 8 .block 2).2 ho').2 (by decide) hasked
  -- A run that failed does not drain the pipe.
  have hfailed := (herror _).mp hanswer'
  have hnone : drained = [] := by
    refine hdrain.resolve_right fun hok => ?_
    rw [hfailed] at hok
    cases hok.1
  have hwhole : o'.state.trace = t'.trace ++ .prepare 7 false :: calls ++ [.finished] := by
    rw [hfinished, ht₁, ht₀, hnone, List.append_assoc t'.trace]
    rfl
  refine ⟨_, c', _, t', o, o', h₂, ho, hanswer, htrace, h₃', ho', hanswer', calls, ?_, hpoller,
    hwhole⟩
  rw [hwhole, List.length_append, List.length_append, List.length_cons, List.length_singleton]
    at hlength
  omega

end Readiness
