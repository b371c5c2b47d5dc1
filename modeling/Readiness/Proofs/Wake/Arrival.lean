import Readiness.Proofs.Poller.Attentive
import Readiness.Proofs.Poller.Emulation
import Readiness.Proofs.Poller.Rearming

namespace Readiness

/-!
# Wakes arrive

A run that waits with bytes in the wake pipe does not wait for anything else.

* `Collector.collect_until` — an iteration whose events are always for somebody ends with the first
  wait that succeeds, and before that it only goes on after interrupted waits;
* `Outcome.Heeds` — the run has heard the wake: it emptied the pipe, or overflowed and left it be;
* `Outcome.Keeps` — no wait of the run succeeded, and the bytes are still in the pipe;
* `Wake.arrives` — it is always one of the two, with level mode or without it.
-/

variable {σ : Type} {host : Host σ}

/-! ### Iterations that end with the first events -/

namespace Collector

/-- The first `waits` waits of an iteration are interrupted, each before the time is up. -/
def Interrupted (host : Host σ) (timeout : Timeout) (start : Duration) :
    (waits : Nat) → Option Duration → σ → Prop
  | 0, _, _ => True
  | waits + 1, limit, s =>
    ∃ err s' limit', host.wait limit s = (.error err, s') ∧ err.kind = .interrupted ∧
      timeout.limitAfter (host.now s' - start) = some limit' ∧
      Interrupted host timeout start waits limit' s'

/-- **An iteration in which events always make a record or an overflow** ends with its first events,
    or before, when a wait fails or the time is up.  It only comes to no end if all its waits are
    interrupted.  `P` is what failing waits keep. -/
theorem collect_until {emulated : Bool} {timeout : Timeout} {start : Duration} {d : Delivery}
    (P : σ → Prop)
    (hfail : ∀ {limit s err s'}, P s → host.wait limit s = (.error err, s') → P s')
    (hends : ∀ {limit s es s₁ d' s'}, P s → host.wait limit s = (.ok es, s₁) →
      deliver host emulated es d s₁ = (.ok (), d', s') → d'.buffer.isEmpty = false)
    (waits : Nat) (limit : Option Duration) {s : σ} (hp : P s) :
    (collect host emulated timeout start waits limit d s = none ∧
      Interrupted host timeout start waits limit s) ∨
    ∃ r, collect host emulated timeout start waits limit d s = some r ∧
      ((r.2.1 = d ∧ P r.2.2 ∧ (r.1 = .ok () ∨ ∃ err, r.1 = .error (.io err))) ∨
        ∃ limit' s₁ es s₂, P s₁ ∧ host.wait limit' s₁ = (.ok es, s₂) ∧
          deliver host emulated es d s₂ = r) := by
  induction waits generalizing limit s with
  | zero => exact Or.inl ⟨rfl, trivial⟩
  | succ n ih =>
    unfold collect
    rcases hw : host.wait limit s with ⟨err | es, s'⟩
    · -- Only an interrupted wait goes on.
      have hp' := hfail hp hw
      dsimp only
      by_cases hk : err.kind = .interrupted
      · rw [if_pos hk]
        cases hl : timeout.limitAfter (host.now s' - start) with
        | none => exact Or.inr ⟨_, rfl, Or.inl ⟨rfl, hp', Or.inl rfl⟩⟩
        | some limit' =>
          rcases ih limit' hp' with ⟨hnone, hint⟩ | h
          · exact Or.inl ⟨hnone, err, s', limit', hw, hk, hl, hint⟩
          · exact Or.inr h
      · rw [if_neg hk]
        exact Or.inr ⟨_, rfl, Or.inl ⟨rfl, hp', Or.inr ⟨err, rfl⟩⟩⟩
    · -- The events end the iteration, for they left something behind.
      refine Or.inr ⟨_, ?_, Or.inr ⟨limit, s, es, s', hp, hw, rfl⟩⟩
      dsimp only
      rcases hd : deliver host emulated es d s' with ⟨err | u, d', s₂⟩
      · rfl
      · dsimp only
        rw [hends hp hw hd, if_neg fun hblock => Bool.false_ne_true hblock.2]

end Collector

/-! ### Waits of a run -/

/-- The answer of a wait. -/
def Exchange.waited? : Exchange → Option (Except SystemError (List Event))
  | .wait _ answer => some answer
  | _ => none

theorem Exchange.waited?_of_isAside (x : Exchange) (hx : x.isAside = true) : x.waited? = none := by
  rcases of_isAside hx with ⟨fd, bytes, rfl⟩ | ⟨wakeFd, calledOff, rfl⟩ | rfl
  · rfl
  · rfl
  · rfl

/-- The run `o` that began in `t`, with `ch` in the pipe before its first wait, has heard the wake.
    Its last wait succeeded and no other.  Either it went well, with the pipe empty and no record of
    its reading end, or it overflowed and left the pipe alone. -/
structure Outcome.Heeds (pipe : σ → Channel) (wokeFd : Fd) (t : Traced σ) (ch : Channel)
    (o : Outcome (Traced σ) Nat) : Prop where
  waits : ∃ failed es, o.state.since t.trace.length Exchange.waited? = failed ++ [.ok es] ∧
    ∀ a ∈ failed, a.isOk = false
  result : (∃ n, o.answer = .ok n ∧ (pipe o.state.state).pending = 0 ∧
      ∀ x ∈ o.collector.events, x.fd ≠ wokeFd) ∨
    (∃ x, o.answer = .error (.bufferFull x) ∧ pipe o.state.state = ch)

/-- No wait of the run `o` succeeded, and the pipe is left alone.  A wait failed, the time was up,
    or the hook called the run off. -/
structure Outcome.Keeps (pipe : σ → Channel) (t : Traced σ) (ch : Channel)
    (o : Outcome (Traced σ) Nat) : Prop where
  waits : ∀ a ∈ o.state.since t.trace.length Exchange.waited?, a.isOk = false
  result : o.answer = .ok 0 ∨ ∃ err, o.answer = .error (.io err)
  pipe_eq : pipe o.state.state = ch

/-- After the first `n` exchanges no wait has succeeded, the pipe is still `ch`, and every
    descriptor has an entry that fits the watches of `c`. -/
structure Traced.Unheard (table : σ → Poller.Table) (pipe : σ → Channel) (c : Collector (Traced σ))
    (n : Nat) (ch : Channel) (t : Traced σ) : Prop where
  length_le : n ≤ t.trace.length
  waits : ∀ a ∈ t.since n Exchange.waited?, a.isOk = false
  pipe_eq : pipe t.state = ch
  serves : (table t.state).Serves c.emulated c.registry []

namespace WaitHook.SendsWakes

variable {table : σ → Poller.Table} {pipe : σ → Channel} {c : Collector (Traced σ)}

/-- Before the waits of a run its hook has sent some wakes at most. -/
theorem prepared (hh : c.hook.SendsWakes (fun t => table t.state) (fun t => pipe t.state))
    (ha : c.hook.Aside) {wakeFd : Fd} {timeout : Timeout} {calledOff : Bool} {t t₀ : Traced σ}
    (hprepared : c.prepared wakeFd timeout t = (calledOff, t₀)) :
    t.Aside t₀ ∧ table t₀.state = table t.state ∧ ∃ n, pipe t₀.state = (pipe t.state).wakes n := by
  have ht₀ : t₀ = (c.prepared wakeFd timeout t).2 := by rw [hprepared]
  rw [ht₀]
  unfold Collector.prepared
  split
  · exact ⟨ha.prepareToWait wakeFd t, hh.table_prepareToWait wakeFd t,
      hh.pipe_prepareToWait wakeFd t⟩
  · exact ⟨Traced.Aside.refl t, rfl, 0, rfl⟩

/-- After them it leaves the pipe alone. -/
theorem finished (hh : c.hook.SendsWakes (fun t => table t.state) (fun t => pipe t.state))
    (timeout : Timeout) (t : Traced σ) :
    pipe (if timeout.mayBlock then c.hook.waitFinished t else t).state = pipe t.state := by
  split
  · exact hh.pipe_waitFinished t
  · rfl

end WaitHook.SendsWakes

namespace Poller.Attentive

variable {ρ : Type} {respond : Response ρ} {ready : σ → Fd → ρ} {table : σ → Table}
  {pipe : σ → Channel} {wokeFd : Fd} {c : Collector (Traced σ)} {n : Nat} {ch : Channel}
  {t t' t₁ t₂ : Traced σ} {roll : List Nat} {timeout : Timeout}

/-- A wait that fails is not heard. -/
theorem unheard_wait_error (h : Attentive respond ready table pipe wokeFd host)
    (hu : t.Unheard table pipe c n ch) {limit : Option Duration} {err : SystemError}
    (hw : host.traced.wait limit t = (.error err, t')) : t'.Unheard table pipe c n ch := by
  obtain ⟨hcall, htrace⟩ := Traced.of_note hw
  obtain ⟨htable, hpipe⟩ := h.wait_error hcall
  refine ⟨?_, ?_, hpipe.trans hu.pipe_eq, htable ▸ hu.serves⟩
  · rw [htrace, List.length_append]
    exact Nat.le_add_right_of_le hu.length_le
  · intro a ha
    rw [Traced.since_append htrace hu.length_le] at ha
    rcases List.mem_append.mp ha with ha | ha
    · exact hu.waits a ha
    · rw [List.mem_singleton.mp ha]
      rfl

/-- **A run without a wait that succeeds** keeps the bytes in the pipe. -/
theorem keeps_of_unheard (h : Attentive respond ready table pipe wokeFd host) (ha : c.hook.Aside)
    (hh : c.hook.SendsWakes (fun t => table t.state) (fun t => pipe t.state))
    (hu : t₁.Unheard table pipe c t.trace.length ch)
    {answer : Except Error Unit} (hanswer : answer = .ok () ∨ ∃ err, answer = .error (.io err)) :
    (Collector.finish host.traced
      { c with registry := c.fresh.registry, buffer := c.fresh.buffer } wokeFd answer
      (if timeout.mayBlock then c.hook.waitFinished t₁ else t₁)).Keeps pipe t ch := by
  refine ⟨?_, ?_, ?_⟩
  · rw [(Collector.finished_aside host ha c.fresh wokeFd timeout answer t₁).since_eq hu.length_le
      Exchange.waited?_of_isAside]
    exact hu.waits
  · rcases hanswer with rfl | ⟨err, rfl⟩
    · exact Or.inl rfl
    · exact Or.inr ⟨err, rfl⟩
  · have hfinish := h.traced.pipe_finish_of_nil
      (c := { c with registry := c.fresh.registry, buffer := c.fresh.buffer }) rfl answer
      (if timeout.mayBlock then c.hook.waitFinished t₁ else t₁)
    rw [hfinish, hh.finished, hu.pipe_eq]

/-- **A run with a wait that succeeds** has heard the wake, if its events make a record for the pipe
    as long as there is room. -/
theorem heeds_of_wait (h : Attentive respond ready table pipe wokeFd host) (ha : c.hook.Aside)
    (hh : c.hook.SendsWakes (fun t => table t.state) (fun t => pipe t.state))
    (he : c.registry.Enrolled roll)
    (hu : t₁.Unheard table pipe c t.trace.length ch) {limit : Option Duration}
    {es : List Event} (hwait : host.traced.wait limit t₁ = (.ok es, t₂))
    (hrecord : (es.foldl Delivery.fanOut c.fresh).result = .ok () →
      ∃ x ∈ (es.foldl Delivery.fanOut c.fresh).buffer.records, x.fd = wokeFd)
    {q : Except Error Unit × Delivery × Traced σ}
    (hq : Collector.deliver host.traced c.emulated es c.fresh t₂ = q) :
    (Collector.finish host.traced { c with registry := q.2.1.registry, buffer := q.2.1.buffer }
      wokeFd q.1 (if timeout.mayBlock then c.hook.waitFinished q.2.2 else q.2.2)).Heeds
        pipe wokeFd t ch := by
  obtain ⟨t₃, hdelivers, heq, -, hpipe⟩ := h.traced.deliver (d := c.fresh) he hu.serves hwait
  rw [heq] at hq
  subst hq
  generalize hd : es.foldl Delivery.fanOut c.fresh = d at hdelivers hrecord
  have htrace := (Traced.of_note hwait).2
  have hlen₂ : t.trace.length ≤ t₂.trace.length := by
    rw [htrace, List.length_append]
    exact Nat.le_add_right_of_le hu.length_le
  have hlen₃ := Nat.le_trans hlen₂ hdelivers.appends.length_le
  refine ⟨⟨t₁.since t.trace.length Exchange.waited?, es, ?_, hu.waits⟩, ?_⟩
  · -- The delivery and what comes after it wait no more.
    have hend := Collector.finished_aside host ha d wokeFd timeout d.result t₃
    rw [hend.since_eq hlen₃ Exchange.waited?_of_isAside, hdelivers.since_eq (fun _ _ => rfl) hlen₂,
      Traced.since_append htrace hu.length_le]
    rfl
  · cases hresult : d.result with
    | ok u =>
      obtain ⟨x, hx, hxfd⟩ := hrecord hresult
      refine Or.inl ⟨_, rfl, ?_, ?_⟩
      · exact h.traced.pipe_finish_of_mem
          (c := { c with registry := d.registry, buffer := d.buffer }) hx hxfd _
      · intro y hy
        exact of_decide_eq_true (List.mem_filter.mp hy).2
    | error e =>
      refine Or.inr ?_
      have hfull : ∃ x, e = .bufferFull x := by
        unfold Delivery.result at hresult
        split at hresult
        · cases hresult
        · cases hresult
          exact ⟨_, rfl⟩
      obtain ⟨x, rfl⟩ := hfull
      refine ⟨x, rfl, ?_⟩
      show pipe (if timeout.mayBlock then c.hook.waitFinished t₃ else t₃).state = ch
      rw [hh.finished, hpipe, hu.pipe_eq]

end Poller.Attentive

/-! ### Every course -/

/-- The courses on which hooks send wakes at most, and between the operations nothing is asked of
    the host and nobody changes the poller. -/
abbrev Wake.Course (table : σ → Poller.Table) (pipe : σ → Channel) (host : Host σ) :
    Collector (Traced σ) → Traced σ → Prop :=
  Readiness.Course host.traced
    (fun hook => hook.Aside ∧ hook.SendsWakes (fun t => table t.state) (fun t => pipe t.state))
    (fun t t' => t'.trace = t.trace ∧ table t'.state = table t.state)

/-- **A wake is never lost.**  Take any course of a collector on a host whose poller does as it is
    told, with level mode or without it: operations in any order, hooks that may send wakes before a
    wait, and between the operations any changes but to the poller, wakes among them.  A watch for
    reading that persists is on the reading end of the wake pipe.  Take any run before whose first
    wait there are bytes in the pipe, or which its hook calls off.  The hook has taken none of them.
    If a wait of the run succeeds, it is the last one, and the run goes well with the pipe empty and
    no record of its reading end, or it overflows.  In every other case, and after an overflow, all
    the bytes are still in the pipe.  A run that comes to no end only makes interrupted waits. -/
theorem Wake.arrives {ρ : Type} {respond : Poller.Response ρ} {ready : σ → Fd → ρ}
    {table : σ → Poller.Table} {pipe : σ → Channel} {wokeFd : Fd}
    (hhost : Poller.Attentive respond ready table pipe wokeFd host) {c : Collector (Traced σ)}
    {t : Traced σ} (h : Wake.Course table pipe host c t) {key : Nat} {w : Watch}
    (hw : c.registry.watch? key = some w) (hfd : w.fd = wokeFd)
    (hread : w.mask.contains .read = true) (hp : w.mask.isPersistent = true) (wakeFd : Fd)
    (timeout : Timeout) (waits : Nat) {calledOff : Bool} {t₀ : Traced σ}
    (hprepared : c.prepared wakeFd timeout t = (calledOff, t₀))
    (hpending : (pipe t₀.state).hasBytes = true ∨ calledOff = true) :
    (pipe t.state).pending ≤ (pipe t₀.state).pending ∧
    ((calledOff = false ∧ c.run host.traced wakeFd wokeFd timeout waits t = none ∧
        Collector.Interrupted host.traced timeout (host.traced.now t₀) waits timeout.limit t₀) ∨
      ∃ o, c.run host.traced wakeFd wokeFd timeout waits t = some o ∧
        (o.Heeds pipe wokeFd t (pipe t₀.state) ∨ o.Keeps pipe t (pipe t₀.state))) := by
  obtain ⟨roll, he⟩ := h.enrolled
  obtain ⟨haside, hwakes⟩ :=
    h.hook_lawful ⟨WaitHook.aside_none, WaitHook.sendsWakes_none _ _⟩
  have hattentive := hhost.traced
  have hserves : (table t.state).Serves c.emulated c.registry [] :=
    hattentive.course_serves (fun hl => hl.2) ⟨WaitHook.aside_none, WaitHook.sendsWakes_none _ _⟩
      (fun hm => hm.2) h
  obtain ⟨hastart, htable₀, n, hwakes₀⟩ := hwakes.prepared haside hprepared
  refine ⟨hwakes₀ ▸ (pipe t.state).pending_le_wakes n, ?_⟩
  have hunheard : t₀.Unheard table pipe c t.trace.length (pipe t₀.state) := by
    refine ⟨hastart.appends.length_le, ?_, rfl, htable₀ ▸ hserves⟩
    rw [hastart.since_eq (Nat.le_refl _) Exchange.waited?_of_isAside, Traced.since_length]
    exact fun a ha => absurd ha List.not_mem_nil
  cases calledOff with
  | true =>
    have hrun : c.run host.traced wakeFd wokeFd timeout waits t = _ :=
      Collector.run_of_calledOff (by rw [hprepared]) wokeFd waits
    rw [hprepared] at hrun
    refine Or.inr ⟨_, hrun, Or.inr ⟨?_, Or.inl rfl, hhost.pipe_log _ _⟩⟩
    exact hunheard.waits
  | false =>
    have hbytes : (pipe t₀.state).hasBytes = true := hpending.resolve_right Bool.false_ne_true
    have hrun : c.run host.traced wakeFd wokeFd timeout waits t = _ :=
      Collector.run_of_not_calledOff (by rw [hprepared]) wokeFd waits
    rw [hprepared] at hrun
    -- Events always come with one for the pipe.
    have hrecord : ∀ {limit t₁ es t₂}, t₁.Unheard table pipe c t.trace.length (pipe t₀.state) →
        host.traced.wait limit t₁ = (.ok es, t₂) →
        (es.foldl Delivery.fanOut c.fresh).result = .ok () →
        ∃ x ∈ (es.foldl Delivery.fanOut c.fresh).buffer.records, x.fd = wokeFd := by
      intro limit t₁ es t₂ hu hwait
      exact hattentive.exists_record he hu.serves hw hfd (h.vigilant.armed hw hp) hread hp
        (hu.pipe_eq ▸ hbytes) hwait
    have hends : ∀ {limit t₁ es t₂ d' t'},
        t₁.Unheard table pipe c t.trace.length (pipe t₀.state) →
        host.traced.wait limit t₁ = (.ok es, t₂) →
        Collector.deliver host.traced c.emulated es c.fresh t₂ = (.ok (), d', t') →
        d'.buffer.isEmpty = false := by
      intro limit t₁ es t₂ d' t' hu hwait hd
      obtain ⟨t₃, -, heq, -, -⟩ := hattentive.deliver (d := c.fresh) he hu.serves hwait
      rw [hd] at heq
      obtain ⟨hok, hrest⟩ := Prod.mk.inj heq
      obtain ⟨rfl, -⟩ := Prod.mk.inj hrest
      obtain ⟨x, hx, -⟩ := hrecord hu hwait hok.symm
      exact List.isEmpty_eq_false_iff.mpr (List.ne_nil_of_mem hx)
    rcases Collector.collect_until
        (fun t' : Traced σ => t'.Unheard table pipe c t.trace.length (pipe t₀.state))
        (fun hu hw => hhost.unheard_wait_error hu hw) hends waits timeout.limit hunheard with
      ⟨hnone, hinterrupted⟩ | ⟨⟨answer, d, t'⟩, hq, hcases⟩
    · rw [hnone] at hrun
      exact Or.inl ⟨rfl, hrun, hinterrupted⟩
    · rw [hq] at hrun
      refine Or.inr ⟨_, hrun, ?_⟩
      rcases hcases with ⟨hd, hu, hanswer⟩ | ⟨limit', t₁, es, t₂, hu, hwait, hd⟩
      · obtain rfl : d = c.fresh := hd
        exact Or.inr (hhost.keeps_of_unheard haside hwakes hu hanswer)
      · exact Or.inl (hhost.heeds_of_wait haside hwakes he hu hwait (hrecord hu hwait) hd)

/-! ### A pipe and a poller -/

namespace Wake

/-- What a poller can see of the descriptors when `wokeFd` is the reading end of a pipe, and the
    others are ready for reading at any time. -/
def signals (wokeFd : Fd) (pipe : Channel) (fd : Fd) : Poller.Signals :=
  ⟨fd ≠ wokeFd || pipe.hasBytes, false, false, false⟩

/-- A host that is nothing but its poller, which reports by increasing descriptor number, and a pipe
    with the reading end `wokeFd`. -/
def station (hasLevel : Bool) (wokeFd : Fd) : Host (Poller.Table × Channel) where
  openPoller s := (.ok hasLevel, (∅, s.2))
  add fd r s := (.ok (), (s.1.register fd r, s.2))
  modify fd r s := (.ok (), (s.1.register fd r, s.2))
  delete fd s := (.ok (), (s.1.unregister fd, s.2))
  wait _ s :=
    let es := s.1.sortedKeys.filterMap (s.1.report? (signals wokeFd s.2))
    (.ok es, (s.1.report es, s.2))
  now _ := .zero
  drain fd s :=
    if fd = wokeFd then
      let (bytes, _, pipe) := drain (fun n ch => ch.read n) (s.2.pending + 1) 0 s.2
      (bytes, (s.1, pipe))
    else (0, s)
  log _ s := s

theorem attentive_station (hasLevel : Bool) (wokeFd : Fd) :
    Poller.Attentive Poller.Entry.response (fun s => signals wokeFd s.2) Prod.fst Prod.snd wokeFd
      (station hasLevel wokeFd) where
  add := fun _ _ _ => ⟨_, rfl, rfl⟩
  modify := fun _ _ _ => ⟨_, rfl, rfl⟩
  delete := fun _ _ => ⟨_, rfl, rfl⟩
  drain := by
    intro fd s
    show (if fd = wokeFd then _ else _ : Nat × Poller.Table × Channel).2.1 = s.1
    split <;> rfl
  log := fun _ _ => rfl
  key_eq := Poller.Entry.key_eq_of_response
  heard := by
    intro s key interest hbytes hinterest
    unfold Poller.Entry.response Poller.Entry.report? signals
    simp [hbytes, hinterest]
  openPoller := by
    rintro s hasLevel s' ⟨⟩
    rfl
  wait_error := nofun
  wait_ok := by
    rintro limit s es s' ⟨⟩
    refine ⟨rfl, rfl, s.1.sortedKeys, ?_, s.1.mem_sortedKeys_iff, ?_⟩
    · exact s.1.pairwise_sortedKeys.imp fun hlt => Int32.ne_of_lt hlt
    · rw [Poller.Table.answer?_response]
  pipe_modify := fun _ _ _ => rfl
  pipe_log := fun _ _ => rfl
  pipe_drain := by
    intro s
    refine ⟨s.2.pending + 1, Nat.lt_succ_self _, ?_⟩
    show (if wokeFd = wokeFd then _ else _ : Nat × Poller.Table × Channel).2.2 = _
    rw [if_pos rfl]
    rfl

end Wake

/-- On a poller without level mode, descriptor 5 has a one-shot reader and 9, the reading end of the
    pipe, one that persists.  A wake is sent, and a run overflows a buffer for one record.  The wake
    is heard by the next run, which waits without a limit. -/
theorem Wake.arrives_after_overflow :
    ∃ (c : Collector (Traced (Poller.Table × Channel))) (t : Traced (Poller.Table × Channel))
      (o : Outcome (Traced (Poller.Table × Channel)) Nat),
      Wake.Course Prod.fst Prod.snd (station false 9) c t ∧
      c.emulated = true ∧ t.state.2.pending = 1 ∧
      c.run (station false 9).traced 0 9 .block 1 t = some o ∧
      o.Heeds Prod.snd 9 t t.state.2 ∧ o.answer = .ok 0 ∧ o.state.state.2.pending = 0 := by
  have h₀ : Wake.Course Prod.fst Prod.snd (station false 9) _ _ :=
    .create (show Collector.create (station false 9).traced (Buffer.ofCapacity 1) default
      ⟨(∅, Channel.ofCapacity 4), []⟩ = (.ok _, _) from rfl)
  have h₁ := h₀.step (.add 5 .read _ _) trivial
  have h₂ := h₁.step (.add 9 (.read ∪ .persist) _ _) trivial
  have h₃ : Wake.Course Prod.fst Prod.snd (station false 9) _
      ⟨(_, (Channel.ofCapacity 4).wakes 1), _⟩ := h₂.elapse ⟨rfl, rfl⟩
  have h₄ := h₃.step (.run (show Collector.run _ _ 0 9 .poll 1 _ = some _ from rfl)) trivial
  have h₅ := h₄.step (.resize (Buffer.ofCapacity 2) _ _) trivial
  obtain ⟨-, ⟨-, hnone, -⟩ | ⟨o, ho, hheeds | hkeeps⟩⟩ :=
    Wake.arrives (attentive_station false 9) h₅ (show Registry.watch? _ 1 = some _ from rfl) rfl
      (by decide) (by decide) 0 .block 1 rfl (Or.inl (by decide))
  · exact absurd (congrArg Option.isSome hnone) (by decide)
  · cases ho
    exact ⟨_, _, _, h₅, rfl, rfl, rfl, hheeds, rfl, rfl⟩
  · cases ho
    exact absurd hkeeps.waits (by decide)

end Readiness
