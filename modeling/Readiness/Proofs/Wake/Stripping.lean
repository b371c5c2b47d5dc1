import Readiness.Proofs.Blocking
import Readiness.Proofs.HookBracket

namespace Readiness

/-!
# The wake descriptor in the report

The reading end of the wake pipe is watched like any other descriptor, so it makes records like any
other.  A run that goes well takes them out and drains the pipe; a run that fails does neither.

* `Exchange.drained?` — the descriptor that was drained, and `Traced.Dry`, that none was in between.
  So it is for all of a run but its end (`Collector.collect_polling`, `WaitHook.Dry`);
* `Collector.finish_drains` — what the end of a run that went well asks of its host;
* `Collector.run_drains` — a run drains once or not at all, by what it deposited;
* `Host.draining` — the host on which draining does something else.  A run does not notice
  (`Collector.run_draining`);
* `Registry.Recorded` — a watch of this descriptor made a record;
* `History.strips_wake` — the report of a run that goes well is what it deposited, but for the wake
  descriptor;
* `History.exposes_wake_iff` — the report of a run that fails is all it deposited, so it shows the
  wake descriptor if a watch of that made a record.
-/

variable {σ : Type} {host : Host σ}

/-! ### Draining in a trace -/

/-- The descriptor that was drained. -/
def Exchange.drained? : Exchange → Option Fd
  | .drain fd _ => some fd
  | _ => none

/-- `t'` comes after `t`, and nothing was drained in between. -/
def Traced.Dry (t t' : Traced σ) : Prop :=
  ∃ xs, t'.trace = t.trace ++ xs ∧ xs.filterMap Exchange.drained? = []

namespace Traced.Dry

variable {t t' t'' : Traced σ}

theorem refl (t : Traced σ) : t.Dry t := ⟨[], (List.append_nil _).symm, rfl⟩

theorem trans (h : t.Dry t') (h' : t'.Dry t'') : t.Dry t'' := by
  obtain ⟨xs, ht, hxs⟩ := h
  obtain ⟨ys, ht', hys⟩ := h'
  refine ⟨xs ++ ys, ?_, ?_⟩
  · rw [ht', ht, List.append_assoc]
  · rw [List.filterMap_append, hxs, hys, List.append_nil]

/-- The poller drains nothing. -/
theorem of_polling (h : t.Polling t') : t.Dry t' := by
  obtain ⟨xs, ht, hpoller⟩ := h
  refine ⟨xs, ht, List.filterMap_eq_nil_iff.mpr fun x hx => ?_⟩
  cases x with
  | drain fd bytes => exact nomatch hpoller _ hx
  | add fd r answer => rfl
  | modify fd r answer => rfl
  | delete fd answer => rfl
  | wait limit answer => rfl
  | prepare wakeFd calledOff => rfl
  | finished => rfl

/-- What is drained afterwards is all that is drained. -/
theorem since_append (h : t.Dry t') {xs : List Exchange} (ht : t''.trace = t'.trace ++ xs) :
    t''.since t.trace.length Exchange.drained? = xs.filterMap Exchange.drained? := by
  obtain ⟨ys, ht', hys⟩ := h
  unfold since
  rw [ht, ht', List.append_assoc, List.drop_left, List.filterMap_append, hys, List.nil_append]

theorem since_eq_nil (h : t.Dry t') : t'.since t.trace.length Exchange.drained? = [] :=
  h.since_append (List.append_nil _).symm

end Traced.Dry

/-- A hook that can be seen to drain nothing. -/
structure WaitHook.Dry (hook : WaitHook (Traced σ)) : Prop where
  prepareToWait : ∀ (fd : Fd) (t : Traced σ), t.Dry (hook.prepareToWait fd t).2
  waitFinished : ∀ t : Traced σ, t.Dry (hook.waitFinished t)

theorem WaitHook.dry_none : (WaitHook.none : WaitHook (Traced σ)).Dry where
  prepareToWait := fun _ t => Traced.Dry.refl t
  waitFinished := Traced.Dry.refl

theorem WaitHook.dry_traced (hook : WaitHook σ) : hook.traced.Dry where
  prepareToWait := fun _ _ => ⟨_, (Traced.of_note rfl).2, rfl⟩
  waitFinished := fun _ => ⟨_, rfl, rfl⟩

/-- **The hook of a history that is overheard** drains nothing behind the back of a run. -/
theorem History.hook_dry {acts : List (Action (Traced σ))} {c : Collector (Traced σ)} {t : Traced σ}
    (h : History host.traced Overheard acts c t) : c.hook.Dry := by
  induction h with
  | create hc =>
    rw [(Collector.create_eq hc).2.2]
    exact WaitHook.dry_none
  | @step acts a c c' t t' hist hs ha ih =>
    have hhook : c'.hook = (a.install (some c.hook)).getD .none := hs.hook_eq rfl
    rw [hhook]
    cases a with
    | setHook hook =>
      obtain ⟨inner, rfl⟩ := ha
      exact inner.dry_traced
    | add fd mask answer => exact ih
    | remove token answer => exact ih
    | resize buffer => exact ih
    | run wakeFd wokeFd timeout answer => exact ih

namespace Collector

/-! ### What a run drains -/

/-- The end of a run that went well drains the pipe if there is a record of it, and asks nothing
    else. -/
theorem finish_drains (host : Host σ) (c : Collector (Traced σ)) (wokeFd : Fd) (t : Traced σ) :
    ∃ drained, (finish host.traced c wokeFd (.ok ()) t).state.trace = t.trace ++ drained ∧
      ((∃ x ∈ c.buffer.records, x.fd = wokeFd) → drained.filterMap Exchange.drained? = [wokeFd]) ∧
      ((∀ x ∈ c.buffer.records, x.fd ≠ wokeFd) → drained = []) := by
  have hcount : c.buffer.countFd wokeFd = 0 ↔ ∀ x ∈ c.buffer.records, x.fd ≠ wokeFd := by
    unfold Buffer.countFd
    rw [List.countP_eq_zero]
    simp only [decide_eq_true_eq, ne_eq]
  unfold finish
  dsimp only
  by_cases hwoken : c.buffer.countFd wokeFd = 0
  · rw [if_pos hwoken]
    refine ⟨[], (List.append_nil _).symm, ?_, fun _ => rfl⟩
    rintro ⟨x, hx, hfd⟩
    exact absurd hfd (hcount.mp hwoken x hx)
  · rw [if_neg hwoken]
    exact ⟨_, (Traced.of_note rfl).2, fun _ => rfl, fun hnone => absurd (hcount.mpr hnone) hwoken⟩

/-- **A run drains once or not at all.**  It drains the wake descriptor if it goes well and has
    deposited a record of that. -/
theorem run_drains {c : Collector (Traced σ)} (hdry : c.hook.Dry) {keys : List Nat}
    (he : c.registry.Enrolled keys) {wakeFd wokeFd : Fd} {timeout : Timeout} {waits : Nat}
    {t : Traced σ} {o : Outcome (Traced σ) Nat}
    (ho : c.run host.traced wakeFd wokeFd timeout waits t = some o) :
    (∃ n, o.answer = .ok n ∧
      (∃ x ∈ c.deposits host.traced wakeFd timeout waits t, x.2.fd = wokeFd) ∧
      o.state.since t.trace.length Exchange.drained? = [wokeFd]) ∨
    ((∀ n, o.answer = .ok n →
        ∀ x ∈ c.deposits host.traced wakeFd timeout waits t, x.2.fd ≠ wokeFd) ∧
      o.state.since t.trace.length Exchange.drained? = []) := by
  rcases run_collected ho with ⟨-, -, rfl, hoff⟩ | ⟨t₀, t₁, answer, d, ht₀, hc, rfl, hoff⟩
  · refine Or.inr ⟨fun n _ x hx => ?_, (hdry.prepareToWait wakeFd t).since_eq_nil⟩
    unfold deposits at hx
    rw [hoff] at hx
    cases hx
  -- Neither the hook nor the iteration drains anything.
  have hprepared : t.Dry t₀ := by
    rw [ht₀]
    split
    · exact hdry.prepareToWait wakeFd t
    · exact Traced.Dry.refl t
  have hfinished : t₁.Dry (if timeout.mayBlock then c.hook.waitFinished t₁ else t₁) := by
    split
    · exact hdry.waitFinished t₁
    · exact Traced.Dry.refl t₁
  have hbefore := (hprepared.trans (.of_polling (collect_polling hc))).trans hfinished
  cases answer with
  | error e => exact Or.inr ⟨(fun n hn => nomatch hn), hbefore.since_eq_nil⟩
  | ok u =>
    have hrecords : d.buffer.records =
        (c.deposits host.traced wakeFd timeout waits t).map Prod.snd := by
      rw [show d = _ from collect_collected hc, ← hoff, deposits_eq host.traced he]
      exact (Delivery.follows_foldl_fanOut he c.buffer _).records_eq
    obtain ⟨drained, htrace, hsome, hnone⟩ := finish_drains host
      { c with registry := d.registry, buffer := d.buffer } wokeFd
      (if timeout.mayBlock then c.hook.waitFinished t₁ else t₁)
    dsimp only at hsome hnone
    rw [hrecords] at hsome hnone
    rw [hbefore.since_append htrace]
    by_cases hwoken : ∃ x ∈ c.deposits host.traced wakeFd timeout waits t, x.2.fd = wokeFd
    · obtain ⟨x, hx, hfd⟩ := hwoken
      exact Or.inl ⟨_, rfl, ⟨x, hx, hfd⟩, hsome ⟨x.2, List.mem_map_of_mem hx, hfd⟩⟩
    · have hquiet : ∀ x ∈ c.deposits host.traced wakeFd timeout waits t, x.2.fd ≠ wokeFd :=
        fun x hx hfd => hwoken ⟨x, hx, hfd⟩
      refine Or.inr ⟨fun _ _ => hquiet, ?_⟩
      rw [hnone (List.forall_mem_map.mpr hquiet)]
      rfl

end Collector

/-! ### Another drain -/

/-- The host on which draining a descriptor does something else. -/
def Host.draining (host : Host σ) (drain : Fd → σ → Nat × σ) : Host σ :=
  { host with drain := drain }

namespace Collector

/-- A delivery does not drain. -/
theorem deliver_draining (host : Host σ) (drain : Fd → σ → Nat × σ) (emulated : Bool)
    (es : List Event) (d : Delivery) (s : σ) :
    deliver (host.draining drain) emulated es d s = deliver host emulated es d s := by
  induction es generalizing d s with
  | nil => rfl
  | cons e es ih =>
    unfold deliver
    simp only [ih]
    rfl

/-- Nor does an iteration. -/
theorem collect_draining (host : Host σ) (drain : Fd → σ → Nat × σ) (emulated : Bool)
    (timeout : Timeout) (start : Duration) (waits : Nat) (limit : Option Duration) (d : Delivery)
    (s : σ) :
    collect (host.draining drain) emulated timeout start waits limit d s =
      collect host emulated timeout start waits limit d s := by
  induction waits generalizing limit d s with
  | zero => rfl
  | succ n ih =>
    unfold collect
    simp only [ih, deliver_draining]
    rfl

/-- **What comes of draining** is seen by nobody but the host. -/
theorem run_draining (drain : Fd → σ → Nat × σ) {c : Collector σ} {wakeFd wokeFd : Fd}
    {timeout : Timeout} {waits : Nat} {s : σ} {o : Outcome σ Nat}
    (ho : c.run host wakeFd wokeFd timeout waits s = some o) :
    ∃ o', c.run (host.draining drain) wakeFd wokeFd timeout waits s = some o' ∧
      o'.answer = o.answer ∧ o'.collector = o.collector := by
  cases hgo : (c.prepared wakeFd timeout s).1 with
  | true =>
    rw [run_of_calledOff hgo] at ho ⊢
    cases ho
    exact ⟨_, rfl, rfl, rfl⟩
  | false =>
    rw [run_of_not_calledOff hgo] at ho ⊢
    obtain ⟨r, hr, rfl⟩ := Option.map_eq_some_iff.mp ho
    rw [collect_draining, show (host.draining drain).now = host.now from rfl, hr]
    exact ⟨_, rfl, finish_congr host (host.draining drain) _ wokeFd r.1 _ _⟩

/-! ### What is left of the records -/

/-- A run keeps the slots of the buffer, and if it goes well, it counts those that are filled. -/
theorem run_counts {c : Collector σ} {keys : List Nat} (he : c.registry.Enrolled keys)
    {wakeFd wokeFd : Fd} {timeout : Timeout} {waits : Nat} {s : σ} {o : Outcome σ Nat}
    (ho : c.run host wakeFd wokeFd timeout waits s = some o) :
    o.collector.capacity = c.capacity ∧ ∀ n, o.answer = .ok n → n = o.collector.events.length := by
  rcases run_cases ho with ⟨-, -, rfl⟩ | ⟨s₀, s₁, answer, d, -, hc, rfl⟩
  · refine ⟨Buffer.capacity_clear _, fun n hn => ?_⟩
    cases hn
    rfl
  have hcapacity : d.buffer.capacity = c.buffer.capacity := by
    rw [show d = _ from collect_collected hc]
    exact (Delivery.follows_foldl_fanOut he c.buffer _).capacity_eq
  rcases finish_cases host { c with registry := d.registry, buffer := d.buffer } wokeFd answer
    (if timeout.mayBlock then c.hook.waitFinished s₁ else s₁) with ⟨e, -, h⟩ | ⟨s', -, h⟩
  · rw [h]
    exact ⟨hcapacity, fun n hn => nomatch hn⟩
  · rw [h]
    refine ⟨(Buffer.capacity_removeFd _ _).trans hcapacity, fun n hn => ?_⟩
    cases hn
    rfl

end Collector

/-- A watch of `fd` made one of the records of `F`. -/
def Registry.Recorded (r : Registry) (F : List (Nat × Record)) (fd : Fd) : Prop :=
  ∃ key w, r.watch? key = some w ∧ w.fd = fd ∧ key ∈ F.map Prod.fst

/-- The records of a descriptor are those of its watches, whatever these ask for. -/
theorem Collector.recorded_deposits_iff {c : Collector σ} {keys : List Nat}
    (he : c.registry.Enrolled keys) {wakeFd : Fd} {timeout : Timeout} {waits : Nat} {s : σ}
    {fd : Fd} : c.registry.Recorded (c.deposits host wakeFd timeout waits s) fd ↔
      ∃ x ∈ c.deposits host wakeFd timeout waits s, x.2.fd = fd := by
  constructor
  · rintro ⟨key, w, hw, rfl, hkey⟩
    obtain ⟨x, hx, rfl⟩ := List.mem_map.mp hkey
    obtain ⟨v, hv, -, hfd⟩ := exists_watch_of_mem_deposits he hx
    rw [hw] at hv
    cases hv
    exact ⟨x, hx, hfd.symm⟩
  · rintro ⟨x, hx, rfl⟩
    obtain ⟨w, hw, -, hfd⟩ := exists_watch_of_mem_deposits he hx
    exact ⟨x.1, w, hw, hfd, List.mem_map_of_mem hx⟩

/-! ### Every history -/

/-- **A run that goes well strips its report of the wake descriptor.**  Take any such run after any
    history, and what it deposited over all its waits.  It reports all of that in the same order,
    but for the records of the wake descriptor, and answers how many records these are, which is no
    more than the buffer has slots.  Records were taken out if a watch of the wake descriptor made
    one, and then it was drained exactly once; otherwise nothing was drained.  Whatever draining
    does to the host or gives, the answer is the same, and so are the records and the watches. -/
theorem History.strips_wake {acts : List (Action (Traced σ))} {c : Collector (Traced σ)}
    {t : Traced σ} (h : History host.traced Overheard acts c t) {wakeFd wokeFd : Fd}
    {timeout : Timeout} {waits n : Nat} {o : Outcome (Traced σ) Nat}
    (ho : c.run host.traced wakeFd wokeFd timeout waits t = some o) (hn : o.answer = .ok n) :
    let F := c.deposits host.traced wakeFd timeout waits t
    o.collector.events = (F.map Prod.snd).filter (fun x => x.fd ≠ wokeFd) ∧
    n = o.collector.events.length ∧ n ≤ o.collector.capacity ∧ o.collector.capacity = c.capacity ∧
    (n < F.length ↔ c.registry.Recorded F wokeFd) ∧
    o.state.since t.trace.length Exchange.drained? = (if n < F.length then [wokeFd] else []) ∧
    ∀ drain : Fd → σ → Nat × σ,
      ∃ o', c.run (host.draining drain).traced wakeFd wokeFd timeout waits t = some o' ∧
        o'.answer = .ok n ∧ o'.collector = o.collector := by
  intro F
  have he := h.enrolled
  obtain ⟨hcapacity, hcount⟩ := Collector.run_counts he ho
  have hrecords : o.collector.events = (F.map Prod.snd).filter fun x => x.fd ≠ wokeFd := by
    rcases Collector.records_run he ho with ⟨e, herr, -⟩ | ⟨n', -, hrecords⟩
    · rw [hn] at herr
      cases herr
    · exact hrecords
  have hdraining : ∀ drain : Fd → σ → Nat × σ,
      ∃ o', c.run (host.draining drain).traced wakeFd wokeFd timeout waits t = some o' ∧
        o'.answer = .ok n ∧ o'.collector = o.collector := by
    intro drain
    obtain ⟨o', ho', hanswer, hcollector⟩ :=
      Collector.run_draining (fun fd => Traced.note (drain fd) (.drain fd)) ho
    exact ⟨o', ho', hanswer.trans hn, hcollector⟩
  -- The report is shorter than what was deposited if something was taken out.
  have hremoved : n < F.length ↔ ∃ x ∈ F, x.2.fd = wokeFd := by
    rw [hcount n hn, hrecords, ← List.length_map Prod.snd,
      List.length_filter_lt_length_iff_exists]
    simp only [List.mem_map, exists_exists_and_eq_and, decide_eq_true_eq, not_not]
  refine ⟨hrecords, hcount n hn, ?_, hcapacity, ?_, ?_, hdraining⟩
  · rw [hcount n hn]
    exact o.collector.buffer.size_le_capacity
  · rw [hremoved]
    exact (Collector.recorded_deposits_iff he).symm
  · rcases Collector.run_drains h.hook_dry he ho with ⟨-, -, hwoken, hdrained⟩ | ⟨hquiet, hdrained⟩
    · rw [hdrained, if_pos (hremoved.mpr hwoken)]
    · rw [hdrained, if_neg]
      intro hlt
      obtain ⟨x, hx, hfd⟩ := hremoved.mp hlt
      exact hquiet n hn x hx hfd

open Scenario in
/-- Descriptor 8 is the wake descriptor, with a reader and a writer between the watches of 5 and 6.
    All are reported.  The wake descriptor is not open, so draining it fails, which is only logged.
    A host on which draining does nothing sees the same report. -/
theorem strips_wake_closed :
    ∃ (c : Collector (Traced World)) (t : Traced World) (o o' : Outcome (Traced World) Nat),
      History (World.host 0).traced Overheard
        [.add 5 .read (.ok ⟨0, 0⟩), .add 8 (.read ∪ .persist) (.ok ⟨1, 1⟩),
          .add 8 .write (.ok ⟨2, 2⟩), .add 6 .write (.ok ⟨3, 3⟩)] c t ∧
      c.run (World.host 0).traced 7 8 .block 1 t = some o ∧ o.answer = .ok 2 ∧
      c.deposits (World.host 0).traced 7 .block 1 t =
        [(0, ⟨5, 2⟩), (1, ⟨8, 2⟩), (2, ⟨8, 4⟩), (3, ⟨6, 4⟩)] ∧
      o.collector.events = [⟨5, 2⟩, ⟨6, 4⟩] ∧
      o.state.since t.trace.length Exchange.drained? = [8] ∧
      .drainFailed (.os Errno.badDescriptor) ∈ o.state.state.log ∧
      c.run ((World.host 0).draining fun _ w => (0, w)).traced 7 8 .block 1 t = some o' ∧
      o'.answer = .ok 2 ∧ o'.collector = o.collector := by
  have h₀ : History (World.host 0).traced Overheard [] _ _ :=
    .create (show Collector.create (World.host 0).traced (Buffer.ofCapacity 4) default
      ⟨World.answering true
        [.events [⟨5, true, false, false, none⟩, ⟨8, true, true, false, none⟩,
          ⟨6, false, true, false, none⟩]], []⟩ = (.ok _, _) from rfl)
  have h₁ := h₀.step (.add 5 .read _ _) trivial
  have h₂ := h₁.step (.add 8 (.read ∪ .persist) _ _) trivial
  have h₃ := h₂.step (.add 8 .write _ _) trivial
  have h₄ := h₃.step (.add 6 .write _ _) trivial
  obtain ⟨hevents, -, -, -, -, hdrained, hdraining⟩ := h₄.strips_wake
    (show Collector.run _ _ 7 8 .block 1 _ = some _ from rfl) rfl
  obtain ⟨o', ho', hanswer, hcollector⟩ := hdraining fun _ w => (0, w)
  exact ⟨_, _, _, o', h₄, rfl, rfl, rfl, hevents, hdrained, by decide,
    ho', hanswer, hcollector⟩

/-- **A run that fails shows the wake descriptor if it was reported.**  Take any such run after any
    history, whether its buffer has overflowed or the poller has failed.  It leaves all records it
    deposited, in order, and has drained nothing.  So a record of the wake descriptor is left
    exactly if a watch of that made one. -/
theorem History.exposes_wake_iff {acts : List (Action (Traced σ))} {c : Collector (Traced σ)}
    {t : Traced σ} (h : History host.traced Overheard acts c t) {wakeFd wokeFd : Fd}
    {timeout : Timeout} {waits : Nat} {o : Outcome (Traced σ) Nat}
    (ho : c.run host.traced wakeFd wokeFd timeout waits t = some o) {e : Error}
    (hfailed : o.answer = .error e) :
    let F := c.deposits host.traced wakeFd timeout waits t
    o.collector.events = F.map Prod.snd ∧
    o.state.since t.trace.length Exchange.drained? = [] ∧
    ((∃ x ∈ o.collector.events, x.fd = wokeFd) ↔ c.registry.Recorded F wokeFd) := by
  intro F
  have he := h.enrolled
  have hrecords : o.collector.events = F.map Prod.snd := by
    rcases Collector.records_run he ho with ⟨-, -, hrecords⟩ | ⟨n, hn, -⟩
    · exact hrecords
    · rw [hfailed] at hn
      cases hn
  refine ⟨hrecords, ?_, ?_⟩
  · rcases Collector.run_drains h.hook_dry he ho with ⟨n, hn, -, -⟩ | ⟨-, hdrained⟩
    · rw [hfailed] at hn
      cases hn
    · exact hdrained
  · rw [Collector.recorded_deposits_iff he, hrecords]
    simp only [List.mem_map, exists_exists_and_eq_and]
    exact Iff.rfl

namespace Scenario

/-- On a poller without level mode, descriptor 5 and the wake descriptor 8 are reported.  Both make
    a record, and the new registration of 8 is refused.  The wake descriptor is left in the
    report. -/
theorem exposes_wake_iff_refused :
    ∃ (c : Collector (Traced World)) (t : Traced World) (o : Outcome (Traced World) Nat),
      History (World.host 0).traced Overheard
        [.add 5 .read (.ok ⟨0, 0⟩), .add 8 (.read ∪ .persist) (.ok ⟨1, 1⟩)] c t ∧
      c.run (World.host 0).traced 7 8 .poll 1 t = some o ∧ o.answer = .error (.io (.os 22)) ∧
      o.collector.events = [⟨5, 2⟩, ⟨8, 2⟩] ∧
      o.state.since t.trace.length Exchange.drained? = [] ∧
      c.registry.Recorded (c.deposits (World.host 0).traced 7 .poll 1 t) 8 := by
  have h₀ : History (World.host 0).traced Overheard [] _ _ :=
    .create (show Collector.create (World.host 0).traced (Buffer.ofCapacity 4) default
      ⟨World.refusing false [0, 0, 22]
        [.events [⟨5, true, false, false, none⟩, ⟨8, true, false, false, none⟩]], []⟩ =
          (.ok _, _) from rfl)
  have h₁ := h₀.step (.add 5 .read _ _) trivial
  have h₂ := h₁.step (.add 8 (.read ∪ .persist) _ _) trivial
  obtain ⟨hevents, hdrained, hiff⟩ := h₂.exposes_wake_iff
    (show Collector.run _ _ 7 8 .poll 1 _ = some _ from rfl) rfl
  exact ⟨_, _, _, h₂, rfl, rfl, hevents, hdrained, hiff.mp ⟨⟨8, 2⟩, by decide, rfl⟩⟩

/-- The wake descriptor 191 and descriptor 5 are reported, and there is room for one record.  The
    run fails for the record of 5, and all that it reports is the wake descriptor. -/
theorem wake_exposed_by_overflow :
    ∃ (c : Collector (Traced World)) (t : Traced World) (o : Outcome (Traced World) Nat),
      History (World.host 0).traced Overheard
        [.add 191 (.read ∪ .persist) (.ok ⟨0, 0⟩), .add 5 .read (.ok ⟨1, 1⟩)] c t ∧
      c.run (World.host 0).traced 190 191 .poll 1 t = some o ∧
      o.answer = .error (.bufferFull ⟨5, 1⟩) ∧ o.collector.events = [⟨191, 2⟩] := by
  have h₀ : History (World.host 0).traced Overheard [] _ _ :=
    .create (show Collector.create (World.host 0).traced (Buffer.ofCapacity 1) default
      ⟨World.answering true
        [.events [⟨191, true, false, false, none⟩, ⟨5, true, false, false, none⟩]], []⟩ =
          (.ok _, _) from rfl)
  have h₁ := h₀.step (.add 191 (.read ∪ .persist) _ _) trivial
  have h₂ := h₁.step (.add 5 .read _ _) trivial
  exact ⟨_, _, _, h₂, rfl, rfl, rfl⟩

end Scenario

end Readiness
