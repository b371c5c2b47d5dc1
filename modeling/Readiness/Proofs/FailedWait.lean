import Readiness.Proofs.Refusal
import Readiness.Proofs.Wake.Stripping

namespace Readiness

/-!
# Waits that fail

A wait that fails ends its run.  The waits before it reported nothing, or the run would have ended
with one of them, so all that is left of the run is its error.

* `Collector.WaitFails` — waits that an iteration goes on after, and then one that fails.  The
  iteration ends with this error and the delivery it began with
  (`Collector.WaitFails.collect_eq`);
* `Collector.cleared` — a collector without its records.  These make no difference to what is asked
  of it later (`Collector.serve_of_cleared_eq`);
* `Collector.reports` — what the runs among some requests report (`View.report?`), which is the same
  whatever the records were (`Collector.reports_of_cleared_eq`);
* `History.failed_wait_harmless` — a run whose wait fails leaves nothing but a cleared collector.
-/

variable {σ : Type} {host : Host σ}

namespace Collector

/-! ### Iterations that end with a failed wait -/

/-- The waits of an iteration with the delivery `d` lead from `s` to `s'`, where the last one has
    failed with `e`.  The others were interrupted before the time was up, or the iteration blocks
    and their events made no record. -/
inductive WaitFails (host : Host σ) (emulated : Bool) (timeout : Timeout) (start : Duration)
    (e : SystemError) : (waits : Nat) → Option Duration → Delivery → σ → σ → Prop where
  | failed {limit : Option Duration} {d : Delivery} {s s' : σ}
      (hw : host.wait limit s = (.error e, s')) (hk : e.kind ≠ .interrupted) :
      WaitFails host emulated timeout start e 1 limit d s s'
  | interrupted {err : SystemError} {waits : Nat} {limit limit' : Option Duration} {d : Delivery}
      {s s₁ s' : σ} (hw : host.wait limit s = (.error err, s₁)) (hk : err.kind = .interrupted)
      (hl : timeout.limitAfter (host.now s₁ - start) = some limit')
      (h : WaitFails host emulated timeout start e waits limit' d s₁ s') :
      WaitFails host emulated timeout start e (waits + 1) limit d s s'
  | quiet {es : List Event} {waits : Nat} {limit : Option Duration} {d d' : Delivery}
      {s s₁ s₂ s' : σ} (hblock : timeout = .block) (hw : host.wait limit s = (.ok es, s₁))
      (hd : deliver host emulated es d s₁ = (.ok (), d', s₂)) (hb : d'.buffer.records = [])
      (h : WaitFails host emulated timeout start e waits limit d' s₂ s') :
      WaitFails host emulated timeout start e (waits + 1) limit d s s'

/-- **An iteration whose wait fails** ends with its error, and has done nothing to the watches. -/
theorem WaitFails.collect_eq {emulated : Bool} {timeout : Timeout} {start : Duration}
    {e : SystemError} {n : Nat} {limit : Option Duration} {d : Delivery} {s s' : σ}
    (h : WaitFails host emulated timeout start e n limit d s s') :
    collect host emulated timeout start n limit d s = some (.error (.io e), d, s') := by
  -- By induction on the waits, all of which have the same delivery.
  induction h with
  | failed hw hk => simp only [collect, hw, if_neg hk]
  | interrupted hw hk hl _ ih => simp only [collect, hw, if_pos hk, hl, ih]
  | @quiet es waits limit d d' s s₁ s₂ s' hblock hw hd hb _ ih =>
    obtain rfl : d' = d := deliver_of_quiet hd hb
    have hempty : timeout = .block ∧ d'.buffer.isEmpty := ⟨hblock, List.isEmpty_iff.mpr hb⟩
    simp only [collect, hw, hd, if_pos hempty, ih]

/-! ### Collectors without their records -/

/-- The collector without the records of its last run. -/
def cleared (c : Collector σ) : Collector σ := { c with buffer := c.buffer.clear }

@[simp] theorem events_cleared (c : Collector σ) : c.cleared.events = [] := rfl

@[simp] theorem capacity_cleared (c : Collector σ) : c.cleared.capacity = c.capacity := rfl

@[simp] theorem cleared_cleared (c : Collector σ) : c.cleared.cleared = c.cleared := rfl

/-- **Inversion of two collectors that only differ in their records.** -/
theorem exists_buffer_of_cleared_eq {c c' : Collector σ} (h : c'.cleared = c.cleared) :
    ∃ b : Buffer, b.clear = c.buffer.clear ∧ c' = { c with buffer := b } := by
  obtain ⟨registry, buffer, emulated, timeUnit, hook⟩ := c
  obtain ⟨registry', buffer', emulated', timeUnit', hook'⟩ := c'
  unfold cleared at h
  obtain ⟨rfl, hbuffer, rfl, rfl, rfl⟩ := Collector.mk.inj h
  exact ⟨buffer', hbuffer, rfl⟩

/-- A run begins by clearing the buffer. -/
theorem run_of_cleared_eq {c c' : Collector σ} (h : c'.cleared = c.cleared) (host : Host σ)
    (wakeFd wokeFd : Fd) (timeout : Timeout) (waits : Nat) (s : σ) :
    c'.run host wakeFd wokeFd timeout waits s = c.run host wakeFd wokeFd timeout waits s := by
  obtain ⟨b, hb, rfl⟩ := exists_buffer_of_cleared_eq h
  unfold run
  dsimp only
  rw [hb]

end Collector

/-- What a run reports: its answer and its records. -/
def View.report? (view : View) : Option (Except Error Nat × List Record) :=
  match view.reply with
  | .ran answer => some (answer, view.events)
  | _ => none

namespace Collector

variable {c c' : Collector σ}

/-- An addition does not look at the buffer, and leaves it alone. -/
theorem exists_add_eq (host : Host σ) (c : Collector σ) (fd : Fd) (mask : Mask) (s : σ) :
    ∃ answer r s', ∀ b : Buffer, ({ c with buffer := b } : Collector σ).add host fd mask s =
      ⟨answer, { c with registry := r, buffer := b }, s'⟩ := by
  rcases c.add_cases host fd mask s with ⟨e, s', hcall, -⟩ | ⟨s', hcall, -⟩
  · refine ⟨.error (.io e), (c.registry.insert fd mask).forget c.registry.slots.nextKey, s',
      fun b => ?_⟩
    rcases add_cases host { c with buffer := b } fd mask s with
      ⟨e', s'', hcall', heq⟩ | ⟨s'', hcall', -⟩
    · cases hcall.symm.trans hcall'
      exact heq
    · cases hcall.symm.trans hcall'
  · refine ⟨.ok c.registry.nextToken, c.registry.insert fd mask, host.log (.watching fd mask) s',
      fun b => ?_⟩
    rcases add_cases host { c with buffer := b } fd mask s with
      ⟨e', s'', hcall', -⟩ | ⟨s'', hcall', heq⟩
    · cases hcall.symm.trans hcall'
    · cases hcall.symm.trans hcall'
      exact heq

/-- Nor does a removal. -/
theorem exists_remove_eq (host : Host σ) (c : Collector σ) (t : Token) (s : σ) :
    ∃ answer r s', ∀ b : Buffer, ({ c with buffer := b } : Collector σ).remove host t s =
      ⟨answer, { c with registry := r, buffer := b }, s'⟩ := by
  unfold remove registrationOf
  dsimp only
  cases c.registry.find? t with
  | none => exact ⟨_, _, _, fun b => rfl⟩
  | some w => exact ⟨_, _, _, fun b => rfl⟩

/-- What comes of a request, but for the records that were there before: what a run reports, the
    cleared collector, and the host. -/
def settled : Reply × Collector σ × σ →
    Option (Except Error Nat × List Record) × Collector σ × σ
  | (reply, c, s) => (View.report? ⟨reply, c.events, c.watchCount⟩, c.cleared, s)

/-- **Records make no difference to a request.**  Two collectors that only differ in their records
    ask the host for the same, report the same if they run, and differ in nothing else after it. -/
theorem serve_of_cleared_eq (h : c'.cleared = c.cleared) (host : Host σ) (request : Request σ)
    (s : σ) : (c'.serve host s request).map settled = (c.serve host s request).map settled := by
  obtain ⟨b, hb, rfl⟩ := exists_buffer_of_cleared_eq h
  -- Two collectors with these buffers are the same once these are cleared.
  have hsettled : ∀ {reply : Reply} {r : Registry} {s₁ : σ},
      (∀ events watchCount, View.report? ⟨reply, events, watchCount⟩ = none) →
      settled (reply, { c with registry := r, buffer := b }, s₁) =
        settled (reply, { c with registry := r, buffer := c.buffer }, s₁) := by
    intro reply r s₁ hreply
    unfold settled cleared
    dsimp only
    rw [hreply, hreply, hb]
  cases request with
  | add fd mask =>
    obtain ⟨answer, r, s', hadd⟩ := exists_add_eq host c fd mask s
    unfold serve
    dsimp only [Option.map_some]
    rw [hadd b, show c.add host fd mask s = _ from hadd c.buffer]
    exact congrArg some (hsettled fun _ _ => rfl)
  | remove token =>
    obtain ⟨answer, r, s', hremove⟩ := exists_remove_eq host c token s
    unfold serve
    dsimp only [Option.map_some]
    rw [hremove b, show c.remove host token s = _ from hremove c.buffer]
    exact congrArg some (hsettled fun _ _ => rfl)
  | resize buffer =>
    have hcapacity : b.capacity = c.buffer.capacity := by
      rw [← b.capacity_clear, hb, Buffer.capacity_clear]
    unfold serve resize
    dsimp only
    rw [hcapacity]
    rfl
  | setHook hook =>
    unfold serve setHook settled cleared
    dsimp only [Option.map_some]
    rw [hb]
    rfl
  | run wakeFd wokeFd timeout waits =>
    unfold serve
    dsimp only
    rw [run_of_cleared_eq h]
  | runTicks wakeFd wokeFd ticks waits =>
    unfold serve runTicks
    dsimp only
    rw [run_of_cleared_eq h]

/-- What the runs among these requests report, and the host they lead to. -/
def reports (host : Host σ) (requests : List (Request σ)) (c : Collector σ) (s : σ) :
    Option (List (Except Error Nat × List Record) × σ) :=
  (c.account host requests s).map fun (views, s) => (views.filterMap View.report?, s)

/-- The first report is that of the first request, if it asks for a run. -/
theorem reports_cons (host : Host σ) (request : Request σ) (requests : List (Request σ))
    (c : Collector σ) (s : σ) :
    c.reports host (request :: requests) s =
      match c.serve host s request with
      | none => none
      | some (reply, c, s) =>
        (c.reports host requests s).map fun (reports, s) =>
          ((View.report? ⟨reply, c.events, c.watchCount⟩).toList ++ reports, s) := by
  unfold reports
  rw [account]
  rcases c.serve host s request with _ | ⟨reply, c₁, s₁⟩
  · rfl
  · dsimp only
    rw [Option.map_map, Option.map_map]
    congr 1
    funext ⟨views, s'⟩
    show (List.filterMap View.report? (_ :: views), s') = _
    rw [List.filterMap_cons]
    cases View.report? ⟨reply, c₁.events, c₁.watchCount⟩ with
    | none => rfl
    | some report => rfl

/-- **Records make no difference to later runs**, nor to the host. -/
theorem reports_of_cleared_eq (h : c'.cleared = c.cleared) (host : Host σ)
    (requests : List (Request σ)) (s : σ) :
    c'.reports host requests s = c.reports host requests s := by
  induction requests generalizing c c' s with
  | nil => rfl
  | cons request requests ih =>
    have hserve := serve_of_cleared_eq h host request s
    rw [reports_cons, reports_cons]
    rcases hc : c.serve host s request with _ | ⟨reply, c₁, s₁⟩
    · rw [hc] at hserve
      rw [Option.map_eq_none_iff.mp hserve]
    · rw [hc] at hserve
      obtain ⟨⟨reply', c₁', s₁'⟩, hc', hsettled⟩ := Option.map_eq_some_iff.mp hserve
      obtain ⟨hreport, hrest⟩ := Prod.mk.inj hsettled
      obtain ⟨hcleared, rfl⟩ := Prod.mk.inj hrest
      rw [hc']
      dsimp only
      rw [hreport, ih hcleared]

end Collector

/-! ### Every history -/

/-- **A failed wait does no harm.**  Take any run after any history, with any timeout, that is not
    called off.  Some of its waits are interrupted, and if it blocks, others have events that make
    no record, whatever is registered again for them.  Then a wait fails with another error.  The
    run fails with exactly this error, leaves no records and drains nothing.  All else of the
    collector is as it was: the watches with their armed flags, the lists of all descriptors, the
    version counter, and the number of slots.  Whatever is asked afterwards, of any host in any
    state, later runs report what they would have reported without this one. -/
theorem History.failed_wait_harmless {acts : List (Action (Traced σ))} {c : Collector (Traced σ)}
    {t : Traced σ} (h : History host.traced Overheard acts c t) {wakeFd : Fd} (wokeFd : Fd)
    {timeout : Timeout} {t₀ : Traced σ} (hgo : c.prepared wakeFd timeout t = (false, t₀))
    {e : SystemError} {n waits : Nat} {t₁ : Traced σ}
    (hfails : Collector.WaitFails host.traced c.emulated timeout (host.traced.now t₀) e n
      timeout.limit c.fresh t₀ t₁) (hn : n ≤ waits) :
    ∃ o, c.run host.traced wakeFd wokeFd timeout waits t = some o ∧
      o.answer = .error (.io e) ∧ o.collector.events = [] ∧
      o.collector.capacity = c.capacity ∧ o.collector = { c with buffer := o.collector.buffer } ∧
      o.state.since t.trace.length Exchange.drained? = [] ∧
      ∀ (host' : Host (Traced σ)) requests t',
        o.collector.reports host' requests t' = c.reports host' requests t' := by
  have hcollect := Collector.collect_mono _ _ _ _ hn hfails.collect_eq
  have hrun : c.run host.traced wakeFd wokeFd timeout waits t = some ⟨.error (.io e), c.cleared,
      if timeout.mayBlock then c.hook.waitFinished t₁ else t₁⟩ := by
    rw [Collector.run_of_not_calledOff (congrArg Prod.fst hgo), hgo, hcollect]
    rfl
  refine ⟨_, hrun, rfl, c.events_cleared, c.capacity_cleared, rfl, ?_, ?_⟩
  · rcases Collector.run_drains h.hook_dry h.enrolled hrun with ⟨n, hn, -, -⟩ | ⟨-, hdrained⟩
    · cases hn
    · exact hdrained
  · intro host' requests t'
    exact Collector.reports_of_cleared_eq c.cleared_cleared host' requests t'

open Scenario in
/-- On a poller without level mode, descriptor 5 has a persistent reader, which has just reported.
    A blocking run is interrupted, then registers 5 again after an event for a writer, which makes
    no record, and then its wait fails.  The next run reports what it would have reported without
    it. -/
theorem failed_wait_harmless_blocking :
    ∃ (c : Collector (Traced World)) (t : Traced World) (o : Outcome (Traced World) Nat)
      (world : World),
      History (World.host 0).traced Overheard
        [.add 5 (.read ∪ .persist) (.ok ⟨0, 0⟩), .run 7 8 .poll (.ok 1)] c t ∧
      c.events = [⟨5, 2⟩] ∧
      c.run (World.host 0).traced 7 8 .block 3 t = some o ∧ o.answer = .error (.io (.os 12)) ∧
      o.state.since t.trace.length Exchange.events? = [[⟨5, false, true, false, none⟩]] ∧
      o.collector.events = [] ∧ o.collector.registry = c.registry ∧
      (o.collector.reports (World.host 0).traced [.run 7 8 .poll 1] ⟨world, []⟩).map Prod.fst =
        some [(.ok 1, [⟨5, 2⟩])] := by
  have h₀ : History (World.host 0).traced Overheard [] _ _ :=
    .create (show Collector.create (World.host 0).traced (Buffer.ofCapacity 2) default
      ⟨World.answering false
        [.events [⟨5, true, false, false, none⟩], .failure 4 0,
          .events [⟨5, false, true, false, none⟩], .failure 12 0], []⟩ = (.ok _, _) from rfl)
  have h₁ := h₀.step (.add 5 (.read ∪ .persist) _ _) trivial
  have h₂ := h₁.step (.run (show Collector.run _ _ 7 8 .poll 1 _ = some _ from rfl)) trivial
  obtain ⟨c, t, t₁, world, h, hevents, hgo, hfails, hwaits, hnext⟩ :
      ∃ c t t₁ world, History (World.host 0).traced Overheard _ c t ∧ c.events = [⟨5, 2⟩] ∧
        c.prepared 7 .block t = (false, t) ∧
        Collector.WaitFails (World.host 0).traced c.emulated .block ((World.host 0).traced.now t)
          (.os 12) 3 Timeout.block.limit c.fresh t t₁ ∧
        (∀ o, c.run (World.host 0).traced 7 8 .block 3 t = some o →
          o.state.since t.trace.length Exchange.events? = [[⟨5, false, true, false, none⟩]]) ∧
        (c.reports (World.host 0).traced [.run 7 8 .poll 1] ⟨world, []⟩).map Prod.fst =
          some [(.ok 1, [⟨5, 2⟩])] :=
    ⟨_, _, _, World.answering false [.events [⟨5, true, false, false, none⟩]], h₂, rfl, rfl,
      .interrupted rfl (by decide) rfl (.quiet rfl rfl rfl rfl (.failed rfl (by decide))),
      (by rintro o ⟨⟩; rfl), rfl⟩
  obtain ⟨o, ho, hanswer, hnone, -, hcollector, -, hreports⟩ :=
    h.failed_wait_harmless 8 hgo hfails (Nat.le_refl _)
  exact ⟨c, t, o, world, h, hevents, ho, hanswer, hwaits o ho, hnone,
    by rw [hcollector], hreports (World.host 0).traced _ _ ▸ hnext⟩

end Readiness
