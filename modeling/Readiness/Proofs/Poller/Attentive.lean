import Readiness.Proofs.Course
import Readiness.Proofs.Deposits
import Readiness.Proofs.Poller.Reliable
import Readiness.Proofs.Wake.Drain

namespace Readiness

/-!
# Pollers that listen to a pipe

A wake is a byte in a pipe whose reading end the collector watches.  What is asked of the host then:

* `Poller.Attentive` — the poller refuses nothing, its waits fail or report what the enabled entries
  have to say, and the reading end of the pipe has something to say while there are bytes in it;
* `WaitHook.SendsWakes` — the hook writes to the pipe at most, and only before a wait;
* `Attentive.deliver` and `Attentive.step_serves` — deliveries and steps keep the table in order;
* `Attentive.exists_record` — the events of a wait with bytes in the pipe make a record for its
  reading end, if somebody watches that and there is room;
* `Attentive.pipe_finish_of_mem` — an iteration with such a record empties the pipe in the end.
-/

namespace Poller

/-! ### The poller and the pipe -/

/-- The poller behind the host keeps `table` and does as it is told, and `wokeFd` is the reading end
    of `pipe`.  A wait may fail.  Otherwise it reports what the enabled entries have to say, each once
    and in any order, and disables one-shot entries by that. -/
structure Attentive {ρ σ : Type} (respond : Response ρ) (ready : σ → Fd → ρ) (table : σ → Table)
    (pipe : σ → Channel) (wokeFd : Fd) (host : Host σ) : Prop extends Obedient table host where
  /-- Events carry the keys of their entries. -/
  key_eq : ∀ {key x interest e}, respond key x interest = some e → e.key = key
  /-- A pipe with bytes in it can be read, and readers are told. -/
  heard : ∀ {s key interest}, (pipe s).hasBytes = true → interest.readable = true →
    ∃ e, respond key (ready s wokeFd) interest = some e ∧ e.readable = true
  openPoller : ∀ {s hasLevel s'}, host.openPoller s = (.ok hasLevel, s') → table s' = ∅
  wait_error : ∀ {limit s err s'}, host.wait limit s = (.error err, s') →
    table s' = table s ∧ pipe s' = pipe s
  wait_ok : ∀ {limit s es s'}, host.wait limit s = (.ok es, s') →
    table s' = (table s).report es ∧ pipe s' = pipe s ∧
      ∃ order : List Fd, order.Nodup ∧
        (∀ fd, fd ∈ order ↔ (table s).isRegistered fd = true) ∧
        es = order.filterMap ((table s).answer? respond (ready s))
  pipe_modify : ∀ fd r s, pipe (host.modify fd r s).2 = pipe s
  pipe_log : ∀ e s, pipe (host.log e s) = pipe s
  /-- The pipe is drained in as many reads as it takes. -/
  pipe_drain : ∀ s, ∃ reads, (pipe s).pending < reads ∧
    pipe (host.drain wokeFd s).2 = (Wake.drain (fun n ch => ch.read n) reads 0 (pipe s)).2.2

end Poller

/-- A hook that may send wakes before a wait, and does nothing else to the poller and the pipe. -/
structure WaitHook.SendsWakes {σ : Type} (table : σ → Poller.Table) (pipe : σ → Channel)
    (hook : WaitHook σ) : Prop where
  table_prepareToWait : ∀ fd s, table (hook.prepareToWait fd s).2 = table s
  pipe_prepareToWait : ∀ fd s, ∃ n, pipe (hook.prepareToWait fd s).2 = (pipe s).wakes n
  table_waitFinished : ∀ s, table (hook.waitFinished s) = table s
  pipe_waitFinished : ∀ s, pipe (hook.waitFinished s) = pipe s

theorem WaitHook.sendsWakes_none {σ : Type} (table : σ → Poller.Table) (pipe : σ → Channel) :
    (WaitHook.none : WaitHook σ).SendsWakes table pipe where
  table_prepareToWait := fun _ _ => rfl
  pipe_prepareToWait := fun _ _ => ⟨0, rfl⟩
  table_waitFinished := fun _ => rfl
  pipe_waitFinished := fun _ => rfl

namespace Poller.Attentive

variable {ρ σ : Type} {respond : Response ρ} {ready : σ → Fd → ρ} {table : σ → Table}
  {pipe : σ → Channel} {wokeFd : Fd} {host : Host σ} {roll : List Nat} {s s₁ : σ}

/-- A trace changes nothing. -/
theorem traced (h : Attentive respond ready table pipe wokeFd host) :
    Attentive respond (fun t => ready t.state) (fun t => table t.state) (fun t => pipe t.state)
      wokeFd host.traced where
  add := by
    intro fd r t
    obtain ⟨s', hcall, htable⟩ := h.add fd r t.state
    exact ⟨⟨s', _⟩, Traced.note_eq hcall, htable⟩
  modify := by
    intro fd r t
    obtain ⟨s', hcall, htable⟩ := h.modify fd r t.state
    exact ⟨⟨s', _⟩, Traced.note_eq hcall, htable⟩
  delete := by
    intro fd t
    obtain ⟨s', hcall, htable⟩ := h.delete fd t.state
    exact ⟨⟨s', _⟩, Traced.note_eq hcall, htable⟩
  drain := fun fd t => h.drain fd t.state
  log := fun e t => h.log e t.state
  key_eq := h.key_eq
  heard := h.heard
  openPoller := by
    intro t hasLevel t' hopen
    have hanswer : (host.openPoller t.state).1 = .ok hasLevel :=
      show (host.traced.openPoller t).1 = _ from congrArg Prod.fst hopen
    have hstate : (host.openPoller t.state).2 = t'.state :=
      show (host.traced.openPoller t).2.state = _ from congrArg (fun x => x.2.state) hopen
    exact h.openPoller (Prod.ext hanswer hstate)
  wait_error := fun hw => h.wait_error (Traced.of_note hw).1
  wait_ok := fun hw => h.wait_ok (Traced.of_note hw).1
  pipe_modify := fun fd r t => h.pipe_modify fd r t.state
  pipe_log := fun e t => h.pipe_log e t.state
  pipe_drain := fun t => h.pipe_drain t.state

/-! ### The table stays in order -/

/-- **A wait and the delivery of its events** leave every descriptor with an entry that fits, and
    the pipe alone. -/
theorem deliver (h : Attentive respond ready table pipe wokeFd host) {emulated : Bool}
    {d : Delivery} (he : d.registry.Enrolled roll) (hs : (table s).Serves emulated d.registry [])
    {limit : Option Duration} {es : List Event} (hw : host.wait limit s = (.ok es, s₁)) :
    ∃ s₂, Collector.Delivers host emulated es d s₁ (es.foldl Delivery.fanOut d) s₂ ∧
      Collector.deliver host emulated es d s₁ =
        ((es.foldl Delivery.fanOut d).result, es.foldl Delivery.fanOut d, s₂) ∧
      (table s₂).Serves emulated (es.foldl Delivery.fanOut d).registry [] ∧ pipe s₂ = pipe s := by
  obtain ⟨htable, hpipe, order, hnd, -, hes⟩ := h.wait_ok hw
  obtain ⟨s₂, hd, heq⟩ := h.deliver_eq emulated es d s₁
  refine ⟨s₂, hd, heq, hd.serves h.table_modify he ?_ ?_ ?_, ?_⟩
  · rw [htable]
    exact hs.report es
  · rw [hes]
    exact hs.key_eq_of_mem_answers h.key_eq
  · rw [hes]
    exact hs.nodup_answers h.key_eq hnd
  · refine hd.keeps (fun s' => pipe s' = pipe s) ?_ hpipe
    intro fd r s' s'' hp hm
    rw [← hp, ← h.pipe_modify fd r s', hm]

/-- An iteration leaves every descriptor with an entry that fits. -/
theorem collect_serves (h : Attentive respond ready table pipe wokeFd host) {emulated : Bool}
    {timeout : Timeout} {start : Duration} {waits : Nat} {limit : Option Duration} {d : Delivery}
    {r : Except Error Unit × Delivery × σ}
    (hr : Collector.collect host emulated timeout start waits limit d s = some r)
    (he : d.registry.Enrolled roll) (hs : (table s).Serves emulated d.registry []) :
    (table r.2.2).Serves emulated r.2.1.registry [] := by
  refine (Collector.collect_induction
    (fun d s => d.registry.Enrolled roll ∧ (table s).Serves emulated d.registry []) ?_ ?_ hr
    ⟨he, hs⟩).2
  · rintro limit d s e s' ⟨he, hs⟩ hw
    rw [(h.wait_error hw).1]
    exact ⟨he, hs⟩
  · rintro limit d s es s' ⟨he, hs⟩ hw
    obtain ⟨s₂, -, heq, hserves, -⟩ := h.deliver he hs hw
    refine ⟨(Collector.deliver_firesTo _ _ _ _ _).enrolled he, ?_⟩
    rw [heq]
    exact hserves

/-- **Every step** leaves every descriptor with an entry that fits. -/
theorem step_serves (h : Attentive respond ready table pipe wokeFd host) {a : Action σ}
    {c c' : Collector σ} {s' : σ} (hstep : Step host a c s c' s')
    (hh : c.hook.SendsWakes table pipe) (he : c.registry.Enrolled roll)
    (hs : (table s).Serves c.emulated c.registry []) :
    (table s').Serves c'.emulated c'.registry [] := by
  cases hstep with
  | add fd mask =>
    obtain ⟨s', ho, hs'⟩ := h.add_eq he hs fd mask
    rw [ho]
    exact hs'
  | remove t =>
    rcases c.remove_cases host t s with ⟨-, ho⟩ | ⟨w, -, -, hfind, -, -⟩
    · rw [ho]
      exact hs
    · obtain ⟨s', ho, hs'⟩ := h.remove_of_find? he hs hfind
      rw [ho]
      exact hs'
  | resize b =>
    show (table (host.log _ s)).Serves _ _ _
    rw [h.log]
    exact hs
  | setHook hook => exact hs
  | @run _ _ wakeFd wokeFd' timeout _ _ ho =>
    rcases Collector.run_cases ho with ⟨-, -, rfl⟩ | ⟨s₀, s₁, answer, d, hs₀, hc, rfl⟩
    · -- The hook called the run off.
      show (table (host.log _ _)).Serves _ _ _
      rw [h.log, hh.table_prepareToWait]
      exact hs
    · have hstart : table s₀ = table s := by
        rw [hs₀]
        split
        · exact hh.table_prepareToWait _ _
        · rfl
      have hend : table (if timeout.mayBlock then c.hook.waitFinished s₁ else s₁) = table s₁ := by
        split
        · exact hh.table_waitFinished _
        · rfl
      obtain ⟨buffer, hb⟩ := Collector.finish_collector host
        { c with registry := d.registry, buffer := d.buffer } wokeFd' answer
        (if timeout.mayBlock then c.hook.waitFinished s₁ else s₁)
      rw [hb, h.table_finish, hend]
      refine h.collect_serves hc he ?_
      rw [hstart]
      exact hs

/-- **The table is in order** at every point of a course on which nothing else changes it. -/
theorem course_serves (h : Attentive respond ready table pipe wokeFd host)
    {lawful : WaitHook σ → Prop} (hlawful : ∀ {hook}, lawful hook → hook.SendsWakes table pipe)
    (hnone : lawful .none)
    {meanwhile : σ → σ → Prop} (hmeanwhile : ∀ {s s'}, meanwhile s s' → table s' = table s)
    {c : Collector σ} (hc : Course host lawful meanwhile c s) :
    (table s).Serves c.emulated c.registry [] := by
  induction hc with
  | @create buffer timeUnit s s' c hc =>
    have hempty : table s' = ∅ := by
      unfold Collector.create at hc
      rcases hopen : host.openPoller s with ⟨err | hasLevel, s₁⟩
      · rw [hopen] at hc
        cases hc
      · rw [hopen] at hc
        cases hc
        rw [h.log]
        cases hasLevel with
        | true => exact h.openPoller hopen
        | false =>
          show table (host.log _ s₁) = ∅
          rw [h.log]
          exact h.openPoller hopen
    rw [(Collector.create_eq hc).1, hempty]
    exact Table.Serves.empty _
  | step hc hs ha ih =>
    obtain ⟨roll, he⟩ := hc.enrolled
    exact h.step_serves hs (hlawful (hc.hook_lawful hnone)) he ih
  | elapse _ hm ih =>
    rw [hmeanwhile hm]
    exact ih

/-! ### Bytes in the pipe are heard -/

/-- **A wait with bytes in the pipe reports its reading end** as readable, if an armed watch asks
    for that. -/
theorem exists_event (h : Attentive respond ready table pipe wokeFd host) {r : Registry}
    {emulated : Bool} (he : r.Enrolled roll) (hs : (table s).Serves emulated r []) {key : Nat}
    {w : Watch} (hw : r.watch? key = some w) (hfd : w.fd = wokeFd) (ha : w.armed = true)
    (hread : w.mask.contains .read = true) (hpipe : (pipe s).hasBytes = true)
    {limit : Option Duration} {es : List Event} (hwait : host.wait limit s = (.ok es, s₁)) :
    ∃ e ∈ es, e.fd = wokeFd ∧ e.readable = true := by
  obtain ⟨-, -, order, -, hmem, rfl⟩ := h.wait_ok hwait
  have hasks : r.Asks wokeFd .read := ⟨key, w, hw, hfd, ha, hread⟩
  have hawaits : r.awaits wokeFd = true := (he.awaits_iff wokeFd).mpr (Or.inl hasks)
  have hreadable : (r.armedMask wokeFd).interest.readable = true :=
    (he.contains_armedMask_iff Mask.isFlag_read wokeFd).mpr hasks
  obtain ⟨e, hanswer, hr⟩ := h.heard hpipe hreadable
  have hkey := h.key_eq hanswer
  have hsame : (table s).answer? respond (ready s) wokeFd = _ := hs.answer?_of_awaits he hawaits
  rw [← hsame] at hanswer
  exact ⟨e, List.mem_filterMap.mpr
    ⟨wokeFd, (hmem wokeFd).mpr (hs.isRegistered_of_awaits he hawaits), hanswer⟩,
    Event.fd_eq_of_key hkey, hr⟩

/-- **Bytes in the pipe make a record**, if a watch that persists asks for them and the buffer does
    not overflow. -/
theorem exists_record (h : Attentive respond ready table pipe wokeFd host) {c : Collector σ}
    (he : c.registry.Enrolled roll) (hs : (table s).Serves c.emulated c.registry []) {key : Nat}
    {w : Watch} (hw : c.registry.watch? key = some w) (hfd : w.fd = wokeFd) (ha : w.armed = true)
    (hread : w.mask.contains .read = true) (hp : w.mask.isPersistent = true)
    (hpipe : (pipe s).hasBytes = true) {limit : Option Duration} {es : List Event}
    (hwait : host.wait limit s = (.ok es, s₁))
    (hok : (es.foldl Delivery.fanOut c.fresh).result = .ok ()) :
    ∃ x ∈ (es.foldl Delivery.fanOut c.fresh).buffer.records, x.fd = wokeFd := by
  obtain ⟨e, hmem, hefd, hr⟩ := h.exists_event he hs hw hfd ha hread hpipe hwait
  obtain ⟨x, hx, -, hxfd⟩ := Roster.exists_mem_emissions (he.mem_roster_iff.mpr hw) hp hmem
    (Watch.reports_of_readable (hfd.trans hefd.symm) ha hread hr)
  have hfollows := Delivery.follows_foldl_fanOut he c.buffer es
  have hrecords : (es.foldl Delivery.fanOut c.fresh).buffer.records = _ := hfollows.records_eq
  rw [List.take_of_length_le ((Collector.result_fanOut_eq_ok_iff he es).mp hok)] at hrecords
  rw [hrecords]
  exact ⟨x.2, List.mem_map_of_mem hx, hxfd.trans hefd⟩

/-- **An iteration that made a record for the pipe empties it.** -/
theorem pipe_finish_of_mem (h : Attentive respond ready table pipe wokeFd host) {c : Collector σ}
    {x : Record} (hx : x ∈ c.buffer.records) (hfd : x.fd = wokeFd) (s : σ) :
    (pipe (Collector.finish host c wokeFd (.ok ()) s).state).pending = 0 := by
  have hwoken : c.buffer.countFd wokeFd ≠ 0 := by
    unfold Buffer.countFd
    rw [Ne, List.countP_eq_zero, not_forall]
    exact ⟨x, fun hnone => hnone hx (decide_eq_true hfd)⟩
  unfold Collector.finish
  dsimp only
  rw [h.pipe_log, if_neg hwoken, h.pipe_log]
  obtain ⟨reads, hreads, hdrain⟩ := h.pipe_drain s
  obtain ⟨ch, -, hch, -, heq⟩ := Channel.readable_pipe.drain_eq (s := pipe s) trivial
  have hall : Wake.drain (fun n ch => ch.read n) reads 0 (pipe s) =
      (0 + (pipe s).pending, none, ch) := heq reads 0 hreads
  rw [hdrain, hall]
  exact hch

/-- Without records the pipe is left alone. -/
theorem pipe_finish_of_nil (h : Attentive respond ready table pipe wokeFd host) {c : Collector σ}
    (hnil : c.buffer.records = []) (answer : Except Error Unit) (s : σ) :
    pipe (Collector.finish host c wokeFd answer s).state = pipe s := by
  cases answer with
  | error e => rfl
  | ok u =>
    have hcount : c.buffer.countFd wokeFd = 0 := by
      unfold Buffer.countFd
      rw [hnil]
      rfl
    unfold Collector.finish
    dsimp only
    rw [h.pipe_log, if_pos hcount]

end Poller.Attentive

end Readiness
