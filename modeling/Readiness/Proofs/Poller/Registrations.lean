import Readiness.Proofs.Poller.Settled
import Readiness.Scenario.Session

namespace Readiness

/-!
# The poller serves the armed watches

The registry of a collector and the table of its poller are changed by separate calls, and a poller
disables one-shot entries on its own.  What keeps them together is `Poller.Table.Serves`.

* `Collector.Delivers.serves` / `Collector.deliver_serves` — each event of a wait is settled by its
  fan-out and, if need be, one registration; the descriptors whose events are still to come are not
  touched;
* `Cooperative` — the steps of a history in which removals and runs are never refused;
* `Step.serves` / `History.serves` — every such step, and history, keeps the table in order.
-/

variable {σ : Type} {host : Host σ}

/-! ### Deliveries -/

/-- **One event.**  Its fan-out changes the union of its descriptor, whose entry has reported.  The
    entry fits the new union as it is, or the descriptor is registered again. -/
theorem Delivery.serves_fanOut {t : Poller.Table} {emulated : Bool} {d : Delivery} {e : Event}
    {pending : List UInt64} {roll : List Nat} (he : d.registry.Enrolled roll)
    (hs : t.Serves emulated d.registry (e.key :: pending)) (hkey : e.key = Fd.toKey e.fd)
    (hnot : e.key ∉ pending) :
    (rearm? emulated d (d.fanOut e) e = none ∧
      t.Serves emulated (d.fanOut e).registry pending) ∨
    ∃ r, rearm? emulated d (d.fanOut e) e = some r ∧
      (t.register e.fd r).Serves emulated (d.fanOut e).registry pending := by
  have hsame := sameBut_fanOut he e
  have hother : ∀ {fd}, fd ≠ e.fd →
      (Fd.toKey fd ∈ pending ↔ Fd.toKey fd ∈ e.key :: pending) := by
    intro fd hfd
    have hne : Fd.toKey fd ≠ e.key := by
      rw [hkey]
      exact fun h => hfd (Fd.toKey_inj.mp h)
    rw [List.mem_cons, or_iff_right hne]
  rcases rearm?_cases emulated d (d.fanOut e) e with ⟨hnone, hquiet⟩ | hsome
  · -- Not registered again: the entry has reported, and fits what is left.
    refine Or.inl ⟨hnone, hs.update hsame (fun _ => rfl) hother hs.key_eq ?_⟩
    intro hne
    rw [(d.fanOut_firesTo e).chain_eq] at hne
    obtain ⟨entry, hsettled, hfind⟩ := hs.settled hne
    rw [← hkey, if_pos List.mem_cons_self] at hfind
    refine ⟨entry.acknowledge, ?_, ?_⟩
    · rcases hquiet with hempty | ⟨heq, hlevel⟩
      · have hp := (d.fanOut_firesTo e).isPersistent_armedMask he e.fd
        exact hsettled.acknowledge_of_isEmpty hp hempty
      · rw [heq]
        exact hsettled.acknowledge_of_level hlevel
    · rw [hfind, ← hkey, if_neg hnot]
  · -- Registered again: whatever the entry was, it is new.
    refine Or.inr ⟨_, hsome, ?_⟩
    rw [hkey] at hnot ⊢
    exact hs.register hsame hother hnot

namespace Collector

/-- **Delivered events** leave every descriptor with an entry that fits, on any host whose table
    follows the registrations it accepts. -/
theorem Delivers.serves {table : σ → Poller.Table} {emulated : Bool} {es : List Event}
    {d d' : Delivery} {s s' : σ} {roll : List Nat}
    (hmodify : ∀ {fd r s s'}, host.modify fd r s = (.ok (), s') →
      table s' = (table s).register fd r)
    (h : Delivers host emulated es d s d' s') (he : d.registry.Enrolled roll)
    (hs : (table s).Serves emulated d.registry (es.map Event.key))
    (hkeys : ∀ e ∈ es, e.key = Fd.toKey e.fd) (hnd : (es.map Event.key).Nodup) :
    (table s').Serves emulated d'.registry [] := by
  induction h with
  | nil d s => exact hs
  | @keep e es d d' s s' hr _ ih =>
    rw [List.map_cons, List.nodup_cons] at hnd
    -- The keys of the later events are pending before and after this one.
    rcases Delivery.serves_fanOut he hs (hkeys e List.mem_cons_self) hnd.1 with
      ⟨-, hs'⟩ | ⟨r, hr', -⟩
    · exact ih ((d.fanOut_firesTo e).enrolled he) hs'
        (fun e' h => hkeys e' (List.mem_cons_of_mem _ h)) hnd.2
    · rw [hr] at hr'
      cases hr'
  | @rearm e es r d d' s s₁ s' hr hm _ ih =>
    rw [List.map_cons, List.nodup_cons] at hnd
    rcases Delivery.serves_fanOut he hs (hkeys e List.mem_cons_self) hnd.1 with
      ⟨hr', -⟩ | ⟨r', hr', hs'⟩
    · rw [hr] at hr'
      cases hr'
    · rw [hr] at hr'
      cases hr'
      rw [← hmodify hm] at hs'
      exact ih ((d.fanOut_firesTo e).enrolled he) hs'
        (fun e' h => hkeys e' (List.mem_cons_of_mem _ h)) hnd.2

/-- **A delivery whose calls were accepted** leaves every descriptor with an entry that fits. -/
theorem deliver_serves {emulated : Bool} {roll : List Nat} (es : List Event) (d : Delivery)
    (t : Traced σ) {n : Nat} (hn : n ≤ t.trace.length) (he : d.registry.Enrolled roll)
    (hs : t.table.Serves emulated d.registry (es.map Event.key))
    (hkeys : ∀ e ∈ es, e.key = Fd.toKey e.fd) (hnd : (es.map Event.key).Nodup)
    (hacc : (deliver host.traced emulated es d t).2.2.AcceptedSince n) :
    (deliver host.traced emulated es d t).2.2.table.Serves emulated
      (deliver host.traced emulated es d t).2.1.registry [] := by
  obtain ⟨d', t', h, heq⟩ := delivers_of_accepted hn hacc
  rw [heq]
  exact h.serves (fun hm => Traced.table_append (Traced.of_note hm).2) he hs hkeys hnd

end Collector

/-! ### Iterations -/

/-- If nothing after the first `n` exchanges was refused and the poller was faithful, every
    descriptor has an entry that fits.  What is known of a whole trace is known of each point of it,
    so it is assumed there. -/
structure Traced.Serving (n : Nat) (emulated : Bool) (r : Registry) (t : Traced σ) : Prop where
  length_le : n ≤ t.trace.length
  serves : t.AcceptedSince n → t.Faithful → t.table.Serves emulated r []

namespace Traced.Serving

variable {n : Nat} {emulated : Bool} {r : Registry} {t t' : Traced σ} {limit : Option Duration}
  {es : List Event}

theorem aside (h : t.Serving n emulated r) (ha : t.Aside t') : t'.Serving n emulated r where
  length_le := Nat.le_trans h.length_le ha.appends.length_le
  serves := by
    intro hacc hf
    rw [ha.table_eq]
    exact h.serves (hacc.mono ha.appends) (hf.mono ha.appends)

/-- A wait that fails changes nothing. -/
theorem wait_error (h : t.Serving n emulated r) {err : SystemError}
    (hw : host.traced.wait limit t = (.error err, t')) : t'.Serving n emulated r := by
  have htrace := (Traced.of_note hw).2
  have hgrows : t.trace <+: t'.trace := ⟨_, htrace.symm⟩
  refine ⟨Nat.le_trans h.length_le hgrows.length_le, fun hacc hf => ?_⟩
  rw [Traced.table_append htrace]
  exact h.serves (hacc.mono hgrows) (hf.mono hgrows)

/-- The events of a wait on a faithful poller are named by their descriptors, each at most once. -/
theorem keys_of_wait (h : t.Serving n emulated r)
    (hw : host.traced.wait limit t = (.ok es, t')) (hacc : t'.AcceptedSince n) (hf : t'.Faithful) :
    (∀ e ∈ es, e.key = Fd.toKey e.fd) ∧ (es.map Event.key).Nodup := by
  have htrace := (Traced.of_note hw).2
  have hgrows : t.trace <+: t'.trace := ⟨_, htrace.symm⟩
  have hallows := hf.last htrace
  exact ⟨(h.serves (hacc.mono hgrows) (hf.mono hgrows)).key_eq_of_allows hallows, hallows.1⟩

/-- The delivery of a wait settles its events. -/
theorem wait_deliver {d : Delivery} {roll : List Nat} (h : t.Serving n emulated d.registry)
    (he : d.registry.Enrolled roll) (hw : host.traced.wait limit t = (.ok es, t')) :
    (Collector.deliver host.traced emulated es d t').2.2.Serving n emulated
      (Collector.deliver host.traced emulated es d t').2.1.registry := by
  have htrace := (Traced.of_note hw).2
  have hwait : t.trace <+: t'.trace := ⟨_, htrace.symm⟩
  have hdeliver := Collector.deliver_appends host emulated es d t'
  have hn : n ≤ t'.trace.length := Nat.le_trans h.length_le hwait.length_le
  refine ⟨Nat.le_trans hn hdeliver.length_le, fun hacc hf => ?_⟩
  have hacc' := hacc.mono hdeliver
  have hf' := hf.mono hdeliver
  obtain ⟨hkeys, hnd⟩ := h.keys_of_wait hw hacc' hf'
  refine Collector.deliver_serves es d t' hn he ?_ hkeys hnd hacc
  rw [Traced.table_append htrace]
  exact (h.serves (hacc'.mono hwait) (hf'.mono hwait)).report es

end Traced.Serving

namespace Collector

/-- **An iteration on a faithful poller** whose registrations were accepted leaves every descriptor
    with an entry that fits, whether its waits failed, were interrupted or overflowed the buffer. -/
theorem collect_serves {emulated : Bool} {timeout : Timeout} {start : Duration} {waits : Nat}
    {limit : Option Duration} {d : Delivery} {t : Traced σ} {n : Nat} {roll : List Nat}
    {r : Except Error Unit × Delivery × Traced σ}
    (hr : collect host.traced emulated timeout start waits limit d t = some r)
    (hn : n ≤ t.trace.length) (he : d.registry.Enrolled roll)
    (hs : t.table.Serves emulated d.registry []) (hacc : r.2.2.AcceptedSince n)
    (hf : r.2.2.Faithful) : r.2.2.table.Serves emulated r.2.1.registry [] := by
  have hP := collect_induction
    (fun d t => d.registry.Enrolled roll ∧ t.Serving n emulated d.registry)
    (fun hp hw => ⟨hp.1, hp.2.wait_error hw⟩)
    (fun hp hw => ⟨(deliver_firesTo _ _ _ _ _).enrolled hp.1, hp.2.wait_deliver hp.1 hw⟩) hr
    ⟨he, hn, fun _ _ => hs⟩
  exact hP.2.serves hacc hf

end Collector

/-! ### Hooks -/

/-- `t'` comes after `t`, and the poller is as it was. -/
structure Traced.Idle (t t' : Traced σ) : Prop where
  /-- The trace only grew. -/
  appends : t.trace <+: t'.trace
  /-- The table is the same. -/
  table_eq : t'.table = t.table

namespace Traced.Idle

theorem refl (t : Traced σ) : t.Idle t := ⟨List.prefix_refl _, rfl⟩

theorem trans {t t' t'' : Traced σ} (h : t.Idle t') (h' : t'.Idle t'') : t.Idle t'' :=
  ⟨h.appends.trans h'.appends, h'.table_eq.trans h.table_eq⟩

end Traced.Idle

theorem Traced.Aside.idle {t t' : Traced σ} (h : t.Aside t') : t.Idle t' :=
  ⟨h.appends, h.table_eq⟩

/-- A hook that does not interfere with the poller. -/
structure WaitHook.Discreet (hook : WaitHook (Traced σ)) : Prop where
  prepareToWait : ∀ (fd : Fd) (t : Traced σ), t.Idle (hook.prepareToWait fd t).2
  waitFinished : ∀ t : Traced σ, t.Idle (hook.waitFinished t)

theorem WaitHook.Aside.discreet {hook : WaitHook (Traced σ)} (h : hook.Aside) : hook.Discreet where
  prepareToWait := fun fd t => (h.prepareToWait fd t).idle
  waitFinished := fun t => (h.waitFinished t).idle

namespace Collector

/-! ### Operations -/

/-- **A run on a faithful poller** whose registrations were accepted leaves every descriptor with an
    entry that fits. -/
theorem run_serves {c : Collector (Traced σ)} (hh : c.hook.Discreet) {wakeFd wokeFd : Fd}
    {timeout : Timeout} {waits : Nat} {t : Traced σ} {o : Outcome (Traced σ) Nat}
    (ho : c.run host.traced wakeFd wokeFd timeout waits t = some o) {roll : List Nat}
    (he : c.registry.Enrolled roll) :
    t.trace <+: o.state.trace ∧
      (t.table.Serves c.emulated c.registry [] → o.state.AcceptedSince t.trace.length →
        o.state.Faithful → o.state.table.Serves c.emulated o.collector.registry []) := by
  rcases run_cases ho with ⟨-, -, rfl⟩ | ⟨t₀, t₁, answer, d, ht₀, hc, rfl⟩
  · -- The hook called the run off, and the poller was not asked anything.
    have hidle := (hh.prepareToWait wakeFd t).trans
      (Traced.Aside.log host .calledOff (c.hook.prepareToWait wakeFd t).2).idle
    refine ⟨hidle.appends, fun hs _ _ => ?_⟩
    show (host.traced.log _ _).table.Serves _ _ _
    rw [hidle.table_eq]
    exact hs
  · -- The iteration lies between calls that do not concern the poller.
    have hstart : t.Idle t₀ := by
      rw [ht₀]
      split
      · exact hh.prepareToWait wakeFd t
      · exact Traced.Idle.refl t
    have hcollect := collect_appends hc
    have hend : t₁.Idle (if timeout.mayBlock then c.hook.waitFinished t₁ else t₁) := by
      split
      · exact hh.waitFinished t₁
      · exact Traced.Idle.refl t₁
    have hfinish := hend.trans (finish_aside host
      { c with registry := d.registry, buffer := d.buffer } wokeFd answer _).idle
    refine ⟨(hstart.appends.trans hcollect).trans hfinish.appends, ?_⟩
    intro hs hacc hf
    obtain ⟨buffer, hb⟩ := finish_collector host.traced
      { c with registry := d.registry, buffer := d.buffer } wokeFd answer
      (if timeout.mayBlock then c.hook.waitFinished t₁ else t₁)
    rw [hb, hfinish.table_eq]
    refine collect_serves hc hstart.appends.length_le he ?_ (hacc.mono hfinish.appends)
      (hf.mono hfinish.appends)
    rw [hstart.table_eq]
    exact hs

/-- A new collector has made no call on its poller. -/
theorem create_trace {buffer : Buffer} {timeUnit : TimeUnit} {t t' : Traced σ}
    {c : Collector (Traced σ)} (hc : create host.traced buffer timeUnit t = (.ok c, t')) :
    t'.trace = [] := by
  unfold create at hc
  rcases hopen : host.traced.openPoller t with ⟨answer, t₁⟩
  have htrace : t₁.trace = [] := (congrArg (fun x => x.2.trace) hopen).symm
  rw [hopen] at hc
  rcases answer with e | hasLevel
  · cases hc
  · cases hc
    show Traced.trace (if hasLevel then t₁ else host.traced.log .emulatingLevel t₁) = []
    split
    · exact htrace
    · exact htrace

/-- What an addition asks of the poller. -/
theorem addCall_traced {c : Collector (Traced σ)} {fd : Fd} {mask : Mask} {t t' : Traced σ}
    {a : Except SystemError Unit} (h : c.addCall host.traced fd mask t = (a, t')) :
    ∃ x, t'.trace = t.trace ++ [x] ∧ ∀ table : Poller.Table, table.observe x =
      match a with
      | .ok () => table.register fd (c.registrationOf (c.registry.insert fd mask) fd)
      | .error _ => table := by
  unfold addCall at h
  split at h
  · exact ⟨_, (Traced.of_note h).2, fun table => by cases a <;> rfl⟩
  · exact ⟨_, (Traced.of_note h).2, fun table => by cases a <;> rfl⟩

/-- What a removal asks of the poller. -/
theorem removeCall_traced {c : Collector (Traced σ)} {r : Registry} {fd : Fd} {t t' : Traced σ}
    {a : Except SystemError Unit} (h : c.removeCall host.traced r fd t = (a, t')) :
    ∃ x, t'.trace = t.trace ++ [x] ∧ x.accepted = a.isOk ∧
      (∀ table : Poller.Table, a = .ok () → table.observe x =
        if r.chain fd = [] then table.unregister fd
        else table.register fd (c.registrationOf r fd)) ∧
      ∀ (table : Poller.Table) (err : SystemError), a = .error err → table.observe x = table := by
  unfold removeCall at h
  split at h
  · next hchain =>
    refine ⟨_, (Traced.of_note h).2, rfl, ?_, ?_⟩
    · rintro table rfl
      rw [if_pos hchain]
      rfl
    · rintro table err rfl
      rfl
  · next hchain =>
    refine ⟨_, (Traced.of_note h).2, rfl, ?_, ?_⟩
    · rintro table rfl
      rw [if_neg hchain]
      rfl
    · rintro table err rfl
      rfl

/-- **An addition**, whether the poller takes it or not, leaves every descriptor with an entry that
    fits. -/
theorem add_serves (host : Host σ) (c : Collector (Traced σ)) (fd : Fd) (mask : Mask) (t : Traced σ)
    {roll : List Nat} (he : c.registry.Enrolled roll) :
    t.trace <+: (c.add host.traced fd mask t).state.trace ∧
      (t.table.Serves c.emulated c.registry [] →
        (c.add host.traced fd mask t).state.table.Serves c.emulated
          (c.add host.traced fd mask t).collector.registry []) := by
  rcases c.add_cases host.traced fd mask t with ⟨e, t', hcall, h⟩ | ⟨t', hcall, h⟩
  · obtain ⟨x, htrace, hx⟩ := addCall_traced hcall
    rw [h]
    refine ⟨⟨_, htrace.symm⟩, fun hs => ?_⟩
    -- The table is as it was, and so is what the watches ask for.
    have htable : t'.table = t.table := by rw [Traced.table_append htrace, hx]
    show t'.table.Serves _ _ _
    rw [htable]
    exact hs.congr (he.chain_forget_insert fd mask) (he.armedMask_forget_insert fd mask)
  · obtain ⟨x, htrace, hx⟩ := addCall_traced hcall
    rw [h]
    refine ⟨⟨_, htrace.symm⟩, fun hs => ?_⟩
    have htable : (host.traced.log (.watching fd mask) t').table = t'.table := rfl
    show (host.traced.log (.watching fd mask) t').table.Serves _ (c.registry.insert fd mask) _
    rw [htable, Traced.table_append htrace, hx]
    exact hs.register (he.sameBut_insert fd mask) (fun _ => Iff.rfl) List.not_mem_nil

/-- **A removal** that the poller did not refuse leaves every descriptor with an entry that fits. -/
theorem remove_serves (host : Host σ) (c : Collector (Traced σ)) (token : Token) (t : Traced σ)
    {roll : List Nat} (he : c.registry.Enrolled roll) :
    t.trace <+: (c.remove host.traced token t).state.trace ∧
      (t.table.Serves c.emulated c.registry [] →
        (c.remove host.traced token t).state.AcceptedSince t.trace.length →
        (c.remove host.traced token t).state.table.Serves c.emulated
          (c.remove host.traced token t).collector.registry []) := by
  rcases c.remove_cases host.traced token t with ⟨-, h⟩ | ⟨w, a, t', hfind, hcall, h⟩
  · rw [h]
    exact ⟨List.prefix_refl _, fun hs _ => hs⟩
  · obtain ⟨x, htrace, haccepted, hx, -⟩ := removeCall_traced hcall
    rw [h]
    have htrace' : t'.trace = t.trace ++ [x] := htrace
    refine ⟨⟨_, htrace'.symm⟩, fun hs hacc => ?_⟩
    -- A refusal would be in the trace.
    have hok : a = .ok () := by
      have hisOk : a.isOk = true := haccepted ▸ hacc.last htrace' (Nat.le_refl _)
      rcases a with e | u
      · cases hisOk
      · rfl
    obtain ⟨hw, -⟩ := Option.filter_eq_some_iff.mp hfind
    have hsame := he.sameBut_forget hw
    show t'.table.Serves _ (c.registry.forget token.key) _
    rw [Traced.table_append htrace', hx _ hok]
    split
    · next hchain => exact hs.unregister hsame hchain
    · exact hs.register hsame (fun _ => Iff.rfl) List.not_mem_nil

end Collector

/-! ### Every history -/

/-- The steps that leave the poller in order: the calls of removals and runs are accepted, those of
    additions may be refused, and a hook may do anything to the host. -/
def Cooperative : Action (Traced σ) → Traced σ → Traced σ → Prop
  | .remove _ _, t, t' => t'.AcceptedSince t.trace.length
  | .run _ _ _ _, t, t' => t'.AcceptedSince t.trace.length
  | .setHook hook, _, _ => ∃ inner : WaitHook σ, hook = inner.traced
  | _, _, _ => True

/-- **Every cooperative step on a faithful poller** leaves every descriptor with an entry that
    fits. -/
theorem Step.serves {a : Action (Traced σ)} {c c' : Collector (Traced σ)} {t t' : Traced σ}
    (hs : Step host.traced a c t c' t') (hc : Cooperative a t t') (hh : c.hook.Discreet)
    {roll : List Nat} (he : c.registry.Enrolled roll) :
    t.trace <+: t'.trace ∧ c'.hook.Discreet ∧
      (t.table.Serves c.emulated c.registry [] → t'.Faithful →
        t'.table.Serves c'.emulated c'.registry []) := by
  cases hs with
  | add fd mask =>
    obtain ⟨happends, hserves⟩ := c.add_serves host fd mask t he
    rcases c.add_cases host.traced fd mask t with ⟨e, t', -, h⟩ | ⟨t', -, h⟩
    · rw [h] at happends hserves ⊢
      exact ⟨happends, hh, fun hs _ => hserves hs⟩
    · rw [h] at happends hserves ⊢
      exact ⟨happends, hh, fun hs _ => hserves hs⟩
  | remove token =>
    obtain ⟨happends, hserves⟩ := c.remove_serves host token t he
    rcases c.remove_cases host.traced token t with ⟨-, h⟩ | ⟨w, a, t', -, -, h⟩
    · rw [h] at happends hserves hc ⊢
      exact ⟨happends, hh, fun hs _ => hserves hs hc⟩
    · rw [h] at happends hserves hc ⊢
      exact ⟨happends, hh, fun hs _ => hserves hs hc⟩
  | resize b => exact ⟨List.prefix_refl _, hh, fun hs _ => hs⟩
  | setHook hook =>
    obtain ⟨inner, rfl⟩ := hc
    exact ⟨List.prefix_refl _, inner.aside_traced.discreet, fun hs _ => hs⟩
  | run ho =>
    obtain ⟨happends, hserves⟩ := Collector.run_serves hh ho he
    obtain ⟨-, hcollector⟩ := Collector.run_firesTo ho
    refine ⟨happends, ?_, fun hs hf => ?_⟩
    · rw [hcollector]
      exact hh
    · rw [hcollector]
      exact hserves hs hc hf

/-- **The table is in order after every history** of cooperative steps on a faithful poller. -/
theorem History.serves {acts : List (Action (Traced σ))} {c : Collector (Traced σ)} {t : Traced σ}
    (h : History host.traced Cooperative acts c t) :
    c.hook.Discreet ∧ (t.Faithful → t.table.Serves c.emulated c.registry []) := by
  induction h with
  | create hc =>
    obtain ⟨hregistry, -, hhook⟩ := Collector.create_eq hc
    rw [hregistry, hhook]
    refine ⟨WaitHook.aside_none.discreet, fun _ => ?_⟩
    unfold Traced.table
    rw [Collector.create_trace hc]
    exact Poller.Table.Serves.empty _
  | step hist hs hc ih =>
    obtain ⟨happends, hh, hserves⟩ := hs.serves hc ih.1 hist.enrolled
    exact ⟨hh, fun hf => hserves (ih.2 (hf.mono happends)) hf⟩

end Readiness
