import Readiness.Proofs.History

namespace Readiness

/-!
# What a collector asks of its surroundings

A host can keep a trace of what it was asked and of what it answered, so that a statement can speak of
the calls an operation made.  That the collector does not notice is `History.exists_traced`.

* `Exchange` — a call with its answer, and `Exchange.accepted`, that the poller did as it was told;
* `Host.traced` / `WaitHook.traced` — the host and the hook that keep the trace next to their state
  (`Traced.of_note`);
* `Collector.deliver_appends` / `Collector.collect_appends` — the collector only appends to it;
* `Traced.Aside` — nothing was asked of the poller meanwhile, and `Collector.run_asides`, that a run
  asks it nothing outside of its iteration;
* `Collector.delivers_of_accepted` — a delivery whose calls were all accepted delivers every event.
-/

variable {σ : Type}

/-! ### Exchanges -/

/-- A call of a collector with its answer.  The clock and the log are left out: they change nothing
    a collector can see. -/
inductive Exchange where
  | add (fd : Fd) (registration : Registration) (answer : Except SystemError Unit)
  | modify (fd : Fd) (registration : Registration) (answer : Except SystemError Unit)
  | delete (fd : Fd) (answer : Except SystemError Unit)
  | wait (limit : Option Duration) (answer : Except SystemError (List Event))
  | drain (fd : Fd) (bytes : Nat)
  | prepare (wakeFd : Fd) (calledOff : Bool)
  | finished

/-- Whether the poller did as it was told, if it was told to change a registration. -/
def Exchange.accepted : Exchange → Bool
  | .add _ _ answer => answer.isOk
  | .modify _ _ answer => answer.isOk
  | .delete _ answer => answer.isOk
  | _ => true

/-- The state of a host with the exchanges since its poller was opened. -/
structure Traced (σ : Type) where
  /-- The state of the host. -/
  state : σ
  /-- The exchanges, oldest first. -/
  trace : List Exchange

/-- A call on the state of the host that is written down with its answer. -/
def Traced.note {α : Type} (call : σ → α × σ) (exchange : α → Exchange) (t : Traced σ) :
    α × Traced σ :=
  let (answer, s) := call t.state
  (answer, ⟨s, t.trace ++ [exchange answer]⟩)

/-- The host that keeps a trace of its exchanges. -/
def Host.traced (host : Host σ) : Host (Traced σ) where
  openPoller t :=
    let (answer, s) := host.openPoller t.state
    (answer, ⟨s, []⟩)
  add fd r := Traced.note (host.add fd r) (.add fd r)
  modify fd r := Traced.note (host.modify fd r) (.modify fd r)
  delete fd := Traced.note (host.delete fd) (.delete fd)
  wait limit := Traced.note (host.wait limit) (.wait limit)
  now t := host.now t.state
  drain fd := Traced.note (host.drain fd) (.drain fd)
  log e t := { t with state := host.log e t.state }

/-- The hook whose calls are kept in the trace. -/
def WaitHook.traced (hook : WaitHook σ) : WaitHook (Traced σ) where
  prepareToWait fd := Traced.note (hook.prepareToWait fd) (.prepare fd)
  waitFinished t := ⟨hook.waitFinished t.state, t.trace ++ [.finished]⟩

/-- **Inversion of a call that was written down.** -/
theorem Traced.of_note {α : Type} {call : σ → α × σ} {exchange : α → Exchange} {t t' : Traced σ}
    {a : α} (h : t.note call exchange = (a, t')) :
    call t.state = (a, t'.state) ∧ t'.trace = t.trace ++ [exchange a] := by
  unfold note at h
  rcases hcall : call t.state with ⟨answer, s⟩
  rw [hcall] at h
  cases h
  exact ⟨rfl, rfl⟩

/-- A call is written down whatever its answer is. -/
theorem Traced.note_eq {α : Type} {call : σ → α × σ} {exchange : α → Exchange} {t : Traced σ}
    {a : α} {s : σ} (h : call t.state = (a, s)) :
    t.note call exchange = (a, ⟨s, t.trace ++ [exchange a]⟩) := by
  unfold note
  rw [h]

/-! ### What a trace says -/

/-- Every exchange after the first `n` was accepted. -/
def Traced.AcceptedSince (n : Nat) (t : Traced σ) : Prop := ∀ x ∈ t.trace.drop n, x.accepted

instance (n : Nat) (t : Traced σ) : Decidable (t.AcceptedSince n) :=
  inferInstanceAs (Decidable (∀ x ∈ t.trace.drop n, x.accepted))

/-- A shorter trace has no more refusals. -/
theorem Traced.AcceptedSince.mono {n : Nat} {t t' : Traced σ} (h : t'.AcceptedSince n)
    (hp : t.trace <+: t'.trace) : t.AcceptedSince n := by
  obtain ⟨xs, hxs⟩ := hp
  intro x hx
  apply h x
  rw [← hxs, List.drop_append]
  exact List.mem_append_left _ hx

/-- An exchange that was just written down was accepted. -/
theorem Traced.AcceptedSince.last {n : Nat} {t t' : Traced σ} {x : Exchange}
    (h : t'.AcceptedSince n) (ht : t'.trace = t.trace ++ [x]) (hn : n ≤ t.trace.length) :
    x.accepted = true := by
  apply h x
  rw [ht, List.drop_append_of_le_length hn]
  exact List.mem_append_right _ (List.mem_singleton_self x)

/-! ### Asides -/

/-- Whether an exchange is not with the poller. -/
def Exchange.isAside : Exchange → Bool
  | .drain _ _ => true
  | .prepare _ _ => true
  | .finished => true
  | _ => false

/-- **Inversion of an aside.**  It is with a descriptor or with a hook. -/
theorem Exchange.of_isAside {x : Exchange} (hx : x.isAside = true) :
    (∃ fd bytes, x = .drain fd bytes) ∨ (∃ wakeFd calledOff, x = .prepare wakeFd calledOff) ∨
      x = .finished := by
  cases x with
  | add fd r answer => cases hx
  | modify fd r answer => cases hx
  | delete fd answer => cases hx
  | wait limit answer => cases hx
  | drain fd bytes => exact Or.inl ⟨fd, bytes, rfl⟩
  | prepare wakeFd calledOff => exact Or.inr (Or.inl ⟨wakeFd, calledOff, rfl⟩)
  | finished => exact Or.inr (Or.inr rfl)

/-- `t'` comes after `t`, and nothing was asked of the poller in between. -/
def Traced.Aside (t t' : Traced σ) : Prop :=
  ∃ xs, t'.trace = t.trace ++ xs ∧ ∀ x ∈ xs, x.isAside = true

namespace Traced.Aside

theorem refl (t : Traced σ) : t.Aside t :=
  ⟨[], (List.append_nil _).symm, fun _ hx => absurd hx List.not_mem_nil⟩

theorem trans {t t' t'' : Traced σ} (h : t.Aside t') (h' : t'.Aside t'') : t.Aside t'' := by
  obtain ⟨xs, ht, hx⟩ := h
  obtain ⟨ys, ht', hy⟩ := h'
  refine ⟨xs ++ ys, ?_, ?_⟩
  · rw [ht', ht, List.append_assoc]
  · intro x hmem
    rcases List.mem_append.mp hmem with hmem | hmem
    · exact hx x hmem
    · exact hy x hmem

theorem of_append {t t' : Traced σ} {x : Exchange} (ht : t'.trace = t.trace ++ [x])
    (hx : x.isAside = true) : t.Aside t' := by
  refine ⟨[x], ht, ?_⟩
  rintro y hy
  rw [List.mem_singleton.mp hy]
  exact hx

/-- Writing to the log leaves no trace. -/
theorem log (host : Host σ) (e : LogEntry) (t : Traced σ) : t.Aside (host.traced.log e t) := refl t

theorem appends {t t' : Traced σ} (h : t.Aside t') : t.trace <+: t'.trace := by
  obtain ⟨xs, ht, -⟩ := h
  exact ⟨xs, ht.symm⟩

end Traced.Aside

/-- A hook that does not talk to the poller. -/
structure WaitHook.Aside (hook : WaitHook (Traced σ)) : Prop where
  prepareToWait : ∀ (fd : Fd) (t : Traced σ), t.Aside (hook.prepareToWait fd t).2
  waitFinished : ∀ t : Traced σ, t.Aside (hook.waitFinished t)

theorem WaitHook.aside_none : (WaitHook.none : WaitHook (Traced σ)).Aside where
  prepareToWait := fun _ t => Traced.Aside.refl t
  waitFinished := Traced.Aside.refl

theorem WaitHook.aside_traced (hook : WaitHook σ) : hook.traced.Aside where
  prepareToWait := fun _ _ => Traced.Aside.of_append (Traced.of_note rfl).2 rfl
  waitFinished := fun _ => Traced.Aside.of_append rfl rfl

namespace Collector

/-! ### Deliveries -/

/-- A delivery only appends to the trace. -/
theorem deliver_appends (host : Host σ) (emulated : Bool) (es : List Event) (d : Delivery)
    (t : Traced σ) : t.trace <+: (deliver host.traced emulated es d t).2.2.trace := by
  induction es generalizing d t with
  | nil => exact List.prefix_refl _
  | cons e es ih =>
    unfold deliver
    dsimp only
    cases Delivery.rearm? emulated d (d.fanOut e) e with
    | none => exact ih (d.fanOut e) t
    | some r =>
      dsimp only
      rcases hcall : host.traced.modify e.fd r t with ⟨answer, t'⟩
      have hgrows : t.trace <+: t'.trace := ⟨_, (Traced.of_note hcall).2.symm⟩
      -- A refusal is written down too, and is the last exchange.
      rcases answer with err | u
      · exact hgrows
      · exact hgrows.trans (ih (d.fanOut e) t')

theorem Delivers.appends {emulated : Bool} {es : List Event} {host : Host σ} {d d' : Delivery}
    {t t' : Traced σ} (h : Delivers host.traced emulated es d t d' t') :
    t.trace <+: t'.trace :=
  h.keeps (fun t₁ => t.trace <+: t₁.trace)
    (fun hp hm => hp.trans ⟨_, (Traced.of_note hm).2.symm⟩) (List.prefix_refl _)

/-- A delivery whose calls were accepted delivers every event. -/
theorem delivers_of_accepted {host : Host σ} {emulated : Bool} {es : List Event} {d : Delivery}
    {t : Traced σ} {n : Nat} (hn : n ≤ t.trace.length)
    (h : (deliver host.traced emulated es d t).2.2.AcceptedSince n) :
    ∃ d' t', Delivers host.traced emulated es d t d' t' ∧
      deliver host.traced emulated es d t = (d'.result, d', t') := by
  rcases deliver_cases host.traced emulated es d t with hall |
    ⟨pre, e, post, d', r, t₁, err, t₂, -, hpre, -, hm, heq⟩
  · exact hall
  · -- The refusal would be in the trace.
    rw [heq] at h
    have hrefused := h.last (Traced.of_note hm).2 (Nat.le_trans hn hpre.appends.length_le)
    cases hrefused

/-! ### Iterations -/

/-- A collection only appends to the trace. -/
theorem collect_appends {host : Host σ} {emulated : Bool} {timeout : Timeout} {start : Duration}
    {waits : Nat} {limit : Option Duration} {d : Delivery} {t : Traced σ}
    {r : Except Error Unit × Delivery × Traced σ}
    (hr : collect host.traced emulated timeout start waits limit d t = some r) :
    t.trace <+: r.2.2.trace := by
  refine collect_induction (fun _ t' => t.trace <+: t'.trace) ?_ ?_ hr (List.prefix_refl _)
  · intro limit d t₁ e t₂ hp hw
    rw [(Traced.of_note hw).2]
    exact hp.trans (List.prefix_append _ _)
  · intro limit d t₁ es t₂ hp hw
    have hwait : t.trace <+: t₂.trace := by
      rw [(Traced.of_note hw).2]
      exact hp.trans (List.prefix_append _ _)
    exact hwait.trans (deliver_appends _ _ _ _ _)

/-! ### Runs -/

/-- Finishing an iteration does not concern the poller. -/
theorem finish_aside (host : Host σ) (c : Collector (Traced σ)) (wokeFd : Fd)
    (answer : Except Error Unit) (t : Traced σ) :
    t.Aside (finish host.traced c wokeFd answer t).state := by
  unfold finish
  cases answer with
  | error e => exact Traced.Aside.refl t
  | ok u =>
    dsimp only
    split
    · exact Traced.Aside.log _ _ _
    · have hdrain : t.Aside (host.traced.drain wokeFd t).2 :=
        Traced.Aside.of_append (Traced.of_note rfl).2 rfl
      exact (hdrain.trans (Traced.Aside.log _ _ _)).trans (Traced.Aside.log _ _ _)

/-- What comes before the iteration of a run does not concern the poller. -/
theorem prepared_aside {c : Collector (Traced σ)} (hh : c.hook.Aside) (wakeFd : Fd)
    (timeout : Timeout) (t : Traced σ) :
    t.Aside (if timeout.mayBlock then (c.hook.prepareToWait wakeFd t).2 else t) := by
  split
  · exact hh.prepareToWait wakeFd t
  · exact Traced.Aside.refl t

/-- Nor does what comes after it. -/
theorem finished_aside (host : Host σ) {c : Collector (Traced σ)} (hh : c.hook.Aside) (d : Delivery)
    (wokeFd : Fd) (timeout : Timeout) (answer : Except Error Unit) (t : Traced σ) :
    t.Aside (finish host.traced { c with registry := d.registry, buffer := d.buffer } wokeFd answer
      (if timeout.mayBlock then c.hook.waitFinished t else t)).state := by
  refine Traced.Aside.trans ?_ (finish_aside host _ wokeFd answer _)
  split
  · exact hh.waitFinished t
  · exact Traced.Aside.refl t

/-- **A run asks the poller nothing but in its iteration.**  The hook has called it off, or it is an
    iteration with an aside before and after. -/
theorem run_asides {host : Host σ} {c : Collector (Traced σ)} (hh : c.hook.Aside)
    {wakeFd wokeFd : Fd} {timeout : Timeout} {waits : Nat} {t : Traced σ}
    {o : Outcome (Traced σ) Nat} (ho : c.run host.traced wakeFd wokeFd timeout waits t = some o) :
    (t.Aside o.state ∧ o.collector.registry = c.registry) ∨
    ∃ t₀ t₁ answer d, t.Aside t₀ ∧
      collect host.traced c.emulated timeout (host.traced.now t₀) waits timeout.limit
        ⟨c.registry, c.buffer.clear, none⟩ t₀ = some (answer, d, t₁) ∧
      t₁.Aside o.state ∧ o.collector.registry = d.registry ∧
      ∀ e, answer = .error e → o.answer = .error e := by
  rcases run_cases ho with ⟨-, -, rfl⟩ | ⟨t₀, t₁, answer, d, ht₀, hc, rfl⟩
  · exact Or.inl ⟨(hh.prepareToWait wakeFd t).trans (Traced.Aside.log _ _ _), rfl⟩
  · refine Or.inr ⟨t₀, t₁, answer, d, ?_, hc,
      finished_aside host hh d wokeFd timeout answer t₁, ?_, ?_⟩
    · rw [ht₀]
      exact prepared_aside hh wakeFd timeout t
    · obtain ⟨buffer, hb⟩ := finish_collector host.traced
        { c with registry := d.registry, buffer := d.buffer } wokeFd answer
        (if timeout.mayBlock then c.hook.waitFinished t₁ else t₁)
      rw [hb]
    · rintro e rfl
      rfl

end Collector

end Readiness
