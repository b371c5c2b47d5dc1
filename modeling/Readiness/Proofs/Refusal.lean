import Readiness.Proofs.Registry.Renumbered
import Readiness.Proofs.Deposits
import Readiness.Proofs.Poller.Rearming

namespace Readiness

/-!
# Refused additions

An addition that the poller refuses takes a version, and that is all there ever is to be seen of it.

* `Request` and `View` — what a caller asks for, and what he sees then; `Collector.account` is what
  he sees of a list of requests, and the host they lead to;
* `Request.renumber` and `View.later` — the same requests and the same views when one version has
  been left out: tokens have other versions;
* `Collector.serve_renumbered` — whatever is asked of two collectors that differ by one version, they
  do the same and differ by it again; each operation has a lemma;
* `Collector.account_renumbered` — so they give the same account of any list of requests;
* `Exchange.Registers` — the call that an addition makes (`Collector.addCall_registers`);
* `History.refusal_invisible` — if it is refused, it leaves a collector behind that differs by one
  version from the one it was made on.
-/

variable {σ : Type} {v : UInt32}

/-! ### What a caller sees -/

/-- What a caller may ask of a collector. -/
inductive Request (σ : Type) where
  | add (fd : Fd) (mask : Mask)
  | remove (token : Token)
  | resize (buffer : Buffer)
  | setHook (hook : WaitHook σ)
  | run (wakeFd wokeFd : Fd) (timeout : Timeout) (waits : Nat)
  | runTicks (wakeFd wokeFd : Fd) (ticks : Int64) (waits : Nat)

/-- Whether a watch is to be added. -/
def Request.isAdd : Request σ → Bool
  | .add _ _ => true
  | _ => false

/-- How many watches are to be added. -/
def Request.additions (requests : List (Request σ)) : Nat := requests.countP Request.isAdd

/-- The answer to a request. -/
inductive Reply where
  | added (answer : Except Error Token)
  | removed (answer : Except Error Unit)
  | resized (answer : Except Error Buffer)
  | hooked
  | ran (answer : Except Error Nat)

/-- What a caller can see after a request. -/
structure View where
  /-- The answer to the request. -/
  reply : Reply
  /-- The records of the last run. -/
  events : List Record
  /-- The number of watches. -/
  watchCount : Nat

namespace Collector

/-- Does what is asked.  A run that goes on after its last wait has no outcome. -/
def serve (host : Host σ) (c : Collector σ) (s : σ) :
    Request σ → Option (Reply × Collector σ × σ)
  | .add fd mask =>
    let o := c.add host fd mask s
    some (.added o.answer, o.collector, o.state)
  | .remove token =>
    let o := c.remove host token s
    some (.removed o.answer, o.collector, o.state)
  | .resize buffer =>
    let o := c.resize host buffer s
    some (.resized o.answer, o.collector, o.state)
  | .setHook hook => some (.hooked, c.setHook hook, s)
  | .run wakeFd wokeFd timeout waits =>
    (c.run host wakeFd wokeFd timeout waits s).map fun o => (.ran o.answer, o.collector, o.state)
  | .runTicks wakeFd wokeFd ticks waits =>
    (c.runTicks host wakeFd wokeFd ticks waits s).map fun o =>
      (.ran o.answer, o.collector, o.state)

/-- What a caller sees of these requests, and the state of the host after them. -/
def account (host : Host σ) : List (Request σ) → Collector σ → σ → Option (List View × σ)
  | [], _, s => some ([], s)
  | request :: requests, c, s =>
    match c.serve host s request with
    | none => none
    | some (reply, c, s) =>
      (account host requests c s).map fun (views, s) =>
        (⟨reply, c.events, c.watchCount⟩ :: views, s)

end Collector

/-! ### One version less -/

/-- A token whose version is one higher. -/
def Token.later (t : Token) : Token := { t with version := t.version + 1 }

/-- A token that came after the version that is left out has one that is one higher. -/
theorem Token.renumber_eq_later {t : Token} (h : v ≤ t.version) (hn : t.version.toNat + 1 < 2 ^ 32) :
    t.renumber v = t.later := by
  unfold Token.renumber Token.later
  rw [Version.skip_eq_add_one h hn]

/-- A request when the version `v` is left out.  It names the same watches by other tokens. -/
def Request.renumber (v : UInt32) : Request σ → Request σ
  | .remove token => .remove (token.renumber v)
  | request => request

/-- An answer with a token whose version is one higher. -/
def Reply.later : Reply → Reply
  | .added answer => .added (answer.map Token.later)
  | reply => reply

/-- What a caller sees when the answer has a token whose version is one higher. -/
def View.later (view : View) : View := { view with reply := view.reply.later }

/-! ### Deliveries -/

/-- `d'` is `d` but for versions, of which `d'` has left out `v`. -/
structure Delivery.Renumbered (v : UInt32) (d d' : Delivery) : Prop where
  registry : d.registry.Renumbered v d'.registry
  buffer_eq : d'.buffer = d.buffer
  overflow_eq : d'.overflow = d.overflow

namespace Delivery.Renumbered

variable {d d' : Delivery}

theorem offer (h : d.Renumbered v d') (fd : Fd) (ready : Mask) (key : Nat) :
    (d.offer fd ready key).Renumbered v (d'.offer fd ready key) := by
  unfold Delivery.offer
  rw [h.registry.watch?_eq]
  cases d.registry.watch? key with
  | none => exact h
  | some w =>
    -- A watch fires by its mask and its armed flag, whatever its version is.
    dsimp only [Option.map_some, Watch.renumber]
    rw [h.buffer_eq, h.overflow_eq]
    split
    · cases d.buffer.push (.ofMask fd (ready ∩ w.mask.conditions)) with
      | ok b => exact ⟨h.registry.setArmed key _, rfl, rfl⟩
      | error o => exact ⟨h.registry, rfl, rfl⟩
    · exact h

theorem fanOut (h : d.Renumbered v d') (e : Event) : (d.fanOut e).Renumbered v (d'.fanOut e) := by
  unfold Delivery.fanOut
  rw [h.registry.chain_eq]
  induction d.registry.chain e.fd generalizing d d' with
  | nil => exact h
  | cons key keys ih => exact ih (h.offer e.fd e.mask key)

/-- Both ask the poller for the same. -/
theorem rearm?_eq {d₁ d₁' : Delivery} (h : d.Renumbered v d') (h₁ : d₁.Renumbered v d₁')
    (emulated : Bool) (e : Event) : rearm? emulated d' d₁' e = rearm? emulated d d₁ e := by
  unfold rearm?
  rw [h.registry.armedMask_eq, h₁.registry.armedMask_eq]

end Delivery.Renumbered

namespace Collector

theorem deliver_renumbered (host : Host σ) (emulated : Bool) (es : List Event) {d d' : Delivery}
    (h : d.Renumbered v d') (s : σ) :
    ∃ answer d₁ d₁' s₁, deliver host emulated es d s = (answer, d₁, s₁) ∧
      deliver host emulated es d' s = (answer, d₁', s₁) ∧ d₁.Renumbered v d₁' := by
  induction es generalizing d d' s with
  | nil =>
    refine ⟨_, d, d', s, rfl, ?_, h⟩
    unfold deliver Delivery.result
    rw [h.overflow_eq]
  | cons e es ih =>
    have hfan := h.fanOut e
    -- The poller is asked for the same, so it answers both alike.
    unfold deliver
    dsimp only
    rw [h.rearm?_eq hfan]
    cases Delivery.rearm? emulated d (d.fanOut e) e with
    | none => exact ih hfan s
    | some registration =>
      dsimp only
      rcases host.modify e.fd registration s with ⟨err | u, s'⟩
      · exact ⟨_, _, _, s', rfl, rfl, hfan⟩
      · exact ih hfan s'

/-! ### Iterations -/

theorem collect_renumbered (host : Host σ) (emulated : Bool) (timeout : Timeout) (start : Duration)
    (waits : Nat) (limit : Option Duration) {d d' : Delivery} (h : d.Renumbered v d') (s : σ) :
    (collect host emulated timeout start waits limit d s = none ∧
      collect host emulated timeout start waits limit d' s = none) ∨
    ∃ answer d₁ d₁' s₁,
      collect host emulated timeout start waits limit d s = some (answer, d₁, s₁) ∧
      collect host emulated timeout start waits limit d' s = some (answer, d₁', s₁) ∧
      d₁.Renumbered v d₁' := by
  -- By induction on the waits: what decides over the next one is the answer of the poller, the clock
  -- and whether the buffer is empty.
  induction waits generalizing limit d d' s with
  | zero => exact Or.inl ⟨rfl, rfl⟩
  | succ waits ih =>
    unfold collect
    rcases host.wait limit s with ⟨e | es, s'⟩
    · dsimp only
      by_cases hk : e.kind = .interrupted
      · rw [if_pos hk, if_pos hk]
        cases timeout.limitAfter (host.now s' - start) with
        | none => exact Or.inr ⟨_, d, d', s', rfl, rfl, h⟩
        | some limit => exact ih limit h s'
      · rw [if_neg hk, if_neg hk]
        exact Or.inr ⟨_, d, d', s', rfl, rfl, h⟩
    · obtain ⟨answer, d₁, d₁', s₁, hd, hd', h₁⟩ := deliver_renumbered host emulated es h s'
      dsimp only
      rw [hd, hd']
      cases answer with
      | error e => exact Or.inr ⟨_, d₁, d₁', s₁, rfl, rfl, h₁⟩
      | ok u =>
        dsimp only
        rw [h₁.buffer_eq]
        by_cases hb : timeout = .block ∧ d₁.buffer.isEmpty
        · rw [if_pos hb, if_pos hb]
          exact ih limit h₁ s₁
        · rw [if_neg hb, if_neg hb]
          exact Or.inr ⟨_, d₁, d₁', s₁, rfl, rfl, h₁⟩

/-- The end of an iteration does not concern the watches. -/
theorem finish_renumbered (host : Host σ) {d d' : Delivery} (h : d.Renumbered v d') (c : Collector σ)
    (wokeFd : Fd) (answer : Except Error Unit) (s : σ) :
    ∃ o r₁, finish host { c with registry := d.registry, buffer := d.buffer } wokeFd answer s = o ∧
      finish host { c with registry := d'.registry, buffer := d'.buffer } wokeFd answer s =
        ⟨o.answer, { o.collector with registry := r₁ }, o.state⟩ ∧
      o.collector.registry.Renumbered v r₁ := by
  rw [h.buffer_eq]
  cases answer with
  | error e => exact ⟨_, d'.registry, rfl, rfl, h.registry⟩
  | ok u => exact ⟨_, d'.registry, rfl, rfl, h.registry⟩

/-! ### Operations -/

variable {c : Collector σ} {r : Registry}

/-- An addition, as long as the counter does not wrap. -/
theorem add_renumbered (host : Host σ) (h : c.registry.Renumbered v r)
    (hn : c.registry.nextVersion.toNat + 2 < 2 ^ 32) (fd : Fd) (mask : Mask) (s : σ) :
    ∃ r₁, ({ c with registry := r } : Collector σ).add host fd mask s =
        ⟨(c.add host fd mask s).answer.map Token.later,
          { (c.add host fd mask s).collector with registry := r₁ }, (c.add host fd mask s).state⟩ ∧
      (c.add host fd mask s).collector.registry.Renumbered v r₁ ∧
      (c.add host fd mask s).collector.registry.nextVersion = c.registry.nextVersion + 1 := by
  have hinsert := h.insert hn fd mask
  have hcall : ({ c with registry := r } : Collector σ).addCall host fd mask =
      c.addCall host fd mask := by
    unfold addCall registrationOf
    dsimp only
    rw [hinsert.chain_eq, hinsert.armedMask_eq]
  have htoken : r.nextToken = c.registry.nextToken.later := by
    rw [h.nextToken_eq]
    exact Token.renumber_eq_later h.le_nextVersion (by
      show c.registry.nextVersion.toNat + 1 < 2 ^ 32
      omega)
  rcases c.add_cases host fd mask s with ⟨e, s', hc, heq⟩ | ⟨s', hc, heq⟩
  · rcases Collector.add_cases host { c with registry := r } fd mask s with
      ⟨e', s'', hc', heq'⟩ | ⟨s'', hc', -⟩
    · rw [hcall, hc] at hc'
      cases hc'
      rw [heq, heq']
      refine ⟨_, rfl, ?_, ?_⟩
      · rw [h.nextKey_eq]
        exact hinsert.forget _
      · rw [Registry.nextVersion_forget, Registry.nextVersion_insert]
    · -- One poller cannot refuse and accept the same call.
      rw [hcall, hc] at hc'
      cases hc'
  · rcases Collector.add_cases host { c with registry := r } fd mask s with
      ⟨e', s'', hc', -⟩ | ⟨s'', hc', heq'⟩
    · rw [hcall, hc] at hc'
      cases hc'
    · rw [hcall, hc] at hc'
      cases hc'
      rw [heq, heq', htoken]
      exact ⟨_, rfl, hinsert, Registry.nextVersion_insert _ _ _⟩

theorem remove_renumbered (host : Host σ) (h : c.registry.Renumbered v r) (t : Token) (s : σ) :
    ∃ r₁, ({ c with registry := r } : Collector σ).remove host (t.renumber v) s =
        ⟨(c.remove host t s).answer, { (c.remove host t s).collector with registry := r₁ },
          (c.remove host t s).state⟩ ∧
      (c.remove host t s).collector.registry.Renumbered v r₁ ∧
      (c.remove host t s).collector.registry.nextVersion = c.registry.nextVersion := by
  have hfind := h.find?_eq t
  rcases c.remove_cases host t s with ⟨hnone, heq⟩ | ⟨w, a, s', hw, hc, heq⟩
  · rcases Collector.remove_cases host { c with registry := r } (t.renumber v) s with
      ⟨-, heq'⟩ | ⟨w', a', s'', hw', -, -⟩
    · rw [heq, heq']
      exact ⟨r, rfl, h, rfl⟩
    · rw [hfind, hnone] at hw'
      cases hw'
  · rcases Collector.remove_cases host { c with registry := r } (t.renumber v) s with
      ⟨hnone', -⟩ | ⟨w', a', s'', hw', hc', heq'⟩
    · rw [hfind, hw] at hnone'
      cases hnone'
    · -- Both tokens have the key of the watch.
      have hforget : (c.registry.forget t.key).Renumbered v (r.forget t.key) := h.forget t.key
      have hcall : ({ c with registry := r } : Collector σ).removeCall host (r.forget t.key) w.fd =
          c.removeCall host (c.registry.forget t.key) w.fd := by
        unfold removeCall registrationOf
        rw [hforget.chain_eq, hforget.armedMask_eq]
      rw [hfind, hw, Option.map_some, Option.some.injEq] at hw'
      rw [← hw'] at hc'
      have hsame : (a', s'') = (a, s') := hc'.symm.trans ((congrFun hcall _).trans hc)
      cases hsame
      rw [heq, heq']
      exact ⟨_, rfl, hforget, Registry.nextVersion_forget _ _⟩

theorem run_renumbered (host : Host σ) (h : c.registry.Renumbered v r) (wakeFd wokeFd : Fd)
    (timeout : Timeout) (waits : Nat) (s : σ) :
    (c.run host wakeFd wokeFd timeout waits s = none ∧
      ({ c with registry := r } : Collector σ).run host wakeFd wokeFd timeout waits s = none) ∨
    ∃ o r₁, c.run host wakeFd wokeFd timeout waits s = some o ∧
      ({ c with registry := r } : Collector σ).run host wakeFd wokeFd timeout waits s =
        some ⟨o.answer, { o.collector with registry := r₁ }, o.state⟩ ∧
      o.collector.registry.Renumbered v r₁ := by
  have hprepared : ({ c with registry := r } : Collector σ).prepared wakeFd timeout s =
      c.prepared wakeFd timeout s := rfl
  cases hgo : (c.prepared wakeFd timeout s).1 with
  | true =>
    have hgo' := (congrArg Prod.fst hprepared).trans hgo
    rw [run_of_calledOff hgo, run_of_calledOff hgo']
    exact Or.inr ⟨_, r, rfl, rfl, h⟩
  | false =>
    have hgo' := (congrArg Prod.fst hprepared).trans hgo
    have hfresh : c.fresh.Renumbered v (fresh { c with registry := r }) := ⟨h, rfl, rfl⟩
    rw [run_of_not_calledOff hgo, run_of_not_calledOff hgo', hprepared]
    rcases collect_renumbered host c.emulated timeout (host.now (c.prepared wakeFd timeout s).2) waits
      timeout.limit hfresh (c.prepared wakeFd timeout s).2 with
      ⟨hc, hc'⟩ | ⟨answer, d, d', s₁, hc, hc', hd⟩
    · rw [hc, hc']
      exact Or.inl ⟨rfl, rfl⟩
    · obtain ⟨o, r₁, ho, ho', hr⟩ := finish_renumbered host hd c wokeFd answer
        (if timeout.mayBlock then c.hook.waitFinished s₁ else s₁)
      rw [hc, hc']
      exact Or.inr ⟨o, r₁, congrArg some ho, congrArg some ho', hr⟩

/-! ### Requests -/

/-- A run as it is served. -/
theorem serve_run_renumbered (host : Host σ) (h : c.registry.Renumbered v r) (wakeFd wokeFd : Fd)
    (timeout : Timeout) (waits : Nat) (s : σ) :
    (c.serve host s (.run wakeFd wokeFd timeout waits) = none ∧
      ({ c with registry := r } : Collector σ).serve host s (.run wakeFd wokeFd timeout waits) =
        none) ∨
    ∃ reply c₁ s₁ r₁,
      c.serve host s (.run wakeFd wokeFd timeout waits) = some (reply, c₁, s₁) ∧
      ({ c with registry := r } : Collector σ).serve host s (.run wakeFd wokeFd timeout waits) =
        some (reply.later, { c₁ with registry := r₁ }, s₁) ∧
      c₁.registry.Renumbered v r₁ ∧ c₁.registry.nextVersion = c.registry.nextVersion := by
  unfold serve
  dsimp only
  rcases run_renumbered host h wakeFd wokeFd timeout waits s with ⟨ho, ho'⟩ | ⟨o, r₁, ho, ho', hr⟩
  · rw [ho, ho']
    exact Or.inl ⟨rfl, rfl⟩
  · have hversion := congrArg Token.version (run_firesTo ho).1.nextToken_eq
    rw [ho, ho']
    exact Or.inr ⟨_, _, _, r₁, rfl, rfl, hr, hversion⟩

/-- **Whatever is asked**, the collectors do the same and give the same answer, but for the version of
    a token. -/
theorem serve_renumbered (host : Host σ) (h : c.registry.Renumbered v r) (request : Request σ)
    (hn : c.registry.nextVersion.toNat + (if request.isAdd then 1 else 0) + 1 < 2 ^ 32) (s : σ) :
    (c.serve host s request = none ∧
      ({ c with registry := r } : Collector σ).serve host s (request.renumber v) = none) ∨
    ∃ reply c₁ s₁ r₁, c.serve host s request = some (reply, c₁, s₁) ∧
      ({ c with registry := r } : Collector σ).serve host s (request.renumber v) =
        some (reply.later, { c₁ with registry := r₁ }, s₁) ∧
      c₁.registry.Renumbered v r₁ ∧
      c₁.registry.nextVersion.toNat =
        c.registry.nextVersion.toNat + if request.isAdd then 1 else 0 := by
  cases request with
  | add fd mask =>
    obtain ⟨r₁, heq, hr, hversion⟩ := add_renumbered host h hn fd mask s
    refine Or.inr ⟨_, _, _, r₁, rfl, ?_, hr, ?_⟩
    · unfold Request.renumber serve
      dsimp only
      rw [heq]
      rfl
    · rw [hversion]
      exact Version.toNat_add_one (Nat.lt_of_succ_lt hn)
  | remove t =>
    obtain ⟨r₁, heq, hr, hversion⟩ := remove_renumbered host h t s
    refine Or.inr ⟨_, _, _, r₁, rfl, ?_, hr, congrArg UInt32.toNat hversion⟩
    unfold Request.renumber serve
    dsimp only
    rw [heq]
    rfl
  | resize b => exact Or.inr ⟨_, _, _, r, rfl, rfl, h, rfl⟩
  | setHook hook => exact Or.inr ⟨_, _, _, r, rfl, rfl, h, rfl⟩
  | run wakeFd wokeFd timeout waits =>
    rcases serve_run_renumbered host h wakeFd wokeFd timeout waits s with
      hnone | ⟨reply, c₁, s₁, r₁, hc, hc', hr, hversion⟩
    · exact Or.inl hnone
    · exact Or.inr ⟨reply, c₁, s₁, r₁, hc, hc', hr, congrArg UInt32.toNat hversion⟩
  | runTicks wakeFd wokeFd ticks waits =>
    -- Both count in the same unit.
    rcases serve_run_renumbered host h wakeFd wokeFd (.ofTicks ticks c.timeUnit) waits s with
      hnone | ⟨reply, c₁, s₁, r₁, hc, hc', hr, hversion⟩
    · exact Or.inl hnone
    · exact Or.inr ⟨reply, c₁, s₁, r₁, hc, hc', hr, congrArg UInt32.toNat hversion⟩

/-- **They give the same account of any list of requests**, but for the versions of tokens. -/
theorem account_renumbered (host : Host σ) (h : c.registry.Renumbered v r)
    (requests : List (Request σ))
    (hn : c.registry.nextVersion.toNat + Request.additions requests + 1 < 2 ^ 32) (s : σ) :
    ({ c with registry := r } : Collector σ).account host (requests.map (Request.renumber v)) s =
      (c.account host requests s).map fun (views, s₁) => (views.map View.later, s₁) := by
  induction requests generalizing c r s with
  | nil => rfl
  | cons request requests ih =>
    have hcount : Request.additions (request :: requests) =
        Request.additions requests + if request.isAdd then 1 else 0 := List.countP_cons
    rw [hcount] at hn
    rw [List.map_cons]
    unfold account
    rcases serve_renumbered host h request (by omega) s with
      ⟨hc, hc'⟩ | ⟨reply, c₁, s₁, r₁, hc, hc', hr, hversion⟩
    · rw [hc, hc']
      rfl
    · rw [hc, hc']
      dsimp only
      rw [ih hr (by omega), Option.map_map, Option.map_map]
      -- The buffers are the same, and there are as many watches.
      have hview : (⟨reply.later, events { c₁ with registry := r₁ },
          watchCount { c₁ with registry := r₁ }⟩ : View) =
            View.later ⟨reply, c₁.events, c₁.watchCount⟩ :=
        congrArg (View.mk reply.later c₁.events) hr.size_eq
      rw [hview]
      rfl

end Collector

/-! ### Every history -/

/-- By this exchange a poller is told to register `fd`, which it may have registered before. -/
def Exchange.Registers (fd : Fd) (answer : Except SystemError Unit) (x : Exchange) : Prop :=
  ∃ registration, x = .add fd registration answer ∨ x = .modify fd registration answer

/-- The call of an addition registers its descriptor. -/
theorem Collector.addCall_registers {host : Host σ} {c : Collector (Traced σ)} {fd : Fd} {mask : Mask}
    {t t' : Traced σ} {answer : Except SystemError Unit}
    (hcall : c.addCall host.traced fd mask t = (answer, t')) :
    ∃ x, x.Registers fd answer ∧ t'.trace = t.trace ++ [x] := by
  unfold addCall at hcall
  split at hcall
  · exact ⟨_, ⟨_, Or.inl rfl⟩, (Traced.of_note hcall).2⟩
  · exact ⟨_, ⟨_, Or.inr rfl⟩, (Traced.of_note hcall).2⟩

/-- **A refused addition is invisible but for one version.**  After any history, an addition makes one
    call to the poller.  If the poller fails, so does the addition, with its error.  Then all watches
    and lists, the slots to come, and all else of the collector are as they were, but one version has
    been used up.  Whatever is asked afterwards, and from whichever state of the host, what a caller
    sees, what the poller is asked and what becomes of the host is the same as if the call had not been
    made, but for the versions of later tokens.  They are one higher, as long as the counter does not
    wrap. -/
theorem History.refusal_invisible {host : Host σ}
    {allowed : Action (Traced σ) → Traced σ → Traced σ → Prop}
    {acts : List (Action (Traced σ))} {c : Collector (Traced σ)} {t : Traced σ}
    (h : History host.traced allowed acts c t) (fd : Fd) (mask : Mask) :
    ∃ answer x, x.Registers fd answer ∧
      (c.add host.traced fd mask t).state.trace = t.trace ++ [x] ∧
      ∀ e, answer = .error e →
        ∃ r t₁, c.add host.traced fd mask t = ⟨.error (.io e), { c with registry := r }, t₁⟩ ∧
          c.registry.RolledBack r ∧
          ∀ requests t', additions acts + 1 + Request.additions requests < 2 ^ 32 →
            ({ c with registry := r } : Collector (Traced σ)).account host.traced
                (requests.map (Request.renumber c.registry.nextVersion)) t' =
              (c.account host.traced requests t').map fun (views, t'') =>
                (views.map View.later, t'') := by
  rcases c.add_cases host.traced fd mask t with ⟨e, t₁, hc, heq⟩ | ⟨t₁, hc, heq⟩
  · obtain ⟨x, hx, htrace⟩ := Collector.addCall_registers hc
    have hback := h.enrolled.rolledBack fd mask
    refine ⟨.error e, x, hx, ?_, ?_⟩
    · rw [heq]
      exact htrace
    · intro _ he
      cases he
      -- The version that is left out is that of the watch that was refused.
      refine ⟨_, t₁, heq, hback, fun requests t' hn => ?_⟩
      have hv := h.versioned (by omega)
      refine Collector.account_renumbered host.traced (hback.renumbered hv (by omega)) requests ?_ t'
      rw [hv.toNat_next]
      omega
  · obtain ⟨x, hx, htrace⟩ := Collector.addCall_registers hc
    refine ⟨.ok (), x, hx, ?_, fun e he => ?_⟩
    · rw [heq]
      exact htrace
    · cases he

open Scenario in
/-- Descriptor 5 has a reader, and the poller refuses a writer next to it.  The watch that is added then
    has version 2, where it would have had 1, and is removed by that token. -/
theorem refusal_invisible_modify :
    ∃ (c : Collector (Traced World)) (t t₁ t₂ : Traced World) (r : Registry),
      History (World.host 0).traced anything [.add 5 .read (.ok ⟨0, 0⟩)] c t ∧
      c.add (World.host 0).traced 5 .write t =
        ⟨.error (.io (.os 22)), { c with registry := r }, t₁⟩ ∧
      c.registry.RolledBack r ∧
      c.account (World.host 0).traced [.add 7 .write, .remove ⟨1, 1⟩] t₁ =
        some ([⟨.added (.ok ⟨1, 1⟩), [], 2⟩, ⟨.removed (.ok ()), [], 1⟩], t₂) ∧
      ({ c with registry := r } : Collector (Traced World)).account (World.host 0).traced
          [.add 7 .write, .remove ⟨1, 2⟩] t₁ =
        some ([⟨.added (.ok ⟨1, 2⟩), [], 2⟩, ⟨.removed (.ok ()), [], 1⟩], t₂) := by
  have h₀ : History (World.host 0).traced anything [] _ _ :=
    .create (show Collector.create (World.host 0).traced (Buffer.ofCapacity 1) default
      ⟨World.refusing true [0, 22] [], []⟩ = (.ok _, _) from rfl)
  have h₁ := h₀.step (.add 5 .read _ _) trivial
  obtain ⟨c, t, t₁, t₂, h, hstate, hrefused, hseen⟩ : ∃ c t t₁ t₂,
      History (World.host 0).traced anything _ c t ∧
        (c.add (World.host 0).traced 5 .write t).state = t₁ ∧
        t₁.trace =
          t.trace ++ [.modify 5 ⟨5, ⟨true, true, false⟩, .oneshot⟩ (.error (.os 22))] ∧
        c.account (World.host 0).traced [.add 7 .write, .remove ⟨1, 1⟩] t₁ =
          some ([⟨.added (.ok ⟨1, 1⟩), [], 2⟩, ⟨.removed (.ok ()), [], 1⟩], t₂) ∧
        c.registry.nextVersion = 1 :=
    ⟨_, _, _, _, h₁, rfl, rfl, rfl, rfl⟩
  obtain ⟨answer, x, ⟨registration, hx⟩, htrace, hrest⟩ := h.refusal_invisible 5 .write
  -- That the poller refused is in the trace.
  have hanswer : answer = .error (.os 22) := by
    rw [hstate, hrefused] at htrace
    rw [← List.singleton_inj.mp (List.append_cancel_left htrace)] at hx
    rcases hx with hx | hx
    · cases hx
    · cases hx
      rfl
  obtain ⟨r, t', heq, hback, haccount⟩ := hrest _ hanswer
  have ht' : t' = t₁ := by
    rw [← hstate, heq]
  have hlater := haccount [.add 7 .write, .remove ⟨1, 1⟩] t₁ (by decide)
  rw [ht'] at heq
  rw [hseen.1, hseen.2] at hlater
  exact ⟨c, t, t₁, t₂, r, h, heq, hback, hseen.1, hlater⟩

end Readiness
