import Readiness.Collector
import Readiness.Proofs.Registry.Roll

namespace Readiness

/-!
# What an iteration does

The spec lemmas of an iteration, from one offer up to a whole run.

* `Delivery.offer_cases` — an offer changes nothing, makes one record, or notes an overflow;
* `Delivery.fanOut_firesTo` / `Collector.deliver_firesTo` — delivering events does nothing to the
  registry but disarm one-shot watches (`Registry.FiresTo`);
* `Collector.deliver_cases` — a delivery comes to its end, or to the first registration that the
  poller refuses;
* `Collector.collect_round` — a wait of an iteration is one of six (`Collector.Round`);
* `Collector.collect_last` / `Collector.collect_induction` — what every wait and every delivery of an
  iteration keep, the iteration keeps;
* `Collector.collect_cases` — an iteration comes to one delivery at most: those before the last one
  reported nothing, and so they did nothing;
* `Collector.run_cases` — a run was called off by the hook, or is an iteration that was finished;
* `Collector.run_delivers` — so a run comes to one delivery into the cleared buffer at most.
-/

namespace Delivery

/-! ### Offers -/

/-- **Inversion of an offer.**  It leaves the delivery alone, makes a record, or finds the buffer
    full. -/
theorem offer_cases (fd : Fd) (ready : Mask) (d : Delivery) (key : Nat) :
    d.offer fd ready key = d ∨
    (∃ w b, d.registry.watch? key = some w ∧ w.armed = true ∧
      d.buffer.push (.ofMask fd (ready ∩ w.mask.conditions)) = .ok b ∧
      d.offer fd ready key =
        { d with registry := d.registry.setArmed key w.mask.isPersistent, buffer := b }) ∨
    (∃ w o, d.registry.watch? key = some w ∧
      d.buffer.push (.ofMask fd (ready ∩ w.mask.conditions)) = .error o ∧
      d.offer fd ready key = { d with overflow := d.overflow <|> some o }) := by
  unfold offer
  cases hw : d.registry.watch? key with
  | none => exact Or.inl rfl
  | some w =>
    dsimp only
    split
    · next hfire =>
      have harmed : w.armed = true := (Bool.and_eq_true_iff.mp hfire).1
      cases hp : d.buffer.push (.ofMask fd (ready ∩ w.mask.conditions)) with
      | ok b => exact Or.inr (Or.inl ⟨w, b, rfl, harmed, hp, rfl⟩)
      | error o => exact Or.inr (Or.inr ⟨w, o, rfl, hp, rfl⟩)
    · exact Or.inl rfl

/-- An offer disarms at most the watch it is made to. -/
theorem offer_firesTo (fd : Fd) (ready : Mask) (d : Delivery) (key : Nat) :
    d.registry.FiresTo (d.offer fd ready key).registry := by
  rcases d.offer_cases fd ready key with h | ⟨w, b, hw, ha, -, h⟩ | ⟨w, o, -, -, h⟩
  · rw [h]
    exact Registry.FiresTo.refl _
  · rw [h]
    exact Registry.FiresTo.setArmed hw ha
  · rw [h]
    exact Registry.FiresTo.refl _

/-- Offers in a row disarm one-shot watches and do nothing else to the registry. -/
theorem foldl_offer_firesTo (fd : Fd) (ready : Mask) (keys : List Nat) (d : Delivery) :
    d.registry.FiresTo (keys.foldl (offer fd ready) d).registry := by
  induction keys generalizing d with
  | nil => exact Registry.FiresTo.refl _
  | cons key keys ih =>
    rw [List.foldl_cons]
    exact (d.offer_firesTo fd ready key).trans (ih _)

/-- Fanning an event out disarms one-shot watches and does nothing else to the registry. -/
theorem fanOut_firesTo (d : Delivery) (e : Event) : d.registry.FiresTo (d.fanOut e).registry :=
  foldl_offer_firesTo _ _ _ _

/-! ### Quiet deliveries -/

/-- Nothing was reported so far, and nothing had no room. -/
structure Quiet (d : Delivery) : Prop where
  records_eq : d.buffer.records = []
  overflow_eq : d.overflow = none

/-- An offer that leaves a delivery quiet did nothing. -/
theorem offer_of_quiet {fd : Fd} {ready : Mask} {d : Delivery} {key : Nat}
    (h : (d.offer fd ready key).Quiet) : d.offer fd ready key = d := by
  rcases d.offer_cases fd ready key with hsame | ⟨w, b, -, -, hpush, hmade⟩ | ⟨w, o, -, -, hover⟩
  · exact hsame
  · have hrecords := h.records_eq
    rw [hmade] at hrecords
    dsimp only at hrecords
    rw [Buffer.records_push hpush] at hrecords
    exact absurd hrecords (List.concat_ne_nil _ _)
  · have hoverflow := h.overflow_eq
    rw [hover] at hoverflow
    -- The first overflow is kept, and the new one comes in if there was none.
    cases ho : d.overflow with
    | none =>
      rw [ho] at hoverflow
      cases hoverflow
    | some o' =>
      rw [ho] at hoverflow
      cases hoverflow

/-- Offers in a row that leave a delivery quiet did nothing. -/
theorem foldl_offer_of_quiet {fd : Fd} {ready : Mask} {keys : List Nat} {d : Delivery}
    (h : (keys.foldl (offer fd ready) d).Quiet) : keys.foldl (offer fd ready) d = d := by
  induction keys generalizing d with
  | nil => rfl
  | cons key keys ih =>
    rw [List.foldl_cons] at h ⊢
    -- The later offers did nothing, so it is the first one that left the delivery quiet.
    have hrest := ih h
    rw [hrest] at h ⊢
    exact offer_of_quiet h

/-- An event that leaves a delivery quiet did nothing. -/
theorem fanOut_of_quiet {d : Delivery} {e : Event} (h : (d.fanOut e).Quiet) : d.fanOut e = d :=
  foldl_offer_of_quiet h

end Delivery

namespace Collector

variable {σ : Type} {host : Host σ}

/-! ### Deliveries -/

/-- Delivering events disarms one-shot watches and does nothing else to the registry, also when the
    poller refuses a registration. -/
theorem deliver_firesTo (host : Host σ) (emulated : Bool) (es : List Event) (d : Delivery) (s : σ) :
    d.registry.FiresTo (deliver host emulated es d s).2.1.registry := by
  induction es generalizing d s with
  | nil => exact Registry.FiresTo.refl _
  | cons e es ih =>
    have hfan := d.fanOut_firesTo e
    unfold deliver
    dsimp only
    split
    · exact hfan.trans (ih _ _)
    · -- A refused registration ends the delivery after this event.
      split
      · exact hfan
      · exact hfan.trans (ih _ _)

/-- A delivery that goes well has not overflowed. -/
theorem deliver_overflow_eq {emulated : Bool} {es : List Event} {d d' : Delivery} {s s' : σ}
    (h : deliver host emulated es d s = (.ok (), d', s')) : d'.overflow = none := by
  induction es generalizing d s with
  | nil =>
    obtain ⟨hresult, hd⟩ := Prod.mk.inj h
    obtain ⟨rfl, -⟩ := Prod.mk.inj hd
    unfold Delivery.result at hresult
    cases ho : d.overflow with
    | none => rfl
    | some o =>
      rw [ho] at hresult
      cases hresult
  | cons e es ih =>
    unfold deliver at h
    dsimp only at h
    split at h
    · exact ih h
    · split at h
      · cases h
      · exact ih h

/-- A delivery that goes well and leaves nothing behind did nothing to the watches. -/
theorem deliver_of_quiet {emulated : Bool} {es : List Event} {d d' : Delivery} {s s' : σ}
    (h : deliver host emulated es d s = (.ok (), d', s')) (hb : d'.buffer.records = []) :
    d' = d := by
  induction es generalizing d s with
  | nil =>
    obtain ⟨-, hd⟩ := Prod.mk.inj h
    exact (Prod.mk.inj hd).1.symm
  | cons e es ih =>
    have hrest : ∀ {s}, deliver host emulated es (d.fanOut e) s = (.ok (), d', s') → d' = d := by
      intro s h
      have heq := ih h
      have hquiet : (d.fanOut e).Quiet := by
        rw [← heq]
        exact ⟨hb, deliver_overflow_eq h⟩
      rw [heq, Delivery.fanOut_of_quiet hquiet]
    unfold deliver at h
    dsimp only at h
    split at h
    · exact hrest h
    · split at h
      · cases h
      · exact hrest h

/-- The events `es` are delivered and no registration is refused, which leads from `d` and `s` to
    `d'` and `s'`. -/
inductive Delivers (host : Host σ) (emulated : Bool) :
    List Event → Delivery → σ → Delivery → σ → Prop where
  | nil (d : Delivery) (s : σ) : Delivers host emulated [] d s d s
  | keep {e : Event} {es : List Event} {d d' : Delivery} {s s' : σ}
      (hr : Delivery.rearm? emulated d (d.fanOut e) e = none)
      (h : Delivers host emulated es (d.fanOut e) s d' s') :
      Delivers host emulated (e :: es) d s d' s'
  | rearm {e : Event} {es : List Event} {r : Registration} {d d' : Delivery} {s s₁ s' : σ}
      (hr : Delivery.rearm? emulated d (d.fanOut e) e = some r)
      (hm : host.modify e.fd r s = (.ok (), s₁))
      (h : Delivers host emulated es (d.fanOut e) s₁ d' s') :
      Delivers host emulated (e :: es) d s d' s'

/-- **Inversion of a delivery.**  All events are delivered, or some are and the registration of the
    next one is refused.  Its watches have been offered it, those of the events behind it have not. -/
theorem deliver_cases (host : Host σ) (emulated : Bool) (es : List Event) (d : Delivery) (s : σ) :
    (∃ d' s', Delivers host emulated es d s d' s' ∧
      deliver host emulated es d s = (d'.result, d', s')) ∨
    ∃ pre e post d' r s₁ err s₂, es = pre ++ e :: post ∧ Delivers host emulated pre d s d' s₁ ∧
      Delivery.rearm? emulated d' (d'.fanOut e) e = some r ∧
      host.modify e.fd r s₁ = (.error err, s₂) ∧
      deliver host emulated es d s = (.error (.io err), d'.fanOut e, s₂) := by
  induction es generalizing d s with
  | nil => exact Or.inl ⟨d, s, .nil d s, rfl⟩
  | cons e es ih =>
    unfold deliver
    dsimp only
    cases hr : Delivery.rearm? emulated d (d.fanOut e) e with
    | none =>
      rcases ih (d.fanOut e) s with ⟨d', s', h, heq⟩ |
        ⟨pre, e', post, d', r, s₁, err, s₂, rfl, h, hr', hm, heq⟩
      · exact Or.inl ⟨d', s', .keep hr h, heq⟩
      · exact Or.inr ⟨e :: pre, e', post, d', r, s₁, err, s₂, rfl, .keep hr h, hr', hm, heq⟩
    | some r =>
      dsimp only
      rcases hm : host.modify e.fd r s with ⟨err | u, s₁⟩
      · exact Or.inr ⟨[], e, es, d, r, s, err, s₁, rfl, .nil d s, hr, hm, rfl⟩
      · rcases ih (d.fanOut e) s₁ with ⟨d', s', h, heq⟩ |
          ⟨pre, e', post, d', r', s₂, err, s₃, rfl, h, hr', hm', heq⟩
        · exact Or.inl ⟨d', s', .rearm hr hm h, heq⟩
        · exact Or.inr ⟨e :: pre, e', post, d', r', s₂, err, s₃, rfl, .rearm hr hm h, hr', hm', heq⟩

/-- Delivered events were all offered to their watches, in order. -/
theorem Delivers.eq_foldl {emulated : Bool} {es : List Event} {d d' : Delivery} {s s' : σ}
    (h : Delivers host emulated es d s d' s') : d' = es.foldl Delivery.fanOut d := by
  induction h with
  | nil d s => rfl
  | keep _ _ ih => exact ih
  | rearm _ _ _ ih => exact ih

/-- Delivered events disarm one-shot watches and do nothing else to the registry. -/
theorem Delivers.firesTo {emulated : Bool} {es : List Event} {d d' : Delivery} {s s' : σ}
    (h : Delivers host emulated es d s d' s') : d.registry.FiresTo d'.registry := by
  induction h with
  | nil d s => exact Registry.FiresTo.refl _
  | keep _ _ ih => exact (Delivery.fanOut_firesTo _ _).trans ih
  | rearm _ _ _ ih => exact (Delivery.fanOut_firesTo _ _).trans ih

/-- What accepted registrations keep, a delivery keeps. -/
theorem Delivers.keeps {emulated : Bool} {es : List Event} {d d' : Delivery} {s s' : σ}
    (h : Delivers host emulated es d s d' s') (P : σ → Prop)
    (hmodify : ∀ {fd r s s'}, P s → host.modify fd r s = (.ok (), s') → P s') (hp : P s) :
    P s' := by
  induction h with
  | nil d s => exact hp
  | keep _ _ ih => exact ih hp
  | rearm _ hm _ ih => exact ih (hmodify hp hm)

/-! ### Iterations -/

/-- What the next wait of an iteration comes to, if the iteration comes to `r` with `waits` more of
    them: it goes on after an interruption or after events that did nothing, or it is over. -/
inductive Round (host : Host σ) (emulated : Bool) (timeout : Timeout) (start : Duration)
    (waits : Nat) (limit : Option Duration) (d : Delivery) (s : σ) :
    Except Error Unit × Delivery × σ → Prop where
  /-- The wait was interrupted, and there is time left. -/
  | interrupted {e : SystemError} {s' : σ} {left : Option Duration}
      {r : Except Error Unit × Delivery × σ} (hw : host.wait limit s = (.error e, s'))
      (hk : e.kind = .interrupted) (hl : timeout.limitAfter (host.now s' - start) = some left)
      (hr : collect host emulated timeout start waits left d s' = some r) :
      Round host emulated timeout start waits limit d s r
  /-- The wait was interrupted, and the time is up. -/
  | timeUp {e : SystemError} {s' : σ} (hw : host.wait limit s = (.error e, s'))
      (hk : e.kind = .interrupted) (hl : timeout.limitAfter (host.now s' - start) = none) :
      Round host emulated timeout start waits limit d s (.ok (), d, s')
  /-- The wait failed with another error. -/
  | failed {e : SystemError} {s' : σ} (hw : host.wait limit s = (.error e, s'))
      (hk : e.kind ≠ .interrupted) :
      Round host emulated timeout start waits limit d s (.error (.io e), d, s')
  /-- The events of the wait overflow the buffer, or the poller refuses a registration. -/
  | broken {es : List Event} {s₁ s' : σ} {d' : Delivery} {err : Error}
      (hw : host.wait limit s = (.ok es, s₁))
      (hd : deliver host emulated es d s₁ = (.error err, d', s')) :
      Round host emulated timeout start waits limit d s (.error err, d', s')
  /-- The iteration blocks, and the events did nothing. -/
  | quiet {es : List Event} {s₁ s₂ : σ} {r : Except Error Unit × Delivery × σ}
      (hw : host.wait limit s = (.ok es, s₁))
      (hd : deliver host emulated es d s₁ = (.ok (), d, s₂))
      (hb : timeout = .block ∧ d.buffer.isEmpty)
      (hr : collect host emulated timeout start waits limit d s₂ = some r) :
      Round host emulated timeout start waits limit d s r
  /-- The events are delivered, and the iteration does not wait for more. -/
  | delivered {es : List Event} {s₁ s' : σ} {d' : Delivery}
      (hw : host.wait limit s = (.ok es, s₁))
      (hd : deliver host emulated es d s₁ = (.ok (), d', s'))
      (hb : ¬ (timeout = .block ∧ d'.buffer.isEmpty)) :
      Round host emulated timeout start waits limit d s (.ok (), d', s')

/-- **Inversion of an iteration by its first wait.** -/
theorem collect_round {emulated : Bool} {timeout : Timeout} {start : Duration} {waits : Nat}
    {limit : Option Duration} {d : Delivery} {s : σ} {r : Except Error Unit × Delivery × σ}
    (hr : collect host emulated timeout start (waits + 1) limit d s = some r) :
    Round host emulated timeout start waits limit d s r := by
  unfold collect at hr
  split at hr
  · next e s' hw =>
    split at hr
    · next hk =>
      split at hr
      · next hl =>
        cases hr
        exact .timeUp hw hk hl
      · next left hl => exact .interrupted hw hk hl hr
    · next hk =>
      cases hr
      exact .failed hw hk
  · next es s₁ hw =>
    split at hr
    · next err d' s' hd =>
      cases hr
      exact .broken hw hd
    · next d' s' hd =>
      split at hr
      · next hb =>
        -- Nothing was reported, so nothing was done.
        have hsame : d' = d := deliver_of_quiet hd (List.isEmpty_iff.mp hb.2)
        subst hsame
        exact .quiet hw hd hb hr
      · next hb =>
        cases hr
        exact .delivered hw hd hb

/-- **Induction over the waits of an iteration, up to the last one.**  What a failing wait keeps, and
    what a wait and a delivery that went well keep, holds when the iteration ends, or when the last
    wait began, whose delivery failed. -/
theorem collect_last {emulated : Bool} {timeout : Timeout} {start : Duration}
    (P : Delivery → σ → Prop)
    (hfail : ∀ {limit d s e s'}, P d s → host.wait limit s = (.error e, s') → P d s')
    (hdeliver : ∀ {limit d s es s₁ d' s'}, P d s → host.wait limit s = (.ok es, s₁) →
      deliver host emulated es d s₁ = (.ok (), d', s') → P d' s')
    {waits : Nat} {limit : Option Duration} {d : Delivery} {s : σ}
    {r : Except Error Unit × Delivery × σ}
    (hr : collect host emulated timeout start waits limit d s = some r) (hp : P d s) :
    P r.2.1 r.2.2 ∨
    ∃ limit d₁ s₁ es s₂ e, P d₁ s₁ ∧ host.wait limit s₁ = (.ok es, s₂) ∧ r.1 = .error e ∧
      deliver host emulated es d₁ s₂ = r := by
  induction waits generalizing limit s with
  | zero => cases hr
  | succ n ih =>
    cases collect_round hr with
    | interrupted hw _ _ hr => exact ih hr (hfail hp hw)
    | timeUp hw | failed hw => exact Or.inl (hfail hp hw)
    | quiet hw hd _ hr => exact ih hr (hdeliver hp hw hd)
    | broken hw hd => exact Or.inr ⟨_, _, _, _, _, _, hp, hw, rfl, hd⟩
    | delivered hw hd => exact Or.inl (hdeliver hp hw hd)

/-- **Induction over the waits of an iteration.**  What a failing wait keeps, and what a wait
    together with the delivery of its events keeps, the whole iteration keeps. -/
theorem collect_induction {emulated : Bool} {timeout : Timeout} {start : Duration}
    (P : Delivery → σ → Prop)
    (hfail : ∀ {limit d s e s'}, P d s → host.wait limit s = (.error e, s') → P d s')
    (hdeliver : ∀ {limit d s es s'}, P d s → host.wait limit s = (.ok es, s') →
      P (deliver host emulated es d s').2.1 (deliver host emulated es d s').2.2)
    {waits : Nat} {limit : Option Duration} {d : Delivery} {s : σ}
    {r : Except Error Unit × Delivery × σ}
    (hr : collect host emulated timeout start waits limit d s = some r) (hp : P d s) :
    P r.2.1 r.2.2 := by
  have hwell : ∀ {limit d s es s₁ d' s'}, P d s → host.wait limit s = (.ok es, s₁) →
      deliver host emulated es d s₁ = (.ok (), d', s') → P d' s' := by
    intro limit d s es s₁ d' s' hp hw hd
    have hp' := hdeliver hp hw
    rw [hd] at hp'
    exact hp'
  rcases collect_last P hfail hwell hr hp with hp' | ⟨_, d₁, s₁, es, s₂, e, hp₁, hw, -, hd⟩
  · exact hp'
  · rw [← hd]
    exact hdeliver hp₁ hw

/-- An iteration disarms one-shot watches and does nothing else to the registry. -/
theorem collect_firesTo {emulated : Bool} {timeout : Timeout} {start : Duration} {waits : Nat}
    {limit : Option Duration} {d : Delivery} {s : σ} {r : Except Error Unit × Delivery × σ}
    (hr : collect host emulated timeout start waits limit d s = some r) :
    d.registry.FiresTo r.2.1.registry :=
  collect_induction (fun d' _ => d.registry.FiresTo d'.registry) (fun h _ => h)
    (fun h _ => h.trans (deliver_firesTo _ _ _ _ _)) hr (Registry.FiresTo.refl _)

/-- **Inversion of an iteration.**  No wait gave events that were reported, and the watches are as
    they were, or the iteration is one delivery, from the watches and the buffer it began with. -/
theorem collect_cases {emulated : Bool} {timeout : Timeout} {start : Duration} {waits : Nat}
    {limit : Option Duration} {d : Delivery} {s : σ} {r : Except Error Unit × Delivery × σ}
    (hr : collect host emulated timeout start waits limit d s = some r) :
    r.2.1 = d ∨ ∃ es s', r = deliver host emulated es d s' := by
  induction waits generalizing limit s with
  | zero => cases hr
  | succ n ih =>
    cases collect_round hr with
    | interrupted _ _ _ hr | quiet _ _ _ hr => exact ih hr
    | timeUp | failed => exact Or.inl rfl
    | broken _ hd | delivered _ hd => exact Or.inr ⟨_, _, hd.symm⟩

/-! ### Runs -/

/-- **Inversion of a run.**  The hook called it off, or an iteration was collected between the two
    calls of the hook, which are left out when the run cannot block, and then finished. -/
theorem run_cases {c : Collector σ} {wakeFd wokeFd : Fd} {timeout : Timeout} {waits : Nat} {s : σ}
    {o : Outcome σ Nat} (ho : c.run host wakeFd wokeFd timeout waits s = some o) :
    (timeout.mayBlock = true ∧ (c.hook.prepareToWait wakeFd s).1 = true ∧
      o = ⟨.ok 0, { c with buffer := c.buffer.clear },
        host.log .calledOff (c.hook.prepareToWait wakeFd s).2⟩) ∨
    (∃ s₀ s₁ answer d,
      s₀ = (if timeout.mayBlock then (c.hook.prepareToWait wakeFd s).2 else s) ∧
      collect host c.emulated timeout (host.now s₀) waits timeout.limit
        ⟨c.registry, c.buffer.clear, none⟩ s₀ = some (answer, d, s₁) ∧
      o = finish host { c with registry := d.registry, buffer := d.buffer } wokeFd answer
        (if timeout.mayBlock then c.hook.waitFinished s₁ else s₁)) := by
  unfold run at ho
  dsimp only at ho
  split at ho
  · next hb =>
    split at ho
    · next s' hh =>
      rw [Option.some.injEq] at ho
      rw [hh]
      exact Or.inl ⟨hb, rfl, ho.symm⟩
    · next s' hh =>
      obtain ⟨⟨answer, d, s₁⟩, hc, ho⟩ := Option.map_eq_some_iff.mp ho
      refine Or.inr ⟨s', s₁, answer, d, ?_, hc, ?_⟩
      · rw [if_pos hb, hh]
      · rw [if_pos hb]
        exact ho.symm
  · next hb =>
    obtain ⟨⟨answer, d, s₁⟩, hc, ho⟩ := Option.map_eq_some_iff.mp ho
    refine Or.inr ⟨s, s₁, answer, d, ?_, hc, ?_⟩
    · rw [if_neg hb]
    · rw [if_neg hb]
      exact ho.symm

/-- **Inversion of the end of an iteration.**  One that failed is left as it is, from another one the
    records of the wake descriptor are taken out. -/
theorem finish_cases (host : Host σ) (c : Collector σ) (wokeFd : Fd) (answer : Except Error Unit)
    (s : σ) :
    (∃ e, answer = .error e ∧ finish host c wokeFd answer s = ⟨.error e, c, s⟩) ∨
    (∃ s', answer = .ok () ∧ finish host c wokeFd answer s =
      ⟨.ok (c.buffer.removeFd wokeFd).size,
        { c with buffer := c.buffer.removeFd wokeFd }, s'⟩) := by
  cases answer with
  | error e => exact Or.inl ⟨e, rfl, rfl⟩
  | ok u => exact Or.inr ⟨_, rfl, rfl⟩

/-- A run fails exactly as its iteration did. -/
theorem finish_answer_eq_error_iff (host : Host σ) (c : Collector σ) (wokeFd : Fd)
    (answer : Except Error Unit) (s : σ) (e : Error) :
    (finish host c wokeFd answer s).answer = .error e ↔ answer = .error e := by
  rcases finish_cases host c wokeFd answer s with ⟨e', rfl, h⟩ | ⟨s', rfl, h⟩
  · rw [h, Except.error.injEq, Except.error.injEq]
  · rw [h]
    exact iff_of_false nofun nofun

/-- Finishing an iteration keeps the registry, the hook and the mode. -/
theorem finish_collector (host : Host σ) (c : Collector σ) (wokeFd : Fd)
    (answer : Except Error Unit) (s : σ) :
    ∃ buffer, (finish host c wokeFd answer s).collector = { c with buffer := buffer } := by
  rcases finish_cases host c wokeFd answer s with ⟨e, -, h⟩ | ⟨s', -, h⟩
  · exact ⟨c.buffer, by rw [h]⟩
  · exact ⟨c.buffer.removeFd wokeFd, by rw [h]⟩

/-- **A run comes to one delivery** from the watches it began with into the cleared buffer, without
    the records of the wake descriptor if it went well.  Or it reports nothing, and the watches are
    as they were. -/
theorem run_delivers {c : Collector σ} {wakeFd wokeFd : Fd} {timeout : Timeout} {waits : Nat} {s : σ}
    {o : Outcome σ Nat} (ho : c.run host wakeFd wokeFd timeout waits s = some o) :
    (o.collector.registry = c.registry ∧ o.collector.buffer.records = []) ∨
    ∃ es s' answer d s'',
      deliver host c.emulated es ⟨c.registry, c.buffer.clear, none⟩ s' = (answer, d, s'') ∧
      o.collector.registry = d.registry ∧
      ((∃ e, answer = .error e ∧ o.answer = .error e ∧ o.collector.buffer = d.buffer) ∨
        (answer = .ok () ∧ o.answer = .ok (d.buffer.removeFd wokeFd).size ∧
          o.collector.buffer = d.buffer.removeFd wokeFd)) := by
  rcases run_cases ho with ⟨-, -, rfl⟩ | ⟨s₀, s₁, answer, d, -, hc, rfl⟩
  · exact Or.inl ⟨rfl, rfl⟩
  · have hfinish := finish_cases host { c with registry := d.registry, buffer := d.buffer } wokeFd
      answer (if timeout.mayBlock then c.hook.waitFinished s₁ else s₁)
    rcases collect_cases hc with hd | ⟨es, s', hd⟩
    · -- The iteration did not get to a delivery that reported anything.
      have hsame : d = ⟨c.registry, c.buffer.clear, none⟩ := hd
      rw [hsame] at hfinish ⊢
      rcases hfinish with ⟨e, -, h⟩ | ⟨s', -, h⟩
      · rw [h]
        exact Or.inl ⟨rfl, rfl⟩
      · rw [h]
        exact Or.inl ⟨rfl, rfl⟩
    · refine Or.inr ⟨es, s', answer, d, s₁, hd.symm, ?_⟩
      rcases hfinish with ⟨e, ha, h⟩ | ⟨s'', ha, h⟩
      · rw [h]
        exact ⟨rfl, Or.inl ⟨e, ha, rfl, rfl⟩⟩
      · rw [h]
        exact ⟨rfl, Or.inr ⟨ha, rfl, rfl⟩⟩

/-- A run disarms one-shot watches and writes the buffer; it changes nothing else of a collector. -/
theorem run_firesTo {c : Collector σ} {wakeFd wokeFd : Fd} {timeout : Timeout} {waits : Nat} {s : σ}
    {o : Outcome σ Nat} (ho : c.run host wakeFd wokeFd timeout waits s = some o) :
    c.registry.FiresTo o.collector.registry ∧
      o.collector =
        { c with registry := o.collector.registry, buffer := o.collector.buffer } := by
  rcases run_cases ho with ⟨-, -, rfl⟩ | ⟨s₀, s₁, answer, d, -, hc, rfl⟩
  · exact ⟨Registry.FiresTo.refl _, rfl⟩
  · obtain ⟨buffer, hb⟩ := finish_collector host
      { c with registry := d.registry, buffer := d.buffer } wokeFd answer
      (if timeout.mayBlock then c.hook.waitFinished s₁ else s₁)
    rw [hb]
    exact ⟨collect_firesTo hc, rfl⟩

end Collector

end Readiness
