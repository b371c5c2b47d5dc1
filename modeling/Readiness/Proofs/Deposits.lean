import Readiness.Proofs.FanOut

namespace Readiness

/-!
# What a run deposits, and for whom

A record does not say which watch it was made for, and a run takes some of its records out again
before it ends.  So what a run *deposits* is read off the offers it makes: the records by which each
of them extends the buffer, with the key of the watch it was made to.

* `Delivery.deposits` — what a list of events deposits;
* `Collector.offered` — the events a run offers to its watches, over all its waits, and
  `Collector.deposits` — what the run deposits;
* `Collector.run_offered` — what a run leaves behind is the fan-out of the events it offered;
* `Collector.prepared` — what the hook says before a run, and the run by this answer
  (`Collector.run_of_calledOff`, `Collector.run_of_not_calledOff`);
* `Delivery.deposits_eq` — the deposits are those of the unbounded reference, as far as the buffer
  goes, and `Collector.watch?_run` — they are all that the run does to the watches.
-/

/-! ### Deposits of a delivery -/

namespace Delivery

/-- The records an offer adds to the buffer, with the key of the watch it is made to. -/
def offerDeposits (fd : Fd) (ready : Mask) (d : Delivery) (key : Nat) : List (Nat × Record) :=
  ((d.offer fd ready key).buffer.records.drop d.buffer.records.length).map fun x => (key, x)

/-- The records that offers to the watches under these keys add to the buffer, one after the
    other. -/
def offersDeposits (fd : Fd) (ready : Mask) : List Nat → Delivery → List (Nat × Record)
  | [], _ => []
  | key :: keys, d =>
    d.offerDeposits fd ready key ++ offersDeposits fd ready keys (d.offer fd ready key)

/-- The records that a list of events adds to the buffer, with the keys of their watches. -/
def deposits : List Event → Delivery → List (Nat × Record)
  | [], _ => []
  | e :: es, d => offersDeposits e.fd e.mask (d.registry.chain e.fd) d ++ deposits es (d.fanOut e)

namespace Follows

variable {cap : Nat} {r : Registry} {F : List (Nat × Record)} {d : Delivery} {keys : List Nat}

/-- An offer deposits what the reference emits for its watch, as far as the buffer goes. -/
theorem take_append_offerDeposits (h : Follows cap r F d) {e : Event} {key : Nat} {w : Watch}
    (hw : r.watch? key = some w) (hfd : w.fd = e.fd) :
    F.take cap ++ d.offerDeposits e.fd e.mask key =
      (F ++ Roster.emit [(key, w.after key F)] e).take cap := by
  have hkey : ∀ x ∈ (Roster.emit [(key, w.after key F)] e).take (cap - F.length), x.1 = key := by
    intro x hx
    obtain ⟨v, hv, -⟩ := Roster.mem_map_emit_iff.mp (List.mem_map_of_mem (List.mem_of_mem_take hx))
    rw [List.mem_singleton] at hv
    exact congrArg Prod.fst hv
  unfold offerDeposits
  rw [(h.offer hw hfd).records_eq, h.records_eq, List.take_append, List.map_append,
    List.drop_left, List.map_map]
  congr 1
  -- All these records are of the one watch.
  conv_rhs => rw [← List.map_id (List.take _ _)]
  apply List.map_congr_left
  intro x hx
  rw [← hkey x hx]
  rfl

/-- Offers in a row deposit what the reference emits for their watches. -/
theorem take_append_offersDeposits {e : Event} {R : Roster} (h : Follows cap r F d)
    (hR : ∀ x ∈ R, r.watch? x.1 = some x.2 ∧ x.2.fd = e.fd) (hnd : (R.map Prod.fst).Nodup) :
    F.take cap ++ offersDeposits e.fd e.mask (R.map Prod.fst) d =
      (F ++ (Roster.spent R F).emit e).take cap := by
  induction R generalizing F d with
  | nil =>
    show F.take cap ++ [] = (F ++ []).take cap
    rw [List.append_nil, List.append_nil]
  | cons x R ih =>
    obtain ⟨hw, hfd⟩ := hR x List.mem_cons_self
    rw [List.map_cons, List.nodup_cons] at hnd
    have hrest := ih (h.offer hw hfd) (fun y hy => hR y (List.mem_cons_of_mem _ hy)) hnd.2
    rw [Roster.spent_append_emit hnd.1, List.append_assoc, ← Roster.emit_spent_cons,
      ← h.take_append_offerDeposits hw hfd, List.append_assoc] at hrest
    exact hrest

/-- Events deposit what the reference emits for them, as far as the buffer goes. -/
theorem take_append_deposits (h : Follows cap r F d) (he : r.Enrolled keys) (es : List Event) :
    F.take cap ++ deposits es d =
      (F ++ ((r.roster keys).spent F).emissions es).take cap := by
  have hnd := he.nodup_map_fst_roster
  induction es generalizing F d with
  | nil =>
    show F.take cap ++ [] = (F ++ []).take cap
    rw [List.append_nil, List.append_nil]
  | cons e es ih =>
    -- The event goes to the watches of its descriptor, in the reference to all of them.
    have hfirst : F.take cap ++ offersDeposits e.fd e.mask (d.registry.chain e.fd) d =
        (F ++ ((r.roster keys).spent F).emit e).take cap := by
      rw [h.chain_eq, ← he.map_fst_filter_roster, ← Roster.emit_filter_fd]
      refine h.take_append_offersDeposits ?_ ?_
      · intro x hx
        obtain ⟨hx, hfd⟩ := List.mem_filter.mp hx
        exact ⟨he.mem_roster_iff.mp hx, by simpa using hfd⟩
      · rw [he.map_fst_filter_roster, he.chain_eq]
        exact he.nodup.filter _
    have hrest := ih (h.fanOut he e)
    rw [← Roster.pass_spent hnd, ← hfirst, List.append_assoc, List.append_assoc] at hrest
    exact hrest

end Follows

/-- **A delivery deposits what the reference emits**, as far as the buffer goes. -/
theorem deposits_eq {r : Registry} {keys : List Nat} (he : r.Enrolled keys) (b : Buffer)
    (es : List Event) :
    deposits es ⟨r, b.clear, none⟩ = ((r.roster keys).emissions es).take b.capacity := by
  have h := (Follows.start r b).take_append_deposits he es
  rw [List.take_nil, List.nil_append, List.nil_append, Roster.spent_nil] at h
  exact h

end Delivery

/-! ### The events of a run -/

namespace Collector

variable {σ : Type} {host : Host σ}

/-- The events a delivery offers to its watches: all of them, or those up to the first whose
    registration is refused. -/
def delivered (host : Host σ) (emulated : Bool) : List Event → Delivery → σ → List Event
  | [], _, _ => []
  | e :: es, d, s =>
    let d' := d.fanOut e
    e :: match Delivery.rearm? emulated d d' e with
      | none => delivered host emulated es d' s
      | some registration =>
        match host.modify e.fd registration s with
        | (.error _, _) => []
        | (.ok (), s) => delivered host emulated es d' s

/-- The events an iteration offers to its watches, over all its waits. -/
def collected (host : Host σ) (emulated : Bool) (timeout : Timeout) (start : Duration) :
    (waits : Nat) → Option Duration → Delivery → σ → List Event
  | 0, _, _, _ => []
  | waits + 1, limit, d, s =>
    match host.wait limit s with
    | (.error e, s) =>
      if e.kind = .interrupted then
        match timeout.limitAfter (host.now s - start) with
        | none => []
        | some limit => collected host emulated timeout start waits limit d s
      else []
    | (.ok events, s) =>
      delivered host emulated events d s ++
        match deliver host emulated events d s with
        | (.error _, _, _) => []
        | (.ok (), d, s) =>
          if timeout = .block ∧ d.buffer.isEmpty then
            collected host emulated timeout start waits limit d s
          else []

/-- The delivery a run starts with. -/
def fresh (c : Collector σ) : Delivery := ⟨c.registry, c.buffer.clear, none⟩

/-- The events a run offers to its watches. -/
def offered (host : Host σ) (c : Collector σ) (wakeFd : Fd) (timeout : Timeout) (waits : Nat)
    (s : σ) : List Event :=
  let collected (s : σ) :=
    collected host c.emulated timeout (host.now s) waits timeout.limit c.fresh s
  if timeout.mayBlock then
    match c.hook.prepareToWait wakeFd s with
    | (true, _) => []
    | (false, s) => collected s
  else collected s

/-- The records a run adds to the buffer, with the keys of their watches. -/
def deposits (host : Host σ) (c : Collector σ) (wakeFd : Fd) (timeout : Timeout) (waits : Nat)
    (s : σ) : List (Nat × Record) :=
  Delivery.deposits (c.offered host wakeFd timeout waits s) c.fresh

/-- A delivery is the fan-out of the events it offered. -/
theorem deliver_delivered (host : Host σ) (emulated : Bool) (es : List Event) (d : Delivery)
    (s : σ) :
    (deliver host emulated es d s).2.1 =
      (delivered host emulated es d s).foldl Delivery.fanOut d := by
  induction es generalizing d s with
  | nil => rfl
  | cons e es ih =>
    unfold deliver delivered
    dsimp only
    rw [List.foldl_cons]
    cases Delivery.rearm? emulated d (d.fanOut e) e with
    | none => exact ih _ _
    | some registration =>
      dsimp only
      rcases host.modify e.fd registration s with ⟨err | u, s'⟩
      · rfl
      · exact ih _ _

/-- A delivery whose registrations were not refused offered all its events. -/
theorem delivered_eq {emulated : Bool} {es : List Event} {d : Delivery} {s : σ}
    (h : ∀ err, (deliver host emulated es d s).1 ≠ .error (.io err)) :
    delivered host emulated es d s = es := by
  induction es generalizing d s with
  | nil => rfl
  | cons e es ih =>
    unfold deliver at h
    unfold delivered
    dsimp only at h ⊢
    congr 1
    cases hr : Delivery.rearm? emulated d (d.fanOut e) e with
    | none =>
      rw [hr] at h
      exact ih h
    | some registration =>
      rw [hr] at h
      dsimp only at h ⊢
      rcases hm : host.modify e.fd registration s with ⟨err | u, s'⟩
      · rw [hm] at h
        exact absurd rfl (h err)
      · rw [hm] at h
        exact ih h

/-- **Inversion of an iteration, with what its waits keep.**  Either the last wait failed, and all
    there is to say is that nothing was reported; or the iteration is the delivery of the events of
    its last wait, and the waits before reported nothing. -/
theorem collect_keeping {emulated : Bool} {timeout : Timeout} {start : Duration} {d : Delivery}
    (P : σ → Prop)
    (hfail : ∀ {limit s e s'}, P s → host.wait limit s = (.error e, s') → P s')
    (hquiet : ∀ {limit s es s₁ s'}, P s → host.wait limit s = (.ok es, s₁) →
      deliver host emulated es d s₁ = (.ok (), d, s') → P s')
    {waits : Nat} {limit : Option Duration} {s : σ} {r : Except Error Unit × Delivery × σ}
    (hr : collect host emulated timeout start waits limit d s = some r) (hp : P s) :
    (r.2.1 = d ∧ P r.2.2 ∧ (r.1 = .ok () ∨ ∃ err, r.1 = .error (.io err)) ∧
      (collected host emulated timeout start waits limit d s).foldl Delivery.fanOut d = d) ∨
    ∃ limit' s₁ es s₂ pre, P s₁ ∧ host.wait limit' s₁ = (.ok es, s₂) ∧
      deliver host emulated es d s₂ = r ∧ pre.foldl Delivery.fanOut d = d ∧
      collected host emulated timeout start waits limit d s =
        pre ++ delivered host emulated es d s₂ := by
  induction waits generalizing limit s with
  | zero => cases hr
  | succ n ih =>
    cases collect_round hr with
    | interrupted hw hk hl hr =>
      simp only [collected, hw, if_pos hk, hl]
      exact ih hr (hfail hp hw)
    | timeUp hw hk hl =>
      refine Or.inl ⟨rfl, hfail hp hw, Or.inl rfl, ?_⟩
      simp only [collected, hw, if_pos hk, hl, List.foldl_nil]
    | failed hw hk =>
      refine Or.inl ⟨rfl, hfail hp hw, Or.inr ⟨_, rfl⟩, ?_⟩
      simp only [collected, hw, if_neg hk, List.foldl_nil]
    | broken hw hd =>
      refine Or.inr ⟨limit, s, _, _, [], hp, hw, hd, rfl, ?_⟩
      simp only [collected, hw, hd, List.append_nil, List.nil_append]
    | delivered hw hd hb =>
      refine Or.inr ⟨limit, s, _, _, [], hp, hw, hd, rfl, ?_⟩
      simp only [collected, hw, hd, if_neg hb, List.append_nil, List.nil_append]
    | @quiet es s₁ s₂ _ hw hd hb hr =>
      -- The events of this wait did nothing, and the iteration went on with others.
      have hfold := deliver_delivered host emulated es d s₁
      rw [hd] at hfold
      simp only [collected, hw, hd, if_pos hb]
      rcases ih hr (hquiet hp hw hd) with
        ⟨hsame, hp', ha, hc⟩ | ⟨limit', s₁', es', s₃, pre, hp₁, hw', hd', hpre, hc⟩
      · refine Or.inl ⟨hsame, hp', ha, ?_⟩
        rw [List.foldl_append, ← hfold]
        exact hc
      · refine Or.inr ⟨limit', s₁', es', s₃, delivered host emulated es d s₁ ++ pre, hp₁, hw', hd',
          ?_, ?_⟩
        · rw [List.foldl_append, ← hfold]
          exact hpre
        · rw [hc, List.append_assoc]

/-- An iteration is the fan-out of the events it offered. -/
theorem collect_collected {emulated : Bool} {timeout : Timeout} {start : Duration} {waits : Nat}
    {limit : Option Duration} {d : Delivery} {s : σ} {r : Except Error Unit × Delivery × σ}
    (hr : collect host emulated timeout start waits limit d s = some r) :
    r.2.1 = (collected host emulated timeout start waits limit d s).foldl Delivery.fanOut d := by
  rcases collect_keeping (fun _ => True) (fun _ _ => trivial) (fun _ _ _ => trivial) hr trivial with
    ⟨hsame, -, -, hc⟩ | ⟨limit', s₁, es, s₂, pre, -, -, hd, hpre, hc⟩
  · rw [hsame, hc]
  · rw [hc, List.foldl_append, hpre, ← deliver_delivered, hd]

/-- **Inversion of a run, with the events it offered.**  The hook called it off and it offered none,
    or these are the events of its iteration. -/
theorem run_collected {c : Collector σ} {wakeFd wokeFd : Fd} {timeout : Timeout} {waits : Nat}
    {s : σ} {o : Outcome σ Nat} (ho : c.run host wakeFd wokeFd timeout waits s = some o) :
    (timeout.mayBlock = true ∧ (c.hook.prepareToWait wakeFd s).1 = true ∧
      o = ⟨.ok 0, { c with buffer := c.buffer.clear },
        host.log .calledOff (c.hook.prepareToWait wakeFd s).2⟩ ∧
      c.offered host wakeFd timeout waits s = []) ∨
    (∃ s₀ s₁ answer d,
      s₀ = (if timeout.mayBlock then (c.hook.prepareToWait wakeFd s).2 else s) ∧
      collect host c.emulated timeout (host.now s₀) waits timeout.limit c.fresh s₀ =
        some (answer, d, s₁) ∧
      o = finish host { c with registry := d.registry, buffer := d.buffer } wokeFd answer
        (if timeout.mayBlock then c.hook.waitFinished s₁ else s₁) ∧
      c.offered host wakeFd timeout waits s =
        collected host c.emulated timeout (host.now s₀) waits timeout.limit c.fresh s₀) := by
  unfold run at ho
  unfold offered
  dsimp only at ho ⊢
  by_cases hb : timeout.mayBlock = true
  · simp only [if_pos hb] at ho ⊢
    rcases hh : c.hook.prepareToWait wakeFd s with ⟨calledOff | calledOff, s'⟩
    · rw [hh] at ho
      obtain ⟨⟨answer, d, s₁⟩, hc, rfl⟩ := Option.map_eq_some_iff.mp ho
      exact Or.inr ⟨s', s₁, answer, d, rfl, hc, rfl, rfl⟩
    · rw [hh] at ho
      cases ho
      exact Or.inl ⟨hb, rfl, rfl, rfl⟩
  · simp only [if_neg hb] at ho ⊢
    obtain ⟨⟨answer, d, s₁⟩, hc, rfl⟩ := Option.map_eq_some_iff.mp ho
    exact Or.inr ⟨s, s₁, answer, d, rfl, hc, rfl, rfl⟩

/-- **What a run leaves behind** is the fan-out of the events it offered, without the records of the
    wake descriptor if it went well. -/
theorem run_offered {c : Collector σ} {wakeFd wokeFd : Fd} {timeout : Timeout} {waits : Nat} {s : σ}
    {o : Outcome σ Nat} (ho : c.run host wakeFd wokeFd timeout waits s = some o) :
    ∃ d, d = (c.offered host wakeFd timeout waits s).foldl Delivery.fanOut c.fresh ∧
      o.collector.registry = d.registry ∧
      ((∃ e, o.answer = .error e ∧ o.collector.buffer = d.buffer) ∨
        (∃ n, o.answer = .ok n ∧ o.collector.buffer = d.buffer.removeFd wokeFd)) := by
  refine ⟨_, rfl, ?_⟩
  rcases run_collected ho with ⟨-, -, rfl, hoff⟩ | ⟨s₀, s₁, answer, d, -, hc, rfl, hoff⟩
  · -- The hook called the run off, and the buffer was cleared.
    rw [hoff]
    exact ⟨rfl, Or.inr ⟨0, rfl, rfl⟩⟩
  · rw [hoff, ← collect_collected hc]
    -- What was collected is left as it is, or the records of the wake descriptor are taken out.
    cases answer with
    | error e => exact ⟨rfl, Or.inl ⟨e, rfl, rfl⟩⟩
    | ok u => exact ⟨rfl, Or.inr ⟨_, rfl, rfl⟩⟩

/-! ### What comes before the waits -/

/-- What comes before the waits of a run: whether its hook calls it off, and the host then. -/
def prepared (c : Collector σ) (wakeFd : Fd) (timeout : Timeout) (s : σ) : Bool × σ :=
  if timeout.mayBlock then c.hook.prepareToWait wakeFd s else (false, s)

/-- A run that is called off leaves a cleared buffer. -/
theorem run_of_calledOff {c : Collector σ} {wakeFd : Fd} {timeout : Timeout} {s : σ}
    (h : (c.prepared wakeFd timeout s).1 = true) (wokeFd : Fd) (waits : Nat) :
    c.run host wakeFd wokeFd timeout waits s = some ⟨.ok 0, { c with buffer := c.buffer.clear },
      host.log .calledOff (c.prepared wakeFd timeout s).2⟩ := by
  unfold prepared at h ⊢
  unfold run
  by_cases hb : timeout.mayBlock = true
  · rw [if_pos hb] at h ⊢
    rcases hh : c.hook.prepareToWait wakeFd s with ⟨calledOff, s'⟩
    rw [hh] at h
    cases h
    simp only [if_pos hb]
  · rw [if_neg hb] at h
    cases h

/-- A run that is not is an iteration that is finished. -/
theorem run_of_not_calledOff {c : Collector σ} {wakeFd : Fd} {timeout : Timeout} {s : σ}
    (h : (c.prepared wakeFd timeout s).1 = false) (wokeFd : Fd) (waits : Nat) :
    c.run host wakeFd wokeFd timeout waits s =
      (collect host c.emulated timeout (host.now (c.prepared wakeFd timeout s).2) waits
        timeout.limit c.fresh (c.prepared wakeFd timeout s).2).map fun r =>
          finish host { c with registry := r.2.1.registry, buffer := r.2.1.buffer } wokeFd r.1
            (if timeout.mayBlock then c.hook.waitFinished r.2.2 else r.2.2) := by
  unfold prepared at h ⊢
  unfold run
  by_cases hb : timeout.mayBlock = true
  · rw [if_pos hb] at h ⊢
    rcases hh : c.hook.prepareToWait wakeFd s with ⟨calledOff, s'⟩
    rw [hh] at h
    cases h
    simp only [if_pos hb]
    rfl
  · simp only [if_neg hb]
    rfl

/-- The events of a run that is not called off are those of its iteration. -/
theorem offered_of_not_calledOff (host : Host σ) {c : Collector σ} {wakeFd : Fd} {timeout : Timeout}
    {s : σ} (h : (c.prepared wakeFd timeout s).1 = false) (waits : Nat) :
    c.offered host wakeFd timeout waits s =
      collected host c.emulated timeout (host.now (c.prepared wakeFd timeout s).2) waits
        timeout.limit c.fresh (c.prepared wakeFd timeout s).2 := by
  unfold prepared at h ⊢
  unfold offered
  by_cases hb : timeout.mayBlock = true
  · rw [if_pos hb] at h ⊢
    rcases hh : c.hook.prepareToWait wakeFd s with ⟨calledOff, s'⟩
    rw [hh] at h
    cases h
    simp only [if_pos hb]
  · simp only [if_neg hb]

/-! ### The deposits of a run -/

/-- The first record without room is the overflow. -/
theorem result_fanOut_eq_ok_iff {c : Collector σ} {keys : List Nat} (he : c.registry.Enrolled keys)
    (es : List Event) :
    (es.foldl Delivery.fanOut c.fresh).result = .ok () ↔
      ((c.registry.roster keys).emissions es).length ≤ c.buffer.capacity := by
  have hfollows : (es.foldl Delivery.fanOut c.fresh).Follows _ _ _ :=
    Delivery.follows_foldl_fanOut he c.buffer es
  constructor
  · intro hok
    by_contra hfull
    rw [hfollows.result_of_lt_length (Nat.lt_of_not_le hfull)] at hok
    cases hok
  · exact hfollows.result_of_length_le

/-- A run deposits what the reference emits for the events it offered, as far as the buffer goes. -/
theorem deposits_eq (host : Host σ) {c : Collector σ} {keys : List Nat}
    (he : c.registry.Enrolled keys) (wakeFd : Fd) (timeout : Timeout) (waits : Nat) (s : σ) :
    c.deposits host wakeFd timeout waits s =
      ((c.registry.roster keys).emissions (c.offered host wakeFd timeout waits s)).take
        c.buffer.capacity :=
  Delivery.deposits_eq he c.buffer _

/-- **The watches after a run** are those before, spent by what the run deposited. -/
theorem watch?_run {c : Collector σ} {keys : List Nat} (he : c.registry.Enrolled keys)
    {wakeFd wokeFd : Fd} {timeout : Timeout} {waits : Nat} {s : σ} {o : Outcome σ Nat}
    (ho : c.run host wakeFd wokeFd timeout waits s = some o) (key : Nat) :
    o.collector.registry.watch? key =
      (c.registry.watch? key).map fun w =>
        w.after key (c.deposits host wakeFd timeout waits s) := by
  obtain ⟨d, rfl, hr, -⟩ := run_offered ho
  have h := Delivery.follows_foldl_fanOut he c.buffer (c.offered host wakeFd timeout waits s)
  rw [hr, deposits_eq host he]
  exact h.watch?_eq key

/-- **The records after a run** are its deposits, without those of the wake descriptor if the run
    went well. -/
theorem records_run {c : Collector σ} {keys : List Nat} (he : c.registry.Enrolled keys)
    {wakeFd wokeFd : Fd} {timeout : Timeout} {waits : Nat} {s : σ} {o : Outcome σ Nat}
    (ho : c.run host wakeFd wokeFd timeout waits s = some o) :
    (∃ e, o.answer = .error e ∧
      o.collector.events = (c.deposits host wakeFd timeout waits s).map Prod.snd) ∨
    (∃ n, o.answer = .ok n ∧
      o.collector.events =
        ((c.deposits host wakeFd timeout waits s).map Prod.snd).filter fun x => x.fd ≠ wokeFd) := by
  obtain ⟨d, rfl, -, hb⟩ := run_offered ho
  have h := Delivery.follows_foldl_fanOut he c.buffer (c.offered host wakeFd timeout waits s)
  rw [deposits_eq host he, ← h.records_eq]
  rcases hb with ⟨e, ha, hb⟩ | ⟨n, ha, hb⟩
  · exact Or.inl ⟨e, ha, congrArg Buffer.records hb⟩
  · exact Or.inr ⟨n, ha, congrArg Buffer.records hb⟩

/-- A record is deposited for a live watch that was armed, under its descriptor. -/
theorem exists_watch_of_mem_deposits {c : Collector σ} {keys : List Nat}
    (he : c.registry.Enrolled keys) {wakeFd : Fd} {timeout : Timeout} {waits : Nat} {s : σ}
    {x : Nat × Record} (hx : x ∈ c.deposits host wakeFd timeout waits s) :
    ∃ w, c.registry.watch? x.1 = some w ∧ w.armed = true ∧ w.fd = x.2.fd := by
  rw [deposits_eq host he] at hx
  obtain ⟨w, hw, h⟩ := Roster.exists_watch_of_mem_emissions _ (List.mem_of_mem_take hx)
  exact ⟨w, he.mem_roster_iff.mp hw, h⟩

/-- One run deposits at most one record for a watch that does not persist. -/
theorem count_deposits_le_one {c : Collector σ} {keys : List Nat} (he : c.registry.Enrolled keys)
    {key : Nat} {w : Watch} (hw : c.registry.watch? key = some w)
    (hp : w.mask.isPersistent = false) (wakeFd : Fd) (timeout : Timeout) (waits : Nat) (s : σ) :
    ((c.deposits host wakeFd timeout waits s).map Prod.fst).count key ≤ 1 := by
  have hnd := he.nodup_map_fst_roster
  have hp' : ∀ v, (key, v) ∈ c.registry.roster keys → v.mask.isPersistent = false := by
    intro v hv
    have hv' := he.mem_roster_iff.mp hv
    rw [hw] at hv'
    cases hv'
    exact hp
  rw [deposits_eq host he]
  exact Nat.le_trans (((List.take_sublist _ _).map _).count_le key)
    (Roster.count_emissions_le_one hnd hp' _)

end Collector

end Readiness
