import Readiness.Proofs.Recovery

namespace Readiness

/-!
# A buffer of sufficient size

A buffer with a slot for every watch does not overflow, as long as no wait reports a descriptor
twice.  Interruptions, failed waits and refused registrations do not matter for that: whatever a run
goes through, all that it deposits comes from one of its waits.

* `Collector.delivered_prefix_events` — a delivery offers the first of its events, or all of them;
* `Collector.collect_last_wait` — the wait that an iteration ends with is in its trace;
* `Collector.run_deposits_of_wait` — a run deposits nothing, or what the first events of one of its
  waits emit.  It overflows only if all of them come to more records than there are slots;
* `History.sized_never_full` — events of distinct descriptors come to at most one record for a
  watch, so a slot for every watch is enough.
-/

variable {σ : Type} {host : Host σ}

/-- What was written down between `t` and `t'` can be read off. -/
theorem Traced.mem_since {α : Type} {f : Exchange → Option α} {t t₁ t₂ t' : Traced σ} {x : Exchange}
    {a : α} (hbefore : t.trace <+: t₁.trace) (hx : t₂.trace = t₁.trace ++ [x])
    (hafter : t₂.trace <+: t'.trace) (ha : f x = some a) : a ∈ t'.since t.trace.length f := by
  obtain ⟨xs, hxs⟩ := hbefore
  obtain ⟨ys, hys⟩ := hafter
  have htrace : t'.trace = t.trace ++ (xs ++ x :: ys) := by
    rw [← hys, hx, ← hxs, List.append_assoc, List.append_assoc]
    rfl
  unfold since
  rw [htrace, List.drop_left]
  exact List.mem_filterMap.mpr ⟨x, List.mem_append_right _ List.mem_cons_self, ha⟩

namespace Collector

/-- A delivery offers its events in order, up to the first refusal. -/
theorem delivered_prefix_events (host : Host σ) (emulated : Bool) (es : List Event) (d : Delivery)
    (s : σ) : delivered host emulated es d s <+: es := by
  induction es generalizing d s with
  | nil => exact List.prefix_refl _
  | cons e es ih =>
    unfold delivered
    dsimp only
    rw [List.prefix_cons_inj]
    cases Delivery.rearm? emulated d (d.fanOut e) e with
    | none => exact ih _ _
    | some registration =>
      dsimp only
      rcases host.modify e.fd registration s with ⟨err | u, s'⟩
      · exact List.nil_prefix
      · exact ih _ _

/-- A delivery overflows only if its events come to more records than there are slots. -/
theorem capacity_lt_of_deliver {c : Collector σ} {keys : List Nat} (he : c.registry.Enrolled keys)
    {es : List Event} {s s' : σ} {d : Delivery} {x : Overflow}
    (hd : deliver host c.emulated es c.fresh s = (.error (.bufferFull x), d, s')) :
    c.buffer.capacity < ((c.registry.roster keys).emissions es).length := by
  rcases deliver_cases host c.emulated es c.fresh s with ⟨d', s₁, hall, heq⟩ |
    ⟨_, _, _, _, _, _, err, _, -, -, -, -, heq⟩
  · rw [heq] at hd
    have hresult := congrArg Prod.fst hd
    by_contra hfits
    have hok := (result_fanOut_eq_ok_iff he es).mpr (Nat.le_of_not_lt hfits)
    rw [← hall.eq_foldl] at hok
    cases hok.symm.trans hresult
  · rw [heq] at hd
    cases hd

/-- **Inversion of an iteration, with its trace.**  Either all there is to say is that nothing was
    reported, or the iteration is the delivery of the events of a wait that is in the trace. -/
theorem collect_last_wait {emulated : Bool} {timeout : Timeout} {start : Duration} {waits : Nat}
    {limit : Option Duration} {d : Delivery} {t : Traced σ}
    {r : Except Error Unit × Delivery × Traced σ}
    (hr : collect host.traced emulated timeout start waits limit d t = some r) :
    (r.2.1 = d ∧ (r.1 = .ok () ∨ ∃ err, r.1 = .error (.io err))) ∨
    ∃ limit' t₁ es t₂ pre, t.trace <+: t₁.trace ∧ host.traced.wait limit' t₁ = (.ok es, t₂) ∧
      t₂.trace <+: r.2.2.trace ∧ deliver host.traced emulated es d t₂ = r ∧
      pre.foldl Delivery.fanOut d = d ∧
      collected host.traced emulated timeout start waits limit d t =
        pre ++ delivered host.traced emulated es d t₂ := by
  have hdelivers : ∀ {es t₁ r}, deliver host.traced emulated es d t₁ = r →
      t₁.trace <+: r.2.2.trace := by
    rintro es t₁ _ rfl
    exact deliver_appends host emulated es d t₁
  have hwait : ∀ {limit answer t₁ t₂}, t.trace <+: t₁.trace →
      host.traced.wait limit t₁ = (answer, t₂) → t.trace <+: t₂.trace :=
    fun hp hw => hp.trans ⟨_, (Traced.of_note hw).2.symm⟩
  rcases collect_keeping (fun t' => t.trace <+: t'.trace) hwait
      (fun hp hw hd => (hwait hp hw).trans (hdelivers hd)) hr (List.prefix_refl _) with
    ⟨hsame, -, hanswer, -⟩ | ⟨limit', t₁, es, t₂, pre, hp, hw, hd, hrest⟩
  · exact Or.inl ⟨hsame, hanswer⟩
  · exact Or.inr ⟨limit', t₁, es, t₂, pre, hp, hw, hdelivers hd, hd, hrest⟩

/-- **What a run deposits comes from one of its waits.**  The waits before it reported nothing, and
    after it the run is over. -/
theorem run_deposits_of_wait {c : Collector (Traced σ)} (hh : c.hook.Aside) {keys : List Nat}
    (he : c.registry.Enrolled keys) {wakeFd wokeFd : Fd} {timeout : Timeout} {waits : Nat}
    {t : Traced σ} {o : Outcome (Traced σ) Nat}
    (ho : c.run host.traced wakeFd wokeFd timeout waits t = some o) :
    (c.deposits host.traced wakeFd timeout waits t = [] ∧
      ∀ x, o.answer ≠ .error (.bufferFull x)) ∨
    ∃ es ∈ o.state.since t.trace.length Exchange.events?, ∃ es', es' <+: es ∧
      c.deposits host.traced wakeFd timeout waits t =
        ((c.registry.roster keys).emissions es').take c.buffer.capacity ∧
      ∀ x, o.answer = .error (.bufferFull x) →
        c.buffer.capacity < ((c.registry.roster keys).emissions es).length := by
  rcases run_collected ho with ⟨-, -, rfl, hoff⟩ | ⟨t₀, t₁, answer, d, ht₀, hc, rfl, hoff⟩
  · -- A run that was called off did not wait.
    left
    unfold deposits
    rw [hoff]
    exact ⟨rfl, fun x h => nomatch h⟩
  have hstart : t.trace <+: t₀.trace := (ht₀ ▸ prepared_aside hh wakeFd timeout t).appends
  have hend := (finished_aside host hh d wokeFd timeout answer t₁).appends
  rcases collect_last_wait hc with
    ⟨hsame, hnot⟩ | ⟨limit, t₂, es, t₃, pre, hp, hw, hdelivers, hd, hpre, hcollected⟩
  · -- Nothing was reported by any wait.
    have hfold := collect_collected hc
    rw [show d = c.fresh from hsame, ← hoff] at hfold
    refine Or.inl ⟨?_, fun x h => ?_⟩
    · rw [deposits_eq host.traced he, emissions_eq_nil he hfold.symm, List.take_nil]
    · rw [(finish_answer_eq_error_iff ..).mp h] at hnot
      rcases hnot with h' | ⟨err, h'⟩
      · cases h'
      · cases h'
  · refine Or.inr ⟨es, ?_, _, delivered_prefix_events host.traced c.emulated es c.fresh t₃,
      deposits_of_quiet_start he hpre (hoff.trans hcollected), fun x h => ?_⟩
    · exact Traced.mem_since (hstart.trans hp) (Traced.of_note hw).2 (hdelivers.trans hend) rfl
    · rw [(finish_answer_eq_error_iff ..).mp h] at hd
      exact capacity_lt_of_deliver he hd

end Collector

/-! ### Every history -/

/-- **A slot for every watch is enough.**  Take any run after any history, with any timeout, of
    which no wait reports a descriptor twice.  Waits may be interrupted or fail, and any call may be
    refused.  Then the run deposits at most one record for a watch, each for a watch of its
    descriptor, so there are no more of them than watches.  If there is a slot for every watch, then
    the buffer does not overflow. -/
theorem History.sized_never_full {acts : List (Action (Traced σ))} {c : Collector (Traced σ)}
    {t : Traced σ} (h : History host.traced Overheard acts c t) {wakeFd wokeFd : Fd}
    {timeout : Timeout} {waits : Nat} {o : Outcome (Traced σ) Nat}
    (ho : c.run host.traced wakeFd wokeFd timeout waits t = some o)
    (hfds : ∀ es ∈ o.state.since t.trace.length Exchange.events?, (es.map Event.fd).Nodup) :
    let F := c.deposits host.traced wakeFd timeout waits t
    (F.map Prod.fst).Nodup ∧
    (∀ x ∈ F, ∃ w, c.registry.watch? x.1 = some w ∧ w.fd = x.2.fd) ∧
    F.length ≤ c.watchCount ∧
    (c.watchCount ≤ c.capacity → ∀ x, o.answer ≠ .error (.bufferFull x)) := by
  intro F
  have he := h.enrolled
  have hnd := he.nodup_map_fst_roster
  have hsize : (c.registry.roster (roll acts)).length = c.watchCount := by
    rw [← List.length_map Prod.fst, he.map_fst_roster]
    exact he.length_eq
  have hwatch : ∀ x ∈ F, ∃ w, c.registry.watch? x.1 = some w ∧ w.fd = x.2.fd := by
    intro x hx
    obtain ⟨w, hw, -, hfd⟩ := Collector.exists_watch_of_mem_deposits he hx
    exact ⟨w, hw, hfd⟩
  rcases Collector.run_deposits_of_wait h.covers.1 he ho with
    ⟨hF, hanswer⟩ | ⟨es, hes, es', hfirst, hF, hfull⟩
  · refine ⟨?_, hwatch, ?_, fun _ => hanswer⟩
    · rw [show F = [] from hF]
      exact List.nodup_nil
    · rw [show F = [] from hF]
      exact Nat.zero_le _
  · have hfds' : (es'.map Event.fd).Nodup := (hfds es hes).sublist (hfirst.sublist.map _)
    refine ⟨?_, hwatch, ?_, fun hroom x hx => ?_⟩
    · rw [show F = _ from hF]
      exact (Roster.nodup_map_emissions hnd hfds').sublist ((List.take_sublist _ _).map _)
    · rw [show F = _ from hF, ← hsize]
      exact Nat.le_trans (List.length_take_le' _ _) (Roster.length_emissions_le hnd hfds')
    · -- The wait came to more records than there are watches.
      have hle := Roster.length_emissions_le hnd (hfds es hes)
      rw [hsize] at hle
      exact absurd (Nat.lt_of_lt_of_le (hfull x hx) hle) (Nat.not_lt.mpr hroom)

open Scenario in
/-- Descriptor 5 has a one-shot and a persistent reader, and descriptor 6 a one-shot writer.  There
    are three slots.  A blocking run is interrupted, hears of a descriptor that nobody watches, and
    then fills all three. -/
theorem sized_never_full_blocking :
    ∃ (c : Collector (Traced World)) (t : Traced World) (o : Outcome (Traced World) Nat),
      History (World.host 0).traced Overheard
        [.add 5 .read (.ok ⟨0, 0⟩), .add 5 (.read ∪ .persist) (.ok ⟨1, 1⟩),
          .add 6 .write (.ok ⟨2, 2⟩)] c t ∧
      c.run (World.host 0).traced 0 1 .block 3 t = some o ∧
      o.state.since t.trace.length Exchange.events? =
        [[⟨9, true, false, false, none⟩],
          [⟨6, false, true, false, none⟩, ⟨5, true, false, false, none⟩]] ∧
      c.watchCount = 3 ∧ c.capacity = 3 ∧
      c.deposits (World.host 0).traced 0 .block 3 t = [(2, ⟨6, 4⟩), (0, ⟨5, 2⟩), (1, ⟨5, 2⟩)] ∧
      ((c.deposits (World.host 0).traced 0 .block 3 t).map Prod.fst).Nodup ∧
      ∀ x, o.answer ≠ .error (.bufferFull x) := by
  have h₀ : History (World.host 0).traced Overheard [] _ _ :=
    .create (show Collector.create (World.host 0).traced (Buffer.ofCapacity 3) default
      ⟨World.answering true
        [.failure 4 0, .events [⟨9, true, false, false, none⟩],
          .events [⟨6, false, true, false, none⟩, ⟨5, true, false, false, none⟩]], []⟩ =
        (.ok _, _) from rfl)
  have h₁ := h₀.step (.add 5 .read _ _) trivial
  have h₂ := h₁.step (.add 5 (.read ∪ .persist) _ _) trivial
  have h₃ := h₂.step (.add 6 .write _ _) trivial
  obtain ⟨hnd, -, -, hfits⟩ := h₃.sized_never_full
    (show Collector.run _ _ 0 1 .block 3 _ = some _ from rfl) (by decide)
  exact ⟨_, _, _, h₃, rfl, rfl, rfl, rfl, rfl, hnd, hfits (by decide)⟩

end Readiness
