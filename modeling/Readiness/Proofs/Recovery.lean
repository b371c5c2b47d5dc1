import Readiness.Proofs.Poller.Rearming
import Readiness.Proofs.Roster.Leftover
import Readiness.Proofs.Waits

namespace Readiness

/-!
# Recovery from an overflow

A run that overflows its buffer has reported some records and left the watches of the others armed.
If the buffer is exchanged for one that has room for all watches, the next run makes up for it.

* `Collector.run_keeping` — a run comes to the delivery of its last wait, if it comes to any;
* `Collector.run_overflowed` — a run that overflowed deposited the first records of its last wait;
* `Collector.Hears` — the first wait that a run does not pass over has events, and
  `Collector.run_of_hears`, that the run is the delivery of these if somebody is to be told;
* `Registry.sees` — what matters of an event to the armed watches of its descriptor;
* `History.recovers_after_overflow` — over both runs every record of the wait is made, those of
  one-shot watches exactly once.
-/

variable {σ : Type} {host : Host σ}

namespace Collector

/-! ### Runs that come to one wait -/

/-- Events that did nothing made no records, neither such as fit nor such as did not. -/
theorem emissions_eq_nil {c : Collector σ} {keys : List Nat} (he : c.registry.Enrolled keys)
    {es : List Event} (hes : es.foldl Delivery.fanOut c.fresh = c.fresh) :
    (c.registry.roster keys).emissions es = [] := by
  have hfollows : c.fresh.Follows c.buffer.capacity c.registry
      ((c.registry.roster keys).emissions es) :=
    hes ▸ Delivery.follows_foldl_fanOut he c.buffer es
  have hrecords : ([] : List Record) =
      (((c.registry.roster keys).emissions es).take c.buffer.capacity).map Prod.snd :=
    hfollows.records_eq
  have hoverflow : (none : Option Overflow) =
      ((c.registry.roster keys).emissions es)[c.buffer.capacity]?.map _ := hfollows.overflow_eq
  have hlength := List.getElem?_eq_none_iff.mp (Option.map_eq_none_iff.mp hoverflow.symm)
  rw [List.take_of_length_le hlength] at hrecords
  exact List.map_eq_nil_iff.mp hrecords.symm

/-- So they are not noticed in front of others. -/
theorem deposits_of_quiet_start {c : Collector σ} {keys : List Nat}
    (he : c.registry.Enrolled keys) {wakeFd : Fd} {timeout : Timeout} {waits : Nat} {s : σ}
    {pre es : List Event} (hpre : pre.foldl Delivery.fanOut c.fresh = c.fresh)
    (hoff : c.offered host wakeFd timeout waits s = pre ++ es) :
    c.deposits host wakeFd timeout waits s =
      ((c.registry.roster keys).emissions es).take c.buffer.capacity := by
  have hnd := he.nodup_map_fst_roster
  have hnone := emissions_eq_nil he hpre
  have hsettle : (c.registry.roster keys).settle pre = c.registry.roster keys := by
    have h := Roster.settle_spent hnd pre []
    rw [List.nil_append, Roster.spent_nil, hnone, Roster.spent_nil] at h
    exact h
  rw [deposits_eq host he, hoff, Roster.emissions_append, hnone, hsettle, List.nil_append]

/-- A delivery whose calls were accepted does not fail for the poller. -/
theorem deliver_ne_io {emulated : Bool} {es : List Event} {d : Delivery} {t : Traced σ} {n : Nat}
    (hn : n ≤ t.trace.length) (hacc : (deliver host.traced emulated es d t).2.2.AcceptedSince n)
    (err : SystemError) : (deliver host.traced emulated es d t).1 ≠ .error (.io err) := by
  obtain ⟨d', t', -, heq⟩ := delivers_of_accepted hn hacc
  rw [heq]
  show d'.result ≠ _
  unfold Delivery.result
  split
  · exact fun h => nomatch h
  · exact fun h => nomatch h

/-- What can be seen of a wait and the delivery of its events, unless that fails for the poller. -/
theorem since_wait_deliver {emulated : Bool} {es : List Event} {d : Delivery}
    {limit : Option Duration} {t t₁ : Traced σ} {n : Nat} (hn : n ≤ t.trace.length)
    (hw : host.traced.wait limit t = (.ok es, t₁))
    (hne : ∀ err, (deliver host.traced emulated es d t₁).1 ≠ .error (.io err)) :
    n ≤ (deliver host.traced emulated es d t₁).2.2.trace.length ∧
    (deliver host.traced emulated es d t₁).2.2.since n Exchange.events? =
      t.since n Exchange.events? ++ [es] ∧
    (deliver host.traced emulated es d t₁).1 = (es.foldl Delivery.fanOut d).result := by
  have htrace := (Traced.of_note hw).2
  have hn₁ : n ≤ t₁.trace.length := by
    rw [htrace, List.length_append]
    exact Nat.le_add_right_of_le hn
  rcases deliver_cases host.traced emulated es d t₁ with ⟨d', t', hall, heq⟩ |
    ⟨_, _, _, _, _, _, err, _, -, -, -, -, heq⟩
  · rw [heq]
    refine ⟨Nat.le_trans hn₁ hall.appends.length_le, ?_, ?_⟩
    · rw [hall.since_eq (fun _ _ => rfl) hn₁, Traced.since_append htrace hn]
      rfl
    · rw [hall.eq_foldl]
  · exact absurd (congrArg Prod.fst heq) (hne err)

/-- **Inversion of a run whose registrations are accepted.**  `P` is what failing waits keep, and waits
    that report nothing.  Either no wait of the run reported anything, and it did not overflow; or it
    is the delivery of the events of its last wait, and goes well or overflows as that does. -/
theorem run_keeping {c : Collector (Traced σ)} (hh : c.hook.Aside) {t : Traced σ}
    {wakeFd wokeFd : Fd} {timeout : Timeout} {waits : Nat} {o : Outcome (Traced σ) Nat}
    (ho : c.run host.traced wakeFd wokeFd timeout waits t = some o)
    (hacc : o.state.AcceptedSince t.trace.length) (P : Traced σ → Prop)
    (hlength : ∀ {t'}, P t' → t.trace.length ≤ t'.trace.length)
    (hstart : ∀ {t₀}, t.Aside t₀ → P t₀)
    (hfail : ∀ {limit t₁ err t₂}, P t₁ → host.traced.wait limit t₁ = (.error err, t₂) → P t₂)
    (hquiet : ∀ {limit t₁ es t₂ t₃}, P t₁ → host.traced.wait limit t₁ = (.ok es, t₂) →
      deliver host.traced c.emulated es c.fresh t₂ = (.ok (), c.fresh, t₃) → P t₃) :
    (∃ t₁, P t₁ ∧ t₁.Aside o.state ∧ ∀ x, o.answer ≠ .error (.bufferFull x)) ∨
    ∃ limit t₁ es t₂ pre, P t₁ ∧ host.traced.wait limit t₁ = (.ok es, t₂) ∧
      t₂.trace <+: o.state.trace ∧
      o.state.since t.trace.length Exchange.events? =
        t₁.since t.trace.length Exchange.events? ++ [es] ∧
      pre.foldl Delivery.fanOut c.fresh = c.fresh ∧
      c.offered host.traced wakeFd timeout waits t = pre ++ es ∧
      ((∃ n, o.answer = .ok n) ↔ (es.foldl Delivery.fanOut c.fresh).result = .ok ()) := by
  rcases run_collected ho with ⟨-, -, rfl, -⟩ | ⟨t₀, t₁, answer, d, ht₀, hc, rfl, hoff⟩
  · -- A run that was called off did not wait.
    have haside := (hh.prepareToWait wakeFd t).trans (Traced.Aside.log host .calledOff _)
    exact Or.inl ⟨_, hstart haside, Traced.Aside.refl _, fun x h => nomatch h⟩
  have hend := finished_aside host hh d wokeFd timeout answer t₁
  have hanswer : ∀ s, (∃ n, (finish host.traced
      { c with registry := d.registry, buffer := d.buffer } wokeFd answer s).answer = .ok n) ↔
        answer = .ok () := by
    intro s
    cases answer with
    | error e => exact iff_of_false (fun ⟨_, h⟩ => nomatch h) (fun h => nomatch h)
    | ok u => exact iff_of_true ⟨_, rfl⟩ rfl
  rcases collect_keeping P hfail hquiet hc (hstart (ht₀ ▸ prepared_aside hh wakeFd timeout t)) with
    ⟨-, hp, hio, -⟩ | ⟨limit, t₂, es, t₃, pre, hp, hw, hd, hpre, hcollected⟩
  · refine Or.inl ⟨t₁, hp, hend, ?_⟩
    intro x hfull
    rcases hio with rfl | ⟨err, rfl⟩
    · cases hfull
    · cases hfull
  · have hlen₃ : t.trace.length ≤ t₃.trace.length := by
      rw [(Traced.of_note hw).2, List.length_append]
      exact Nat.le_add_right_of_le (hlength hp)
    have hdeliver := deliver_appends host c.emulated es c.fresh t₃
    have hne := deliver_ne_io hlen₃ (d := c.fresh) (by rw [hd]; exact hacc.mono hend.appends)
    obtain ⟨hlen₁, hevents, hresult⟩ := since_wait_deliver (hlength hp) hw hne
    rw [delivered_eq hne] at hcollected
    rw [hd] at hdeliver hlen₁ hevents hresult
    refine Or.inr ⟨limit, t₂, es, t₃, pre, hp, hw, hdeliver.trans hend.appends, ?_, hpre,
      hoff.trans hcollected, ?_⟩
    · rw [hend.since_eq hlen₁ Exchange.events?_of_isAside, hevents]
    · rw [hanswer, ← hresult]

/-- **A run that overflowed**, on a faithful poller that refused nothing, reported the first records
    of its last wait, which are not all of them.  The events of this wait are of distinct
    descriptors. -/
theorem run_overflowed {c : Collector (Traced σ)} (hh : c.hook.Aside) {keys : List Nat}
    (he : c.registry.Enrolled keys) {t : Traced σ}
    (hs : t.table.Serves c.emulated c.registry []) {wakeFd wokeFd : Fd} {timeout : Timeout}
    {waits : Nat} {o : Outcome (Traced σ) Nat}
    (ho : c.run host.traced wakeFd wokeFd timeout waits t = some o)
    (hacc : o.state.AcceptedSince t.trace.length) (hf : o.state.Faithful) {x : Overflow}
    (hfull : o.answer = .error (.bufferFull x)) {es : List Event}
    (hes : (o.state.since t.trace.length Exchange.events?).getLast? = some es) :
    (es.map Event.fd).Nodup ∧
    c.deposits host.traced wakeFd timeout waits t =
      ((c.registry.roster keys).emissions es).take c.buffer.capacity ∧
    c.buffer.capacity < ((c.registry.roster keys).emissions es).length := by
  have hquiet : ∀ {limit t₁ es t₂ t₃}, t₁.Serving t.trace.length c.emulated c.registry →
      host.traced.wait limit t₁ = (.ok es, t₂) →
      deliver host.traced c.emulated es c.fresh t₂ = (.ok (), c.fresh, t₃) →
      t₃.Serving t.trace.length c.emulated c.registry := by
    intro limit t₁ es t₂ t₃ hp hw hd
    have hp' := Traced.Serving.wait_deliver (d := c.fresh) hp he hw
    rw [hd] at hp'
    exact hp'
  -- The waits before the last one leave the poller in order.
  rcases run_keeping hh ho hacc (fun t' => t'.Serving t.trace.length c.emulated c.registry)
      (fun hp => hp.length_le) (Traced.Serving.aside ⟨Nat.le_refl _, fun _ _ => hs⟩)
      (fun hp hw => hp.wait_error hw) hquiet with
    ⟨-, -, -, hnot⟩ | ⟨limit, t₁, es', t₂, pre, hp, hw, hgrows, hevents, hpre, hoff, hanswer⟩
  · exact absurd hfull (hnot x)
  rw [hevents, List.getLast?_concat, Option.some.injEq] at hes
  subst hes
  refine ⟨?_, deposits_of_quiet_start he hpre hoff, ?_⟩
  · obtain ⟨hkeys, hnd⟩ := hp.keys_of_wait hw (hacc.mono hgrows) (hf.mono hgrows)
    have hmap : es'.map Event.key = (es'.map Event.fd).map Fd.toKey := by
      rw [List.map_map]
      exact List.map_congr_left hkeys
    rw [hmap] at hnd
    exact hnd.of_map _
  · by_contra hle
    obtain ⟨n, hn⟩ := hanswer.mpr ((result_fanOut_eq_ok_iff he es').mpr (Nat.le_of_not_lt hle))
    rw [hn] at hfull
    cases hfull

/-! ### Runs that hear something -/

/-- A run that is not called off passes over `n` waits, and then hears of the events `es`, in the
    state `s'`. -/
def Hears (host : Host σ) (c : Collector σ) (wakeFd : Fd) (timeout : Timeout) (s : σ) (n : Nat)
    (es : List Event) (s' : σ) : Prop :=
  ∃ s₀ xs next s₁, c.prepared wakeFd timeout s = (false, s₀) ∧
    PassesOver host c.emulated timeout (host.now s₀) c.fresh timeout.limit xs next s₀ s₁ ∧
    xs.length = n ∧ host.wait next s₁ = (.ok es, s')

/-- **A run that hears something for somebody** is over with the delivery of it, in which no
    registration is refused, and goes well if there is room for all records.  One wait more than it
    passes over is enough for that. -/
theorem run_of_hears {c : Collector (Traced σ)} {keys : List Nat} (he : c.registry.Enrolled keys)
    {wakeFd : Fd} (wokeFd : Fd) {timeout : Timeout} {n : Nat} {es : List Event} {t t' : Traced σ}
    (h : c.Hears host.traced wakeFd timeout t n es t')
    (hacc : (deliver host.traced c.emulated es c.fresh t').2.2.AcceptedSince t'.trace.length)
    (hne : (c.registry.roster keys).emissions es ≠ [])
    (hle : ((c.registry.roster keys).emissions es).length ≤ c.buffer.capacity) :
    ∃ o k, o.answer = .ok k ∧ ∀ waits, n < waits →
      c.run host.traced wakeFd wokeFd timeout waits t = some o ∧
      c.deposits host.traced wakeFd timeout waits t = (c.registry.roster keys).emissions es := by
  obtain ⟨t₀, xs, next, t₁, hgo, hpass, rfl, hw⟩ := h
  obtain ⟨d, t₂, hall, hd⟩ := delivers_of_accepted (Nat.le_refl _) hacc
  have hresult : d.result = .ok () := by
    rw [hall.eq_foldl]
    exact (result_fanOut_eq_ok_iff he es).mpr hle
  have hrecords : d.buffer.records ≠ [] := by
    have hfollows : d.Follows c.buffer.capacity c.registry
        ((c.registry.roster keys).emissions es) :=
      hall.eq_foldl ▸ Delivery.follows_foldl_fanOut he c.buffer es
    rw [hfollows.records_eq, List.take_of_length_le hle]
    exact fun hnil => hne (List.map_eq_nil_iff.mp hnil)
  rw [hresult] at hd
  -- There is a record, so the iteration does not go on, even if it blocks.
  have hb : ¬ (timeout = .block ∧ d.buffer.isEmpty) :=
    fun h => hrecords (List.isEmpty_iff.mp h.2)
  have hends : Ends host.traced c.emulated timeout (host.traced.now t₀) c.fresh (.ok es) t' _ :=
    .delivered hd hb
  obtain ⟨pre, hpre, hcollected⟩ := hpass.collected_eq
  have hfalse := congrArg Prod.fst hgo
  refine ⟨finish host.traced { c with registry := d.registry, buffer := d.buffer } wokeFd (.ok ())
    (if timeout.mayBlock then c.hook.waitFinished t₂ else t₂), _, rfl, fun waits hlt => ?_⟩
  obtain ⟨m, rfl⟩ : ∃ m, waits = xs.length + (m + 1) := Nat.exists_eq_add_of_lt hlt
  constructor
  · rw [run_of_not_calledOff hfalse, hgo, hpass.collect_eq, hends.collect_eq hw]
    rfl
  · have hoff : c.offered host.traced wakeFd timeout (xs.length + (m + 1)) t = pre ++ es := by
      have hdelivered : delivered host.traced c.emulated es c.fresh t' = es := by
        apply delivered_eq
        rw [hd]
        exact fun err h => nomatch h
      rw [offered_of_not_calledOff host.traced hfalse, hgo, hcollected]
      simp only [collected, hw, hd, if_neg hb, hdelivered, List.append_nil]
    rw [deposits_of_quiet_start he hpre hoff, List.take_of_length_le hle]

end Collector

/-! ### What the watches see of an event -/

/-- What the armed watches of its descriptor see of an event: whom it is about, and which of the
    conditions they ask for it reports. -/
def Registry.sees (r : Registry) (e : Event) : UInt64 × Mask := (e.key, e.mask ∩ r.armedMask e.fd)

/-- Whether the watch in slot `key` persists. -/
def Registry.persists (r : Registry) (key : Nat) : Bool :=
  (r.watch? key).any fun w => w.mask.isPersistent

/-- A watch only reports events it asks a condition of. -/
theorem Registry.asksCondition_of_reports {r : Registry} {key : Nat} {w : Watch} {e : Event}
    (hw : r.watch? key = some w) (hr : w.reports e = true) : r.AsksCondition e.fd := by
  unfold Watch.reports at hr
  rw [Watch.share_eq] at hr
  simp only [Bool.and_eq_true, decide_eq_true_eq, Bool.not_eq_true'] at hr
  obtain ⟨⟨hfd, ha⟩, hshare⟩ := hr
  have hcond : w.mask.conditions.isEmpty = false := by
    by_contra hne
    have hempty : w.mask.conditions = ∅ := by simpa [Mask.isEmpty] using hne
    have hnone : e.mask ∩ (∅ : Mask) = ∅ := congrArg Mask.mk UInt16.and_zero
    rw [hempty, hnone] at hshare
    cases hshare
  rw [Mask.isEmpty_conditions, Bool.not_eq_false', Bool.or_eq_true, Bool.or_eq_true, or_assoc]
    at hcond
  exact hcond.imp (fun h => ⟨key, w, hw, hfd, ha, h⟩)
    (Or.imp (fun h => ⟨key, w, hw, hfd, ha, h⟩) fun h => ⟨key, w, hw, hfd, ha, h⟩)

/-- Events in which the armed watches see the same emit the same. -/
theorem Registry.Enrolled.emissions_congr {r : Registry} {keys : List Nat} (he : r.Enrolled keys)
    {es es' : List Event} (hsame : es'.map r.sees = es.map r.sees) (hes : (es.map Event.fd).Nodup) :
    (r.roster keys).emissions es' = (r.roster keys).emissions es := by
  have hfds : es'.map Event.fd = es.map Event.fd := by
    have h := congrArg (List.map fun x : UInt64 × Mask => Fd.ofKey x.1) hsame
    rw [List.map_map, List.map_map] at h
    exact h
  have hemit : ∀ {e e' : Event}, r.sees e' = r.sees e →
      (r.roster keys).emit e' = (r.roster keys).emit e := by
    intro e e' h
    obtain ⟨hkey, hmask⟩ := Prod.mk.inj h
    have hfd : e'.fd = e.fd := congrArg Fd.ofKey hkey
    refine Roster.emit_congr hfd fun x hx hxfd ha => ?_
    -- What the watch asks for is part of what is seen.
    have hinter := he.armedMask_inter (he.mem_roster_iff.mp hx) ha
    rw [hfd] at hmask
    rw [hxfd] at hinter
    have hassoc : ∀ a b c : Mask, a ∩ b ∩ c = a ∩ (b ∩ c) :=
      fun a b c => congrArg Mask.mk (UInt16.and_assoc _ _ _)
    unfold Watch.share
    rw [← hinter, ← hassoc, ← hassoc, hmask]
  rw [Roster.emissions_eq_flatMap _ hes, Roster.emissions_eq_flatMap _ (hfds ▸ hes)]
  clear hes hfds
  induction es generalizing es' with
  | nil =>
    rw [List.map_nil, List.map_eq_nil_iff] at hsame
    rw [hsame]
  | cons e es ih =>
    cases es' with
    | nil => cases hsame
    | cons e' es' =>
      rw [List.map_cons, List.map_cons, List.cons.injEq] at hsame
      rw [List.flatMap_cons, List.flatMap_cons, hemit hsame.1, ih hsame.2]

/-! ### Every history -/

/-- A cooperative step leaves nothing out of the trace. -/
theorem Cooperative.overheard {a : Action (Traced σ)} {t t' : Traced σ} (h : Cooperative a t t') :
    Overheard a t t' := by
  cases a with
  | setHook hook => exact h
  | add fd mask answer => trivial
  | remove token answer => trivial
  | resize buffer => trivial
  | run wakeFd wokeFd timeout answer => trivial

/-- **What is left after an overflow.**  After the run that made the records `G`, the events whose
    descriptors are still enabled emit what `G` left over: a descriptor that was left disabled has no
    armed watch for its event. -/
theorem History.emissions_enabled {acts : List (Action (Traced σ))} {c c' : Collector (Traced σ)}
    {t t' : Traced σ} {a : Action (Traced σ)} (h : History host.traced Cooperative acts c t)
    (h' : History host.traced Cooperative (acts ++ [a]) c' t') (hf : t'.Faithful)
    {G : List (Nat × Record)}
    (hwatch : ∀ key, c'.registry.watch? key = (c.registry.watch? key).map fun w => w.after key G)
    (hroll : roll (acts ++ [a]) = roll acts) {es : List Event} (hes : (es.map Event.fd).Nodup) :
    (c'.registry.roster (roll acts)).emissions (es.filter fun e => t'.table.isEnabled e.fd) =
      Roster.leftover c.registry.persists G ((History.roster acts c).emissions es) := by
  have he := h.enrolled
  have hspent : c'.registry.roster (roll acts) = (History.roster acts c).spent G :=
    Registry.roster_eq_spent hwatch _
  have hp : ∀ x ∈ History.roster acts c, c.registry.persists x.1 = x.2.mask.isPersistent := by
    intro x hx
    unfold Registry.persists
    rw [he.mem_roster_iff.mp hx]
    rfl
  rw [hspent]
  refine Roster.emissions_spent hp G hes _ fun e _ hdisabled => ?_
  rw [← hspent, List.eq_nil_iff_forall_not_mem]
  intro x hx
  obtain ⟨w, hw, hr⟩ := Roster.mem_map_emit_iff.mp (List.mem_map_of_mem hx)
  have he' := h'.enrolled
  rw [hroll] at he'
  -- A watch that has something to report keeps its descriptor enabled.
  obtain ⟨entry, hfind, henabled, -⟩ :=
    h'.armed_entry hf (Registry.asksCondition_of_reports (he'.mem_roster_iff.mp hw) hr)
  rw [Poller.Table.isEnabled_of_find? hfind, henabled] at hdisabled
  cases hdisabled

/-- **An overflow loses nothing and repeats nothing.**  Take any cooperative history, with level mode
    or without it, on a faithful poller, and a run that fails for want of room while its
    registrations are accepted.  Let `F` be the full fan-out of the events of its last wait, and `G`
    the records of it that were made.  Exchange the buffer for one with room for as many records as
    there are watches, and run again, in any mode.  Let the first wait that this run does not pass
    over report what the last one did, in the same order, of exactly the descriptors that are still
    enabled, and the registrations that come of it be accepted.  Then the run is over with this wait
    and goes well, and makes the records of `F` without those of the one-shot watches in `G`.  So a
    one-shot watch that one of the events was for is recorded exactly once over both runs. -/
theorem History.recovers_after_overflow {acts : List (Action (Traced σ))}
    {c : Collector (Traced σ)} {t : Traced σ} (h : History host.traced Cooperative acts c t)
    {wakeFd wokeFd : Fd} {timeout : Timeout} {waits : Nat} {o : Outcome (Traced σ) Nat}
    (ho : c.run host.traced wakeFd wokeFd timeout waits t = some o)
    (hacc : o.state.AcceptedSince t.trace.length) (hf : o.state.Faithful) {x : Overflow}
    (hfull : o.answer = .error (.bufferFull x)) {es : List Event}
    (hes : (o.state.since t.trace.length Exchange.events?).getLast? = some es)
    {b : Buffer} (hb : o.collector.watchCount ≤ b.capacity) {q : Outcome (Traced σ) Buffer}
    (hq : o.collector.resize host.traced b o.state = q) {wakeFd' : Fd} (wokeFd' : Fd)
    {timeout' : Timeout} {n : Nat} {es' : List Event} {t' : Traced σ}
    (hhears : q.collector.Hears host.traced wakeFd' timeout' q.state n es' t')
    (hacc' : (Collector.deliver host.traced q.collector.emulated es' q.collector.fresh
      t').2.2.AcceptedSince t'.trace.length)
    (hsame : es'.map o.collector.registry.sees =
      (es.filter fun e => o.state.table.isEnabled e.fd).map o.collector.registry.sees) :
    let F := (History.roster acts c).emissions es
    let G := F.take c.capacity
    let rest := F.filter fun x => x.1 ∉ G.map Prod.fst || c.registry.persists x.1
    c.deposits host.traced wakeFd timeout waits t = G ∧
    (∃ o' k, o'.answer = .ok k ∧
      (∀ waits', n < waits' →
        q.collector.run host.traced wakeFd' wokeFd' timeout' waits' q.state = some o' ∧
        q.collector.deposits host.traced wakeFd' timeout' waits' q.state = rest) ∧
      o'.collector.events = (rest.map Prod.snd).filter (fun x => x.fd ≠ wokeFd')) ∧
    ∀ key w e, (key, w) ∈ History.roster acts c → w.mask.isPersistent = false → e ∈ es →
      w.reports e = true → ((G ++ rest).map Prod.fst).count key = 1 := by
  intro F G rest
  have he := h.enrolled
  have hh := (h.mono Cooperative.overheard).covers.1
  obtain ⟨hfires, -⟩ := Collector.run_firesTo ho
  have he' := hfires.enrolled he
  have hgrows := (Collector.run_serves h.serves.1 ho he).1
  obtain ⟨hfds, hG, hlt⟩ :=
    Collector.run_overflowed hh he (h.serves.2 (hf.mono hgrows)) ho hacc hf hfull hes
  have hnd : ((History.roster acts c).map Prod.fst).Nodup := by
    unfold History.roster
    rw [he.map_fst_roster]
    exact he.nodup
  have hF : (F.map Prod.fst).Nodup := Roster.nodup_map_emissions hnd hfds
  -- The second wait emits what the first run left over.
  have hroll : roll (acts ++ [.run wakeFd wokeFd timeout o.answer]) = roll acts := roll_append _ _
  have hrest : (o.collector.registry.roster (roll acts)).emissions es' = rest := by
    have hwatch := fun key => hG ▸ Collector.watch?_run he ho key
    rw [he'.emissions_congr hsame (hfds.sublist (List.filter_sublist.map _)),
      h.emissions_enabled (h.step (.run ho) hacc) hf hwatch hroll hfds]
    rfl
  have hne : rest ≠ [] := Roster.leftover_ne_nil hF hlt
  have hle : rest.length ≤ b.capacity := by
    -- There are no more records than watches.
    have hrest_le : rest.length ≤ F.length := List.length_filter_le _ _
    have hF_le : F.length ≤ (History.roster acts c).length := Roster.length_emissions_le hnd hfds
    have hroster : (History.roster acts c).length = o.collector.watchCount := by
      rw [← List.length_map, show (History.roster acts c).map Prod.fst = _ from he.map_fst_roster]
      exact he'.length_eq
    omega
  subst hq
  obtain ⟨o', k, hanswer, hrun⟩ := Collector.run_of_hears
    (c := (o.collector.resize host.traced b o.state).collector) he' wokeFd' hhears hacc'
    (hrest ▸ hne) (hrest ▸ hle)
  rw [show ((o.collector.resize host.traced b o.state).collector.registry.roster _).emissions es' =
    rest from hrest] at hrun
  refine ⟨hG, ⟨o', k, hanswer, hrun, ?_⟩, ?_⟩
  · obtain ⟨ho', hdeposits⟩ := hrun (n + 1) (Nat.lt_succ_self n)
    rcases Collector.records_run (c := (o.collector.resize host.traced b o.state).collector) he' ho'
      with ⟨e, herr, -⟩ | ⟨n', -, hrecords⟩
    · rw [hanswer] at herr
      cases herr
    · rw [hrecords, hdeposits]
  · intro key w e hw hp hmem hr
    have hpersists : c.registry.persists key = false := by
      unfold Registry.persists
      rw [he.mem_roster_iff.mp hw]
      exact hp
    exact Roster.count_take_append_leftover hF _ hpersists
      (Roster.mem_map_emissions hfds hmem hw hr)

open Scenario in
/-- On a poller without level mode descriptor 7 has a one-shot reader, descriptor 5 a one-shot and a
    persistent reader, and descriptor 6 a one-shot writer.  All are ready, and there is room for two
    records.  Then 7 is left disabled, and the second run makes the two records that are left. -/
theorem recovers_after_overflow_emulated :
    ∃ (c : Collector (Traced World)) (t : Traced World) (o o' : Outcome (Traced World) Nat)
      (q : Outcome (Traced World) Buffer),
      History (World.host 0).traced Cooperative
        [.add 7 .read (.ok ⟨0, 0⟩), .add 5 .read (.ok ⟨1, 1⟩),
          .add 5 (.read ∪ .persist) (.ok ⟨2, 2⟩), .add 6 .write (.ok ⟨3, 3⟩)] c t ∧
      c.run (World.host 0).traced 0 1 .poll 1 t = some o ∧
      o.answer = .error (.bufferFull ⟨5, 2⟩) ∧ o.state.table.isEnabled 7 = false ∧
      o.collector.resize (World.host 0).traced (Buffer.ofCapacity 4) o.state = q ∧
      q.collector.run (World.host 0).traced 0 1 .poll 1 q.state = some o' ∧
      c.deposits (World.host 0).traced 0 .poll 1 t = [(0, ⟨7, 2⟩), (1, ⟨5, 2⟩)] ∧
      q.collector.deposits (World.host 0).traced 0 .poll 1 q.state = [(2, ⟨5, 2⟩), (3, ⟨6, 4⟩)] ∧
      ∃ n, o'.answer = .ok n := by
  have h₀ : History (World.host 0).traced Cooperative [] _ _ :=
    .create (show Collector.create (World.host 0).traced (Buffer.ofCapacity 2) default
      ⟨World.answering false
        [.events [⟨7, true, false, false, none⟩, ⟨5, true, false, false, none⟩,
          ⟨6, false, true, false, none⟩],
        .events [⟨5, true, false, false, none⟩, ⟨6, false, true, false, none⟩]], []⟩ =
      (.ok _, _) from rfl)
  have h₁ := h₀.step (.add 7 .read _ _) trivial
  have h₂ := h₁.step (.add 5 .read _ _) trivial
  have h₃ := h₂.step (.add 5 (.read ∪ .persist) _ _) trivial
  have h₄ := h₃.step (.add 6 .write _ _) trivial
  obtain ⟨hG, ⟨o', k, hanswer, hrun, -⟩, -⟩ := h₄.recovers_after_overflow
    (show Collector.run _ _ 0 1 .poll 1 _ = some _ from rfl)
    (show Traced.AcceptedSince _ _ by decide) (show Traced.Faithful _ by decide) rfl
    (show _ = some _ from rfl) (b := Buffer.ofCapacity 4) (by decide) rfl 1
    (show Collector.Hears _ _ 0 .poll _ 0 _ _ from ⟨_, [], _, _, rfl, .nil _ _, rfl, rfl⟩)
    (show Traced.AcceptedSince _ _ by decide) (by decide)
  obtain ⟨ho', hrest⟩ := hrun 1 (by decide)
  exact ⟨_, _, _, o', _, h₄, rfl, rfl, by decide, rfl, ho', hG, hrest, k, hanswer⟩

end Readiness
