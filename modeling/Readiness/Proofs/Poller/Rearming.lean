import Readiness.Proofs.Erasure
import Readiness.Proofs.Poller.Polled

namespace Readiness

/-!
# What a refusal leaves behind

A poller disables the one-shot entries it reports, and a delivery registers their descriptors again,
event by event.  The first registration that is refused ends the delivery.  Nothing is asked of
the poller here: it may refuse any call at any time, and report what it likes.  The histories are
those of a host with a trace (`Overheard`), which every history has (`History.exists_traced`,
`History.overheard`).

* `Traced.since` — what a run can be seen to have done: the events of its waits
  (`Exchange.events?`), and the descriptors whose registration was refused (`Exchange.refusedFd?`);
* `Poller.Table.Covers` — what is left of `Poller.Table.Serves` on such a poller, and every step
  keeps (`History.covers`).  A watched descriptor has an entry, in level mode if that is asked for;
* `Collector.Delivers.rearmed` — an event whose registration was not refused leaves its descriptor
  enabled, if there is anything left to report;
* `History.run_rearms` — so a run without a refusal leaves every descriptor it reported enabled.
  After a refusal it is those of the events before, and of those behind the ones in level mode.
-/

variable {σ : Type} {host : Host σ}

/-! ### What a run has done -/

/-- The events of a wait. -/
def Exchange.events? : Exchange → Option (List Event)
  | .wait _ (.ok es) => some es
  | _ => none

/-- The descriptor whose new registration was refused. -/
def Exchange.refusedFd? : Exchange → Option Fd
  | .modify fd _ (.error _) => some fd
  | _ => none

namespace Traced

variable {α : Type} {n : Nat} {t t' : Traced σ}

/-- What `f` reads off the exchanges after the first `n`. -/
def since (n : Nat) (f : Exchange → Option α) (t : Traced σ) : List α :=
  (t.trace.drop n).filterMap f

theorem since_length (f : Exchange → Option α) (t : Traced σ) : t.since t.trace.length f = [] := by
  unfold since
  rw [List.drop_length]
  rfl

theorem since_append {xs : List Exchange} (ht : t'.trace = t.trace ++ xs) (hn : n ≤ t.trace.length)
    (f : Exchange → Option α) : t'.since n f = t.since n f ++ xs.filterMap f := by
  unfold since
  rw [ht, List.drop_append_of_le_length hn, List.filterMap_append]

/-- What is not read off any aside is not read off asides. -/
theorem Aside.since_eq (h : t.Aside t') (hn : n ≤ t.trace.length) {f : Exchange → Option α}
    (hf : ∀ x : Exchange, x.isAside = true → f x = none) : t'.since n f = t.since n f := by
  obtain ⟨xs, ht, hx⟩ := h
  have hnone : xs.filterMap f = [] :=
    List.filterMap_eq_nil_iff.mpr fun x hmem => hf x (hx x hmem)
  rw [since_append ht hn, hnone, List.append_nil]

end Traced

theorem Exchange.events?_of_isAside (x : Exchange) (hx : x.isAside = true) : x.events? = none := by
  rcases of_isAside hx with ⟨fd, bytes, rfl⟩ | ⟨wakeFd, calledOff, rfl⟩ | rfl
  · rfl
  · rfl
  · rfl

theorem Exchange.refusedFd?_of_isAside (x : Exchange) (hx : x.isAside = true) :
    x.refusedFd? = none := by
  rcases of_isAside hx with ⟨fd, bytes, rfl⟩ | ⟨wakeFd, calledOff, rfl⟩ | rfl
  · rfl
  · rfl
  · rfl

/-! ### Tables that cover a registry -/

namespace Poller.Table

/-- Every descriptor that is watched in `r` has an entry, and that is in level mode if the watches ask
    for it and the poller has it.  Whether it is enabled is another matter. -/
structure Covers (t : Table) (emulated : Bool) (r : Registry) : Prop where
  /-- Events of an entry are about its descriptor. -/
  fd_eq : ∀ {fd entry}, t.find? fd = some entry → Fd.ofKey entry.registration.key = fd
  /-- In level mode an entry is never disabled. -/
  enabled_of_level : ∀ {fd entry}, t.find? fd = some entry → entry.registration.mode = .level →
    entry.enabled = true
  /-- A watched descriptor has an entry. -/
  exists_entry : ∀ {fd}, r.chain fd ≠ [] → ∃ entry, t.find? fd = some entry ∧
    ((r.armedMask fd).mode.effective emulated = .level → entry.registration.mode = .level)

/-- The entry of `fd` is enabled, if the armed watches ask for a condition. -/
def Rearmed (t : Table) (r : Registry) (fd : Fd) : Prop :=
  (r.armedMask fd).conditions.isEmpty = false → t.isEnabled fd = true

theorem isEnabled_of_find? {t : Table} {fd : Fd} {entry : Entry} (h : t.find? fd = some entry) :
    t.isEnabled fd = entry.enabled := by
  unfold isEnabled
  rw [h]
  rfl

/-- Whether `fd` is enabled depends on its entry and on what its watches ask for. -/
theorem Rearmed.congr {t t' : Table} {r r' : Registry} {fd : Fd} (h : t.Rearmed r fd)
    (hfind : t'.find? fd = t.find? fd) (hmask : r'.armedMask fd = r.armedMask fd) :
    t'.Rearmed r' fd := by
  unfold Rearmed isEnabled at h ⊢
  rw [hfind, hmask]
  exact h

/-- What an event settled stays settled if nothing happens to descriptors without later events. -/
theorem Rearmed.cons {t t' : Table} {r r' : Registry} {e : Event} {es : List Event}
    (h : t.Rearmed r e.fd) (hrearmed : ∀ e' ∈ es, t'.Rearmed r' e'.fd)
    (hrest : ∀ fd ∉ es.map Event.fd, t'.find? fd = t.find? fd ∧ r'.armedMask fd = r.armedMask fd) :
    ∀ e' ∈ e :: es, t'.Rearmed r' e'.fd := by
  rintro e' hmem
  rcases List.mem_cons.mp hmem with rfl | hmem
  · by_cases hlater : e'.fd ∈ es.map Event.fd
    · obtain ⟨e'', hmem, heq⟩ := List.mem_map.mp hlater
      exact heq ▸ hrearmed e'' hmem
    · exact h.congr (hrest _ hlater).1 (hrest _ hlater).2
  · exact hrearmed e' hmem

namespace Covers

variable {t : Table} {emulated : Bool} {r r' : Registry} {roll roll' : List Nat}

/-- What holds of the entries one by one. -/
theorem each (h : t.Covers emulated r) : t.Each fun fd entry =>
    Fd.ofKey entry.registration.key = fd ∧
      (entry.registration.mode = .level → entry.enabled = true) :=
  fun _ _ hf => ⟨h.fd_eq hf, h.enabled_of_level hf⟩

theorem empty (emulated : Bool) : Covers ∅ emulated ∅ where
  fd_eq := by intro fd entry h; cases h
  enabled_of_level := by intro fd entry h; cases h
  exists_entry := by intro fd h; exact absurd rfl h

/-- Watches that are dropped or disarmed need no more than before. -/
theorem mono (h : t.Covers emulated r) (he : r.Enrolled roll) (he' : r'.Enrolled roll')
    (hwatch : ∀ {key w'}, r'.watch? key = some w' → ∃ w, r.watch? key = some w ∧ w'.fd = w.fd ∧
      w'.mask = w.mask ∧ (w'.armed = true → w.armed = true)) : t.Covers emulated r' where
  fd_eq := h.fd_eq
  enabled_of_level := h.enabled_of_level
  exists_entry := by
    intro fd hne
    obtain ⟨key, hkey⟩ := List.exists_mem_of_ne_nil _ hne
    obtain ⟨w', hw', rfl⟩ := he'.mem_chain_iff.mp hkey
    obtain ⟨w, hw, hfd, -, -⟩ := hwatch hw'
    rw [hfd]
    obtain ⟨entry, hfind, hmode⟩ := h.exists_entry (he.chain_ne_nil hw)
    refine ⟨entry, hfind, fun hlevel => hmode ?_⟩
    -- A watch that persists has done so before.
    rw [he'.effective_armedMask_iff] at hlevel
    rw [he.effective_armedMask_iff]
    obtain ⟨⟨key, v', hv', hfd', harmed, hpersist⟩, hemulated⟩ := hlevel
    obtain ⟨v, hv, hvfd, hvmask, hvarmed⟩ := hwatch hv'
    exact ⟨⟨key, v, hv, hvfd.symm.trans hfd', hvarmed harmed, hvmask ▸ hpersist⟩, hemulated⟩

theorem of_firesTo (h : t.Covers emulated r) (he : r.Enrolled roll) (hf : r.FiresTo r') :
    t.Covers emulated r' := by
  refine h.mono he (hf.enrolled he) ?_
  intro key w' hw'
  obtain ⟨w, hw, hfd, hmask, -, harmed⟩ := hf.exists_watch hw'
  exact ⟨w, hw, hfd, hmask, harmed⟩

theorem forget (h : t.Covers emulated r) (he : r.Enrolled roll) (key : Nat) :
    t.Covers emulated (r.forget key) := by
  refine h.mono he (he.forget key) ?_
  intro k w hw
  rw [Registry.watch?_forget] at hw
  split at hw
  · cases hw
  · exact ⟨w, hw, rfl, rfl, id⟩

theorem forget_insert (h : t.Covers emulated r) (he : r.Enrolled roll) (fd : Fd) (mask : Mask) :
    t.Covers emulated ((r.insert fd mask).forget r.slots.nextKey) := by
  refine h.mono he ((he.insert fd mask).forget _) ?_
  intro k w hw
  rw [Registry.watch?_forget, Registry.watch?_insert] at hw
  split at hw
  · cases hw
  · exact ⟨w, hw, rfl, rfl, id⟩

/-- A descriptor that was registered for its armed watches is covered. -/
theorem register (h : t.Covers emulated r) {fd : Fd} (hr : r.SameBut fd r') {key : UInt64}
    (hkey : Fd.ofKey key = fd) :
    (t.register fd (.ofMask emulated key (r'.armedMask fd))).Covers emulated r' := by
  have heach : Each (t.register fd (.ofMask emulated key (r'.armedMask fd))) _ :=
    h.each.register ⟨hkey, fun _ => rfl⟩
  refine ⟨fun hf => (heach _ _ hf).1, fun hf => (heach _ _ hf).2, ?_⟩
  intro fd' hne
  rw [find?_register]
  by_cases hfd : fd' = fd
  · rw [if_pos hfd, hfd]
    exact ⟨_, rfl, id⟩
  · rw [if_neg hfd, hr.armedMask_eq hfd]
    rw [hr.chain_eq hfd] at hne
    exact h.exists_entry hne

/-- A descriptor without watches needs no entry. -/
theorem unregister (h : t.Covers emulated r) {fd : Fd} (hr : r.SameBut fd r')
    (hchain : r'.chain fd = []) : (t.unregister fd).Covers emulated r' := by
  have heach := h.each.unregister fd
  refine ⟨fun hf => (heach _ _ hf).1, fun hf => (heach _ _ hf).2, ?_⟩
  intro fd' hne
  have hfd : fd' ≠ fd := by
    rintro rfl
    exact hne hchain
  rw [find?_unregister, if_neg hfd, hr.armedMask_eq hfd]
  rw [hr.chain_eq hfd] at hne
  exact h.exists_entry hne

/-- Reporting keeps the terms of the entries, and those in level mode enabled. -/
theorem report (h : t.Covers emulated r) (es : List Event) : (t.report es).Covers emulated r := by
  have heach := h.each.report es (by
    rintro fd entry ⟨hfd, henabled⟩
    refine ⟨hfd, fun (hlevel : entry.registration.mode = .level) => ?_⟩
    rw [Entry.acknowledge_of_level hlevel]
    exact henabled hlevel)
  refine ⟨fun hf => (heach _ _ hf).1, fun hf => (heach _ _ hf).2, ?_⟩
  intro fd hne
  obtain ⟨entry, hf, hmode⟩ := h.exists_entry hne
  refine ⟨_, by rw [find?_report, hf, Option.map_some], fun hlevel => ?_⟩
  split
  · exact hmode hlevel
  · exact hmode hlevel

/-- Events of other descriptors leave an entry alone. -/
theorem find?_report_of_notMem (h : t.Covers emulated r) {es : List Event} {fd : Fd}
    (hfd : fd ∉ es.map Event.fd) : (t.report es).find? fd = t.find? fd := by
  rw [find?_report]
  cases hf : t.find? fd with
  | none => rfl
  | some entry =>
    have hkey : entry.registration.key ∉ es.map Event.key := by
      intro hmem
      obtain ⟨e, he, heq⟩ := List.mem_map.mp hmem
      apply hfd
      rw [← h.fd_eq hf, ← heq]
      exact List.mem_map_of_mem he
    rw [Option.map_some, if_neg hkey]

/-- An entry that was reported is enabled exactly in level mode. -/
theorem enabled_iff_of_report (h : t.Covers emulated r) {es : List Event} {fd : Fd} {entry : Entry}
    (hf : (t.report es).find? fd = some entry) (hkey : entry.registration.key ∈ es.map Event.key) :
    entry.enabled = true ↔ entry.registration.mode = .level := by
  refine ⟨?_, (h.report es).enabled_of_level hf⟩
  rw [find?_report] at hf
  obtain ⟨entry', -, rfl⟩ := Option.map_eq_some_iff.mp hf
  split at hkey
  · next hmem =>
    rw [if_pos hmem]
    exact Entry.level_of_enabled_acknowledge
  · next hmem => exact absurd hkey hmem

end Covers

end Poller.Table

/-! ### Deliveries -/

/-- **One event** whose registration is not refused, or not needed, leaves its descriptor enabled if
    there is anything left to report. -/
theorem Delivery.rearmed_fanOut {t : Poller.Table} {emulated : Bool} {d : Delivery}
    {roll : List Nat} (he : d.registry.Enrolled roll) (hc : t.Covers emulated d.registry)
    (e : Event) :
    (rearm? emulated d (d.fanOut e) e = none → t.Rearmed (d.fanOut e).registry e.fd) ∧
    ∀ {r}, rearm? emulated d (d.fanOut e) e = some r →
      (t.register e.fd r).Covers emulated (d.fanOut e).registry ∧
      (t.register e.fd r).Rearmed (d.fanOut e).registry e.fd := by
  rcases rearm?_cases emulated d (d.fanOut e) e with ⟨hnone, hquiet⟩ | hsome
  · rw [hnone]
    refine ⟨fun _ hcond => ?_, nofun⟩
    rcases hquiet with hempty | ⟨heq, hlevel⟩
    · rw [hempty] at hcond
      cases hcond
    · -- A condition is asked for, so the descriptor is watched, and its entry is in level mode.
      rw [heq] at hcond
      have hne : d.registry.chain e.fd ≠ [] :=
        he.chain_ne_nil_of_asksCondition ((he.isEmpty_conditions_iff e.fd).mp hcond)
      obtain ⟨entry, hfind, hmode⟩ := hc.exists_entry hne
      rw [Poller.Table.isEnabled_of_find? hfind]
      exact hc.enabled_of_level hfind (hmode hlevel)
  · rw [hsome]
    refine ⟨nofun, ?_⟩
    intro r hr
    cases hr
    refine ⟨hc.register (sameBut_fanOut he e) rfl, fun _ => ?_⟩
    rw [Poller.Table.isEnabled_of_find? ((Poller.Table.find?_register _ _ _ _).trans (if_pos rfl))]

namespace Collector.Delivers

variable {emulated : Bool} {es : List Event} {d d' : Delivery} {t t' : Traced σ} {roll : List Nat}

/-- Nothing is read off a delivery but the registrations that were accepted. -/
theorem since_eq {α : Type} {f : Exchange → Option α}
    (hf : ∀ fd r, f (.modify fd r (.ok ())) = none)
    (h : Delivers host.traced emulated es d t d' t') {n : Nat} (hn : n ≤ t.trace.length) :
    t'.since n f = t.since n f := by
  refine (h.keeps (fun t₁ => n ≤ t₁.trace.length ∧ t₁.since n f = t.since n f) ?_ ⟨hn, rfl⟩).2
  rintro fd r t₁ t₂ ⟨hn₁, heq⟩ hm
  have htrace := (Traced.of_note hm).2
  have hnone : [Exchange.modify fd r (.ok ())].filterMap f = [] :=
    List.filterMap_eq_nil_iff.mpr fun x hx => by rw [List.mem_singleton.mp hx, hf]
  refine ⟨?_, ?_⟩
  · rw [htrace, List.length_append]
    exact Nat.le_add_right_of_le hn₁
  · rw [Traced.since_append htrace hn₁, hnone, List.append_nil, heq]

/-- **Delivered events leave their descriptors enabled**, if there is anything left to report.
    Nothing happens to the other descriptors. -/
theorem rearmed (h : Delivers host.traced emulated es d t d' t') (he : d.registry.Enrolled roll)
    (hc : t.table.Covers emulated d.registry) :
    t'.table.Covers emulated d'.registry ∧
    (∀ e ∈ es, t'.table.Rearmed d'.registry e.fd) ∧
    ∀ fd ∉ es.map Event.fd, t'.table.find? fd = t.table.find? fd ∧
      d'.registry.armedMask fd = d.registry.armedMask fd := by
  induction h with
  | nil d t => exact ⟨hc, fun e he => absurd he List.not_mem_nil, fun fd _ => ⟨rfl, rfl⟩⟩
  | @keep e es d d' t t' hr _ ih =>
    have hfires := d.fanOut_firesTo e
    obtain ⟨hc', hrearmed, hrest⟩ := ih (hfires.enrolled he) (hc.of_firesTo he hfires)
    have hself := (Delivery.rearmed_fanOut he hc e).1 hr
    refine ⟨hc', hself.cons hrearmed hrest, ?_⟩
    intro fd hfd
    rw [List.map_cons, List.mem_cons, not_or] at hfd
    obtain ⟨hfind, hmask⟩ := hrest fd hfd.2
    exact ⟨hfind, hmask.trans ((Delivery.sameBut_fanOut he e).armedMask_eq hfd.1)⟩
  | @rearm e es r d d' t t₁ t' hr hm _ ih =>
    have hfires := d.fanOut_firesTo e
    have htable : t₁.table = t.table.register e.fd r := Traced.table_append (Traced.of_note hm).2
    obtain ⟨hc₁, hself⟩ := (Delivery.rearmed_fanOut he hc e).2 hr
    rw [← htable] at hc₁ hself
    obtain ⟨hc', hrearmed, hrest⟩ := ih (hfires.enrolled he) hc₁
    refine ⟨hc', hself.cons hrearmed hrest, ?_⟩
    intro fd hfd
    rw [List.map_cons, List.mem_cons, not_or] at hfd
    obtain ⟨hfind, hmask⟩ := hrest fd hfd.2
    refine ⟨?_, hmask.trans ((Delivery.sameBut_fanOut he e).armedMask_eq hfd.1)⟩
    rw [hfind, htable, Poller.Table.find?_register, if_neg hfd.1]

end Collector.Delivers

/-! ### Runs -/

namespace Traced

/-- After the first `n` exchanges nothing was refused, and every descriptor that was reported since is
    enabled if there is anything left to report. -/
structure UpToDate (n : Nat) (emulated : Bool) (r : Registry) (t : Traced σ) : Prop where
  length_le : n ≤ t.trace.length
  covers : t.table.Covers emulated r
  refusedFds_eq : t.since n Exchange.refusedFd? = []
  rearmed : ∀ es ∈ t.since n Exchange.events?, ∀ e ∈ es, t.table.Rearmed r e.fd

/-- After the first `n` exchanges some waits reported `earlier`, and the last one `pre`, `e` and
    `post`.  The descriptor of `e` could not be registered again, and that was the end. -/
structure BrokenOff (n : Nat) (emulated : Bool) (r : Registry) (earlier : List (List Event))
    (pre : List Event) (e : Event) (post : List Event) (t : Traced σ) : Prop where
  covers : t.table.Covers emulated r
  events_eq : t.since n Exchange.events? = earlier ++ [pre ++ e :: post]
  refusedFds_eq : t.since n Exchange.refusedFd? = [e.fd]
  /-- The events before `e` were settled. -/
  rearmed : ∀ e' ∈ pre, e'.fd ≠ e.fd → t.table.Rearmed r e'.fd
  /-- What was settled after an earlier wait, and not reported again, still is. -/
  rearmed_earlier : ∀ es ∈ earlier, ∀ e' ∈ es, e'.fd ∉ (pre ++ e :: post).map Event.fd →
    t.table.Rearmed r e'.fd
  /-- The other entries have reported, and nothing was done about that. -/
  enabled_iff : ∀ {fd entry}, t.table.find? fd = some entry → fd ∉ pre.map Event.fd →
    entry.registration.key ∈ (pre ++ e :: post).map Event.key →
    (entry.enabled = true ↔ entry.registration.mode = .level)

variable {n : Nat} {emulated : Bool} {r : Registry} {d d' : Delivery} {t t₁ t' : Traced σ}
  {roll : List Nat} {limit : Option Duration} {es pre post : List Event}

theorem UpToDate.start (h : t.table.Covers emulated r) :
    t.UpToDate t.trace.length emulated r where
  length_le := Nat.le_refl _
  covers := h
  refusedFds_eq := since_length _ t
  rearmed := by
    rw [since_length]
    exact fun _ hmem => absurd hmem List.not_mem_nil

theorem UpToDate.aside (h : t.UpToDate n emulated r) (ha : t.Aside t') :
    t'.UpToDate n emulated r where
  length_le := Nat.le_trans h.length_le ha.appends.length_le
  covers := ha.table_eq ▸ h.covers
  refusedFds_eq := by
    rw [ha.since_eq h.length_le Exchange.refusedFd?_of_isAside]
    exact h.refusedFds_eq
  rearmed := by
    rw [ha.since_eq h.length_le Exchange.events?_of_isAside, ha.table_eq]
    exact h.rearmed

/-- A wait that fails reports nothing and refuses nothing. -/
theorem UpToDate.wait_error (h : t.UpToDate n emulated r) {err : SystemError}
    (hw : host.traced.wait limit t = (.error err, t')) : t'.UpToDate n emulated r := by
  have htrace := (Traced.of_note hw).2
  have htable : t'.table = t.table := Traced.table_append htrace
  refine ⟨?_, htable ▸ h.covers, ?_, ?_⟩
  · rw [htrace, List.length_append]
    exact Nat.le_add_right_of_le h.length_le
  · rw [since_append htrace h.length_le, h.refusedFds_eq]
    rfl
  · rw [since_append htrace h.length_le, htable]
    show ∀ es ∈ _ ++ [], _
    rw [List.append_nil]
    exact h.rearmed

/-- What can be seen of a wait and the delivery of the first of its events. -/
theorem UpToDate.since_wait_delivers (h : t.UpToDate n emulated d.registry)
    (hw : host.traced.wait limit t = (.ok es, t₁))
    (hd : Collector.Delivers host.traced emulated pre d t₁ d' t') :
    n ≤ t'.trace.length ∧ t'.since n Exchange.refusedFd? = [] ∧
      t'.since n Exchange.events? = t.since n Exchange.events? ++ [es] := by
  have htrace := (Traced.of_note hw).2
  have hn₁ : n ≤ t₁.trace.length := by
    rw [htrace, List.length_append]
    exact Nat.le_add_right_of_le h.length_le
  have hrefused : t'.since n Exchange.refusedFd? = _ := hd.since_eq (fun _ _ => rfl) hn₁
  have hevents : t'.since n Exchange.events? = _ := hd.since_eq (fun _ _ => rfl) hn₁
  refine ⟨Nat.le_trans hn₁ hd.appends.length_le, ?_, ?_⟩
  · rw [hrefused, since_append htrace h.length_le, h.refusedFds_eq]
    rfl
  · rw [hevents, since_append htrace h.length_le]
    rfl

/-- What a wait and the delivery of the first of its events do to the poller.  The descriptors of the
    other events are left as the wait left them. -/
theorem UpToDate.wait_delivers (h : t.UpToDate n emulated d.registry)
    (he : d.registry.Enrolled roll) (hw : host.traced.wait limit t = (.ok es, t₁))
    (hpre : pre <+: es) (hd : Collector.Delivers host.traced emulated pre d t₁ d' t') :
    t'.table.Covers emulated d'.registry ∧
    (∀ e ∈ pre, t'.table.Rearmed d'.registry e.fd) ∧
    (∀ fd ∉ pre.map Event.fd, t'.table.find? fd = (t.table.report es).find? fd ∧
      d'.registry.armedMask fd = d.registry.armedMask fd) ∧
    ∀ es' ∈ t.since n Exchange.events?, ∀ e ∈ es', e.fd ∉ es.map Event.fd →
      t'.table.Rearmed d'.registry e.fd := by
  have htable : t₁.table = t.table.report es := Traced.table_append (Traced.of_note hw).2
  obtain ⟨hc, hrearmed, hrest⟩ := hd.rearmed he (htable ▸ h.covers.report es)
  rw [htable] at hrest
  refine ⟨hc, hrearmed, hrest, ?_⟩
  intro es' hmem e hmem' hfd
  have hfd' : e.fd ∉ pre.map Event.fd := fun hin => hfd ((hpre.map _).mem hin)
  obtain ⟨hfind, hmask⟩ := hrest e.fd hfd'
  exact (h.rearmed es' hmem e hmem').congr
    (hfind.trans (h.covers.find?_report_of_notMem hfd)) hmask

/-- **A wait whose events were all delivered** leaves every descriptor up to date. -/
theorem UpToDate.delivers (h : t.UpToDate n emulated d.registry) (he : d.registry.Enrolled roll)
    (hw : host.traced.wait limit t = (.ok es, t₁))
    (hd : Collector.Delivers host.traced emulated es d t₁ d' t') :
    t'.UpToDate n emulated d'.registry := by
  obtain ⟨hn, hrefused, hevents⟩ := h.since_wait_delivers hw hd
  obtain ⟨hc, hrearmed, -, hearlier⟩ := h.wait_delivers he hw (List.prefix_refl es) hd
  refine ⟨hn, hc, hrefused, ?_⟩
  rw [hevents]
  intro es' hmem e hmem'
  by_cases hlater : e.fd ∈ es.map Event.fd
  · obtain ⟨e', hin, heq⟩ := List.mem_map.mp hlater
    exact heq ▸ hrearmed e' hin
  · rcases List.mem_append.mp hmem with hmem | hmem
    · exact hearlier es' hmem e hmem' hlater
    · rw [List.mem_singleton.mp hmem] at hmem'
      exact absurd (List.mem_map_of_mem hmem') hlater

/-- **A wait with an event that could not be registered again** breaks the run off. -/
theorem UpToDate.refused {e : Event} {reg : Registration} {err : SystemError} {t₂ : Traced σ}
    (h : t.UpToDate n emulated d.registry) (he : d.registry.Enrolled roll)
    (hw : host.traced.wait limit t = (.ok (pre ++ e :: post), t₁))
    (hd : Collector.Delivers host.traced emulated pre d t₁ d' t₂)
    (hm : host.traced.modify e.fd reg t₂ = (.error err, t')) :
    t'.BrokenOff n emulated (d'.fanOut e).registry (t.since n Exchange.events?) pre e post := by
  have he' := hd.firesTo.enrolled he
  have hsame := Delivery.sameBut_fanOut he' e
  have htrace := (Traced.of_note hm).2
  have htable : t'.table = t₂.table := Traced.table_append htrace
  obtain ⟨hn, hrefused, hevents⟩ := h.since_wait_delivers hw hd
  obtain ⟨hc, hrearmed, hrest, hearlier⟩ := h.wait_delivers he hw (List.prefix_append _ _) hd
  refine ⟨?_, ?_, ?_, ?_, ?_, ?_⟩
  · rw [htable]
    exact hc.of_firesTo he' (d'.fanOut_firesTo e)
  · rw [since_append htrace hn, hevents]
    exact List.append_nil _
  · rw [since_append htrace hn, hrefused]
    rfl
  · intro e' hmem hne
    rw [htable]
    exact (hrearmed e' hmem).congr rfl (hsame.armedMask_eq hne)
  · intro es hmem e' hmem' hfd
    have hne : e'.fd ≠ e.fd := by
      intro heq
      apply hfd
      rw [heq]
      exact List.mem_map_of_mem (List.mem_append_right _ List.mem_cons_self)
    rw [htable]
    exact (hearlier es hmem e' hmem' hfd).congr rfl (hsame.armedMask_eq hne)
  · intro fd entry hf hfd hkey
    rw [htable, (hrest fd hfd).1] at hf
    exact h.covers.enabled_iff_of_report hf hkey

theorem BrokenOff.aside {earlier : List (List Event)} {e : Event}
    (h : t.BrokenOff n emulated r earlier pre e post) (ha : t.Aside t') (hn : n ≤ t.trace.length) :
    t'.BrokenOff n emulated r earlier pre e post := by
  refine ⟨ha.table_eq ▸ h.covers, ?_, ?_, ?_, ?_, ?_⟩
  · rw [ha.since_eq hn Exchange.events?_of_isAside]
    exact h.events_eq
  · rw [ha.since_eq hn Exchange.refusedFd?_of_isAside]
    exact h.refusedFds_eq
  · rw [ha.table_eq]
    exact h.rearmed
  · rw [ha.table_eq]
    exact h.rearmed_earlier
  · rw [ha.table_eq]
    exact h.enabled_iff

end Traced

namespace Collector

/-- **An iteration** leaves every descriptor up to date, or is broken off. -/
theorem collect_rearms {emulated : Bool} {timeout : Timeout} {start : Duration} {waits : Nat}
    {limit : Option Duration} {d : Delivery} {t : Traced σ} {roll : List Nat} {n : Nat}
    {r : Except Error Unit × Delivery × Traced σ}
    (hr : collect host.traced emulated timeout start waits limit d t = some r)
    (he : d.registry.Enrolled roll) (h : t.UpToDate n emulated d.registry) :
    r.2.2.UpToDate n emulated r.2.1.registry ∨
    ∃ err earlier pre e post, r.1 = .error (.io err) ∧
      r.2.2.BrokenOff n emulated r.2.1.registry earlier pre e post := by
  have hlast := collect_last
    (fun d t => d.registry.Enrolled roll ∧ t.UpToDate n emulated d.registry)
    (fun hp hw => ⟨hp.1, hp.2.wait_error hw⟩) ?_ hr ⟨he, h⟩
  · rcases hlast with ⟨-, h'⟩ | ⟨limit, d₁, t₁, es, t₂, err, ⟨he₁, h₁⟩, hw, hanswer, hd⟩
    · exact Or.inl h'
    · -- The last delivery failed, for want of room or by a refusal.
      rcases deliver_cases host.traced emulated es d₁ t₂ with ⟨d', t', hall, heq⟩ |
        ⟨pre, e, post, d', reg, t₃, err, t₄, rfl, hpre, -, hm, heq⟩
      · rw [← hd, heq]
        exact Or.inl (h₁.delivers he₁ hw hall)
      · rw [← hd, heq]
        exact Or.inr ⟨err, _, pre, e, post, rfl, h₁.refused he₁ hw hpre hm⟩
  · rintro limit d t es t₁ d' t' ⟨he, h⟩ hw hd
    rcases deliver_cases host.traced emulated es d t₁ with ⟨d₂, t₂, hall, heq⟩ |
      ⟨pre, e, post, d₂, reg, t₂, err, t₃, -, -, -, -, heq⟩
    · rw [hd] at heq
      cases (Prod.mk.inj heq).2
      exact ⟨hall.firesTo.enrolled he, h.delivers he hw hall⟩
    · rw [hd] at heq
      cases heq

/-- **A run** leaves every descriptor up to date, or is broken off. -/
theorem run_rearms_or {c : Collector (Traced σ)} (hh : c.hook.Aside) {wakeFd wokeFd : Fd}
    {timeout : Timeout} {waits : Nat} {t : Traced σ} {o : Outcome (Traced σ) Nat}
    (ho : c.run host.traced wakeFd wokeFd timeout waits t = some o) {roll : List Nat}
    (he : c.registry.Enrolled roll) (hc : t.table.Covers c.emulated c.registry) :
    o.state.UpToDate t.trace.length c.emulated o.collector.registry ∨
    ∃ err earlier pre e post, o.answer = .error (.io err) ∧
      o.state.BrokenOff t.trace.length c.emulated o.collector.registry earlier pre e post := by
  have hstart := Traced.UpToDate.start hc
  rcases run_asides hh ho with ⟨ha, hr⟩ | ⟨t₀, t₁, answer, d, ha₀, hcollect, ha₁, hr, hanswer⟩
  · rw [hr]
    exact Or.inl (hstart.aside ha)
  · rw [hr]
    have hlen : t.trace.length ≤ t₁.trace.length :=
      (ha₀.appends.trans (collect_appends hcollect)).length_le
    rcases collect_rearms hcollect he (hstart.aside ha₀) with h | ⟨err, earlier, pre, e, post, ha, h⟩
    · exact Or.inl (h.aside ha₁)
    · exact Or.inr ⟨err, earlier, pre, e, post, hanswer _ ha, h.aside ha₁ hlen⟩

end Collector

/-! ### Every history -/

/-- The steps that leave nothing out of the trace: a hook may do anything to the host, but its calls
    are written down.  Any call on the poller may be refused. -/
def Overheard : Action (Traced σ) → Traced σ → Traced σ → Prop
  | .setHook hook, _, _ => ∃ inner : WaitHook σ, hook = inner.traced
  | _, _, _ => True

/-- A step leaves the watched descriptors covered, whatever the poller refuses. -/
theorem Step.covers {a : Action (Traced σ)} {c c' : Collector (Traced σ)} {t t' : Traced σ}
    (hs : Step host.traced a c t c' t') (ha : Overheard a t t') (hh : c.hook.Aside)
    {roll : List Nat} (he : c.registry.Enrolled roll) (h : t.table.Covers c.emulated c.registry) :
    c'.hook.Aside ∧ t'.table.Covers c'.emulated c'.registry := by
  cases hs with
  | add fd mask =>
    rcases c.add_cases host.traced fd mask t with ⟨e, t', hcall, ho⟩ | ⟨t', hcall, ho⟩
    · obtain ⟨x, htrace, hx⟩ := Collector.addCall_traced hcall
      rw [ho]
      refine ⟨hh, ?_⟩
      show t'.table.Covers _ _
      rw [Traced.table_append htrace, hx]
      exact h.forget_insert he fd mask
    · obtain ⟨x, htrace, hx⟩ := Collector.addCall_traced hcall
      rw [ho]
      refine ⟨hh, ?_⟩
      show t'.table.Covers _ _
      rw [Traced.table_append htrace, hx]
      exact h.register (he.sameBut_insert fd mask) (Fd.ofKey_toKey fd)
  | remove token =>
    rcases c.remove_cases host.traced token t with ⟨-, ho⟩ | ⟨w, a, t', hfind, hcall, ho⟩
    · rw [ho]
      exact ⟨hh, h⟩
    · obtain ⟨hw, -⟩ := Option.filter_eq_some_iff.mp hfind
      have hsame := he.sameBut_forget hw
      obtain ⟨x, htrace, -, hok, herror⟩ := Collector.removeCall_traced hcall
      have htrace' : t'.trace = t.trace ++ [x] := htrace
      rw [ho]
      refine ⟨hh, ?_⟩
      show t'.table.Covers c.emulated (c.registry.forget token.key)
      rw [Traced.table_append htrace']
      rcases a with err | u
      · -- The watch is gone all the same, and the old entry is good enough for the others.
        rw [herror _ err rfl]
        exact h.forget he token.key
      · rw [hok _ rfl]
        split
        · next hchain => exact h.unregister hsame hchain
        · exact h.register hsame (Fd.ofKey_toKey w.fd)
  | resize b => exact ⟨hh, h⟩
  | setHook hook =>
    obtain ⟨inner, rfl⟩ := ha
    exact ⟨inner.aside_traced, h⟩
  | run ho =>
    obtain ⟨-, hcollector⟩ := Collector.run_firesTo ho
    rw [hcollector]
    refine ⟨hh, ?_⟩
    rcases Collector.run_rearms_or hh ho he h with h' | ⟨_, _, _, _, _, -, h'⟩
    · exact h'.covers
    · exact h'.covers

/-- **The watched descriptors are covered after every history**, whatever the poller refused. -/
theorem History.covers {acts : List (Action (Traced σ))} {c : Collector (Traced σ)} {t : Traced σ}
    (h : History host.traced Overheard acts c t) :
    c.hook.Aside ∧ t.table.Covers c.emulated c.registry := by
  induction h with
  | create hc =>
    obtain ⟨hregistry, -, hhook⟩ := Collector.create_eq hc
    rw [hregistry, hhook]
    refine ⟨WaitHook.aside_none, ?_⟩
    unfold Traced.table
    rw [Collector.create_trace hc]
    exact Poller.Table.Covers.empty _
  | step hist hs ha ih => exact hs.covers ha ih.1 hist.enrolled ih.2

/-- Every history is what is left of an overheard one. -/
theorem History.overheard {acts : List (Action σ)} {c : Collector (Traced σ)} {t : Traced σ}
    (h : History host.traced anything (acts.map Action.traced) c t) :
    History host.traced Overheard (acts.map Action.traced) c t := by
  generalize hacts : acts.map Action.traced = traced at h
  induction h generalizing acts with
  | create hc => exact .create hc
  | step _ hs _ ih =>
    obtain ⟨before, last, rfl, hbefore, hlast⟩ := List.map_eq_append_iff.mp hacts
    obtain ⟨a, rfl, rfl⟩ := List.map_eq_singleton_iff.mp hlast
    refine (ih hbefore).step hs ?_
    cases a with
    | setHook hook => exact ⟨hook, rfl⟩
    | add fd mask answer => trivial
    | remove token answer => trivial
    | resize buffer => trivial
    | run wakeFd wokeFd timeout answer => trivial

/-- **A run re-arms what it reported, up to the first refusal.**  Take a run after any history, on a
    poller that refuses and reports what it likes.  Either no registration was refused in the run,
    and every descriptor it reported is enabled if its armed watches still ask for a condition.  Or
    one was refused, that of the event `e` of the last wait, and the run has failed with this error.
    Then a descriptor that still asks for a condition is enabled if it had an event before `e`, or
    only in an earlier wait.  If its entry was only reported behind `e`, it is enabled exactly in
    level mode, so a one-shot entry stays disabled. -/
theorem History.run_rearms {acts : List (Action (Traced σ))} {c : Collector (Traced σ)}
    {t : Traced σ} (h : History host.traced Overheard acts c t) {wakeFd wokeFd : Fd}
    {timeout : Timeout} {waits : Nat} {o : Outcome (Traced σ) Nat}
    (ho : c.run host.traced wakeFd wokeFd timeout waits t = some o) :
    (o.state.since t.trace.length Exchange.refusedFd? = [] ∧
      ∀ es ∈ o.state.since t.trace.length Exchange.events?, ∀ e ∈ es,
        o.collector.registry.AsksCondition e.fd → o.state.table.isEnabled e.fd = true) ∨
    ∃ err earlier pre e post, o.answer = .error (.io err) ∧
      o.state.since t.trace.length Exchange.refusedFd? = [e.fd] ∧
      o.state.since t.trace.length Exchange.events? = earlier ++ [pre ++ e :: post] ∧
      ∀ fd ≠ e.fd, o.collector.registry.AsksCondition fd →
        ∃ entry, o.state.table.find? fd = some entry ∧
          (fd ∈ pre.map Event.fd ∨ fd ∈ earlier.flatten.map Event.fd ∧ fd ∉ post.map Event.fd →
            entry.enabled = true) ∧
          (fd ∉ pre.map Event.fd → entry.registration.key ∈ post.map Event.key →
            (entry.enabled = true ↔ entry.registration.mode = .level)) := by
  obtain ⟨hh, hc⟩ := h.covers
  have he := (Collector.run_firesTo ho).1.enrolled h.enrolled
  rcases Collector.run_rearms_or hh ho h.enrolled hc with h' |
    ⟨err, earlier, pre, e, post, hanswer, h'⟩
  · refine Or.inl ⟨h'.refusedFds_eq, fun es hes e hmem ha => ?_⟩
    exact h'.rearmed es hes e hmem ((he.isEmpty_conditions_iff e.fd).mpr ha)
  · refine Or.inr ⟨err, earlier, pre, e, post, hanswer, h'.refusedFds_eq, h'.events_eq, ?_⟩
    intro fd hne ha
    have hcond := (he.isEmpty_conditions_iff fd).mpr ha
    obtain ⟨entry, hfind, -⟩ := h'.covers.exists_entry (he.chain_ne_nil_of_asksCondition ha)
    have henabled : ∀ {fd'}, fd' = fd →
        o.state.table.Rearmed o.collector.registry fd' → entry.enabled = true := by
      rintro fd' rfl hrearmed
      rw [← Poller.Table.isEnabled_of_find? hfind]
      exact hrearmed hcond
    refine ⟨entry, hfind, fun hbefore => ?_, fun hpre hkey => ?_⟩
    · by_cases hpre : fd ∈ pre.map Event.fd
      · obtain ⟨e', hmem, rfl⟩ := List.mem_map.mp hpre
        exact henabled rfl (h'.rearmed e' hmem hne)
      · obtain ⟨hearlier, hpost⟩ := hbefore.resolve_left hpre
        obtain ⟨e', hmem, rfl⟩ := List.mem_map.mp hearlier
        obtain ⟨es, hes, hmem⟩ := List.mem_flatten.mp hmem
        refine henabled rfl (h'.rearmed_earlier es hes e' hmem ?_)
        rw [List.map_append, List.map_cons, List.mem_append, List.mem_cons, not_or, not_or]
        exact ⟨hpre, hne, hpost⟩
    · refine h'.enabled_iff hfind hpre ?_
      rw [List.map_append, List.map_cons]
      exact List.mem_append_right _ (List.mem_cons_of_mem _ hkey)

namespace Scenario

/-- A world whose poller refuses calls and answers the waits as laid down. -/
def World.refusing (hasLevel : Bool) (failures : List Int32) (waits : List Poller.WaitAnswer) :
    World :=
  { Session.scripted.world with
    pollers := .scripted
      { Poller.Script.empty with hasLevel := hasLevel, failures := failures, waits := waits } }

/-- Descriptors 5 and 6 have a one-shot reader and a one-shot writer each.  Both readers report, and
    the registration of descriptor 6 for its writer is refused.  Descriptor 5 came first. -/
theorem run_rearms_before_refusal :
    ∃ (c : Collector (Traced World)) (t : Traced World) (o : Outcome (Traced World) Nat),
      History (World.host 0).traced Overheard
        [.add 5 .read (.ok ⟨0, 0⟩), .add 5 .write (.ok ⟨1, 1⟩), .add 6 .read (.ok ⟨2, 2⟩),
          .add 6 .write (.ok ⟨3, 3⟩)] c t ∧
      c.run (World.host 0).traced 0 1 .poll 1 t = some o ∧ o.answer = .error (.io (.os 22)) ∧
      o.state.since t.trace.length Exchange.refusedFd? = [6] ∧
      o.collector.registry.AsksCondition 5 ∧
      ∃ entry, o.state.table.find? 5 = some entry ∧ entry.enabled = true := by
  have h₀ : History (World.host 0).traced Overheard [] _ _ :=
    .create (show Collector.create (World.host 0).traced (Buffer.ofCapacity 4) default
      ⟨World.refusing true [0, 0, 0, 0, 0, 22]
        [.events [⟨5, true, false, false, none⟩, ⟨6, true, false, false, none⟩]], []⟩ =
          (.ok _, _) from rfl)
  have h₁ := h₀.step (.add 5 .read _ _) trivial
  have h₂ := h₁.step (.add 5 .write _ _) trivial
  have h₃ := h₂.step (.add 6 .read _ _) trivial
  have h₄ := h₃.step (.add 6 .write _ _) trivial
  obtain ⟨c, t, o, h, ho, hanswer, hrefused, hevents, ha⟩ :
      ∃ c t o, History (World.host 0).traced Overheard _ c t ∧
        c.run (World.host 0).traced 0 1 .poll 1 t = some o ∧ o.answer = .error (.io (.os 22)) ∧
        o.state.since t.trace.length Exchange.refusedFd? = [6] ∧
        o.state.since t.trace.length Exchange.events? =
          [[⟨5, true, false, false, none⟩, ⟨6, true, false, false, none⟩]] ∧
        o.collector.registry.AsksCondition 5 :=
    ⟨_, _, _, h₄, rfl, rfl, rfl, rfl,
      Or.inr (Or.inl ⟨1, ⟨5, .write, 1, true⟩, rfl, rfl, rfl, by decide⟩)⟩
  refine ⟨c, t, o, h, ho, hanswer, hrefused, ha, ?_⟩
  rcases h.run_rearms ho with ⟨hnone, -⟩ | ⟨err, earlier, pre, e, post, -, hfd, hlast, hrest⟩
  · rw [hrefused] at hnone
    cases hnone
  · -- The refused event is the second one, and what came before it is the first.
    rw [hrefused, List.singleton_inj] at hfd
    rw [hevents] at hlast
    obtain ⟨-, hlast⟩ := (List.append_eq_singleton_iff.mp hlast.symm).resolve_right (by simp)
    rw [List.singleton_inj] at hlast
    have hpre : 5 ∈ pre.map Event.fd := by
      cases pre with
      | nil =>
        rw [(List.cons.inj hlast).1] at hfd
        exact absurd hfd (by decide)
      | cons e' pre =>
        rw [(List.cons.inj hlast).1]
        exact List.mem_cons_self
    obtain ⟨entry, hfind, henabled, -⟩ := hrest 5 (by rw [← hfd]; decide) ha
    exact ⟨entry, hfind, henabled (Or.inl hpre)⟩

/-- Descriptor 5 has a one-shot reader and a one-shot writer, descriptor 6 a persistent reader, on a
    poller without level mode.  Both report a reader, and the registration of descriptor 5 for its
    writer is refused.  Descriptor 6 was not refused anything, and is never reported again. -/
theorem rearming_stops_at_refusal :
    ∃ (c : Collector (Traced World)) (t : Traced World) (o : Outcome (Traced World) Nat),
      History (World.host 0).traced Overheard
        [.add 5 .read (.ok ⟨0, 0⟩), .add 5 .write (.ok ⟨1, 1⟩),
          .add 6 (.read ∪ .persist) (.ok ⟨2, 2⟩)] c t ∧
      c.run (World.host 0).traced 0 1 .poll 1 t = some o ∧
      o.state.since t.trace.length Exchange.events? =
        [[⟨5, true, false, false, none⟩, ⟨6, true, false, false, none⟩]] ∧
      o.state.since t.trace.length Exchange.refusedFd? = [5] ∧
      o.collector.registry.AsksCondition 6 ∧ o.state.table.isEnabled 6 = false := by
  have h₀ : History (World.host 0).traced Overheard [] _ _ :=
    .create (show Collector.create (World.host 0).traced (Buffer.ofCapacity 4) default
      ⟨World.refusing false [0, 0, 0, 22]
        [.events [⟨5, true, false, false, none⟩, ⟨6, true, false, false, none⟩]], []⟩ =
          (.ok _, _) from rfl)
  have h₁ := h₀.step (.add 5 .read _ _) trivial
  have h₂ := h₁.step (.add 5 .write _ _) trivial
  have h₃ := h₂.step (.add 6 (.read ∪ .persist) _ _) trivial
  exact ⟨_, _, _, h₃, rfl, rfl, rfl, Or.inl ⟨2, _, rfl, rfl, rfl, by decide⟩, by decide⟩

end Scenario

end Readiness
