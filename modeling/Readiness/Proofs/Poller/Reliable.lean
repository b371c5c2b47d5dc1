import Mathlib.Data.List.Nodup
import Readiness.Proofs.Poller.Obedient
import Readiness.Proofs.Poller.Polled

namespace Readiness

/-!
# Pollers that do as they are told

A reliable poller refuses nothing, and reports what is ready.  That depends on the state of the
descriptors, which is not the collector's doing, so the host comes as a family over these states.

* `Poller.Reliable` — every call goes through, and a wait reports of each enabled entry what `respond`
  makes of its descriptor and its interest, in a fixed order of descriptors;
* `Registry.awaits` — some armed watch of a descriptor asks for a condition.  Events of the other
  descriptors do nothing (`Delivery.foldl_fanOut_filter`);
* `Reliable.run_poll` — what a run does follows from the watches, the buffer and the state of the
  descriptors.  Which mode the entries are in does not matter, nor do the events of entries that
  nobody awaits.  A reliable poller is obedient, which is all that additions and removals need.
-/

/-! ### Reliable pollers -/

namespace Poller

/-- What an enabled entry reports, by its key, the state of its descriptor and its interest. -/
abbrev Response (ρ : Type) := UInt64 → ρ → Interest → Option Event

/-- What the entry of a descriptor reports, if it has one that is enabled. -/
def Table.answer? {ρ : Type} (t : Table) (respond : Response ρ) (ready : Fd → ρ) (fd : Fd) :
    Option Event :=
  (t.find? fd).bind fun entry =>
    if entry.enabled then
      respond entry.registration.key (ready fd) entry.registration.interest
    else none

/-- The poller behind these hosts keeps `table`, and does as it is told.  A wait reports what the
    enabled entries have to say, in the order `before` of their descriptors, and disables one-shot
    entries by that. -/
structure Reliable {ρ σ : Type} (respond : Response ρ) (before : Fd → Fd → Prop) (table : σ → Table)
    (host : (Fd → ρ) → Host σ) : Prop where
  /-- Events carry the keys of their entries. -/
  key_eq : ∀ {key x interest e}, respond key x interest = some e → e.key = key
  /-- No two descriptors come before each other. -/
  asymm : ∀ {fd fd'}, before fd fd' → ¬ before fd' fd
  add : ∀ ready fd r s, ∃ s', (host ready).add fd r s = (.ok (), s') ∧
    table s' = (table s).register fd r
  modify : ∀ ready fd r s, ∃ s', (host ready).modify fd r s = (.ok (), s') ∧
    table s' = (table s).register fd r
  delete : ∀ ready fd s, ∃ s', (host ready).delete fd s = (.ok (), s') ∧
    table s' = (table s).unregister fd
  wait : ∀ ready limit s, ∃ (order : List Fd) (es : List Event) (s' : σ),
    order.Pairwise before ∧ (∀ fd, fd ∈ order ↔ (table s).isRegistered fd = true) ∧
    es = order.filterMap ((table s).answer? respond ready) ∧
    (host ready).wait limit s = (.ok es, s') ∧ table s' = (table s).report es
  drain : ∀ ready fd s, table ((host ready).drain fd s).2 = table s
  log : ∀ ready e s, table ((host ready).log e s) = table s

end Poller

/-! ### Awaited descriptors -/

namespace Registry

/-- Whether some armed watch of `fd` asks for a condition. -/
def awaits (r : Registry) (fd : Fd) : Bool := !(r.armedMask fd).conditions.isEmpty

variable {r r' : Registry} {roll : List Nat}

theorem Enrolled.awaits_iff (h : r.Enrolled roll) (fd : Fd) :
    r.awaits fd = true ↔ r.AsksCondition fd := by
  unfold awaits
  rw [Bool.not_eq_true', h.isEmpty_conditions_iff]

/-- Nothing is awaited that was not before. -/
theorem FiresTo.awaits (h : r.FiresTo r') (he : r.Enrolled roll) {fd : Fd}
    (ha : r'.awaits fd = true) : r.awaits fd = true := by
  rw [(h.enrolled he).awaits_iff] at ha
  rw [he.awaits_iff]
  exact ha.imp h.asks (Or.imp h.asks h.asks)

end Registry

/-- What is in common with nothing is nothing. -/
theorem Mask.isEmpty_inter_of_isEmpty (a : Mask) {b : Mask} (h : b.isEmpty = true) :
    (a ∩ b).isEmpty = true := by
  have hb : b = ∅ := of_decide_eq_true h
  have hinter : a ∩ (∅ : Mask) = ∅ := congrArg Mask.mk UInt16.and_zero
  rw [hb, hinter]
  rfl

namespace Delivery

/-- An event of a descriptor that nobody awaits does nothing. -/
theorem fanOut_of_not_awaits {d : Delivery} {roll : List Nat} (he : d.registry.Enrolled roll)
    {e : Event} (h : d.registry.awaits e.fd = false) : d.fanOut e = d := by
  have hoffer : ∀ key ∈ d.registry.chain e.fd, d.offer e.fd e.mask key = d := by
    intro key hkey
    obtain ⟨w, hw, hfd⟩ := he.mem_chain_iff.mp hkey
    unfold offer
    rw [hw]
    dsimp only
    rw [if_neg]
    intro hfire
    obtain ⟨harmed, hreported⟩ := Bool.and_eq_true_iff.mp hfire
    -- An armed watch with a condition would have made somebody wait.
    have hcond : w.mask.conditions.isEmpty = false := by
      by_contra hempty
      rw [Bool.not_eq_false] at hempty
      rw [Mask.isEmpty_inter_of_isEmpty _ hempty] at hreported
      cases hreported
    have hasks : d.registry.AsksCondition e.fd := by
      rw [Mask.isEmpty_conditions, Bool.not_eq_false', Bool.or_eq_true, Bool.or_eq_true,
        or_assoc] at hcond
      exact hcond.imp (fun hc => ⟨key, w, hw, hfd, harmed, hc⟩)
        (Or.imp (fun hc => ⟨key, w, hw, hfd, harmed, hc⟩) fun hc => ⟨key, w, hw, hfd, harmed, hc⟩)
    rw [(he.awaits_iff e.fd).mpr hasks] at h
    cases h
  unfold fanOut
  generalize d.registry.chain e.fd = keys at hoffer
  induction keys with
  | nil => rfl
  | cons key keys ih =>
    rw [List.foldl_cons, hoffer key List.mem_cons_self]
    exact ih fun k hk => hoffer k (List.mem_cons_of_mem _ hk)

/-- **Events of descriptors that nobody awaits can be left out.** -/
theorem foldl_fanOut_filter {r : Registry} {roll : List Nat} (he : r.Enrolled roll)
    (es : List Event) {d : Delivery} (hd : r.FiresTo d.registry) :
    es.foldl fanOut d = (es.filter fun e => r.awaits e.fd).foldl fanOut d := by
  induction es generalizing d with
  | nil => rfl
  | cons e es ih =>
    rw [List.foldl_cons, List.filter_cons]
    cases ha : r.awaits e.fd with
    | true => exact ih (hd.trans (d.fanOut_firesTo e))
    | false =>
      have hidle : d.registry.awaits e.fd = false := by
        by_contra h
        rw [Bool.not_eq_false] at h
        rw [hd.awaits he h] at ha
        cases ha
      rw [fanOut_of_not_awaits (hd.enrolled he) hidle]
      exact ih hd

end Delivery

/-! ### Waits -/

namespace Registry

/-- What the watches of these descriptors are to be told. -/
def expected {ρ : Type} (r : Registry) (respond : Poller.Response ρ) (ready : Fd → ρ)
    (order : List Fd) : List Event :=
  order.filterMap fun fd => respond (Fd.toKey fd) (ready fd) (r.armedMask fd).interest

end Registry

namespace Poller.Table.Serves

variable {ρ : Type} {respond : Response ρ} {ready : Fd → ρ} {t : Table} {emulated : Bool}
  {r : Registry} {roll : List Nat} {fd : Fd}

/-- The events of an entry are about its descriptor. -/
theorem key_eq_of_answer? (hs : t.Serves emulated r [])
    (hkey : ∀ {key x interest e}, respond key x interest = some e → e.key = key) {e : Event}
    (h : t.answer? respond ready fd = some e) : e.key = Fd.toKey fd ∧ e.fd = fd := by
  obtain ⟨entry, hfind, hanswer⟩ := Option.bind_eq_some_iff.mp h
  split at hanswer
  · have hk : e.key = Fd.toKey fd := (hkey hanswer).trans (hs.key_eq hfind)
    exact ⟨hk, Event.fd_eq_of_key hk⟩
  · cases hanswer

/-- A descriptor that is awaited has an enabled entry with the right interest. -/
theorem exists_of_awaits (hs : t.Serves emulated r []) (he : r.Enrolled roll)
    (ha : r.awaits fd = true) : ∃ entry, t.find? fd = some entry ∧ entry.enabled = true ∧
      entry.registration.key = Fd.toKey fd ∧
      entry.registration.interest = (r.armedMask fd).interest := by
  have hasks := (he.awaits_iff fd).mp ha
  obtain ⟨entry, hsettled, hfind⟩ := hs.settled (he.chain_ne_nil_of_asksCondition hasks)
  rw [if_neg List.not_mem_nil] at hfind
  obtain ⟨henabled, hinterest⟩ :=
    hsettled.enabled_of_conditions ((he.isEmpty_conditions_iff fd).mpr hasks)
  exact ⟨entry, hfind, henabled, hs.key_eq hfind, hinterest⟩

/-- It reports what its watches are to be told. -/
theorem answer?_of_awaits (hs : t.Serves emulated r []) (he : r.Enrolled roll)
    (ha : r.awaits fd = true) : t.answer? respond ready fd =
      respond (Fd.toKey fd) (ready fd) (r.armedMask fd).interest := by
  obtain ⟨entry, hfind, henabled, hkey, hinterest⟩ := hs.exists_of_awaits he ha
  unfold answer?
  rw [hfind, Option.bind_some, if_pos henabled, hkey, hinterest]

theorem isRegistered_of_awaits (hs : t.Serves emulated r []) (he : r.Enrolled roll)
    (ha : r.awaits fd = true) : t.isRegistered fd = true := by
  obtain ⟨entry, hfind, -⟩ := hs.exists_of_awaits he ha
  unfold isRegistered
  rw [hfind]
  rfl

/-- **What a wait reports to those who wait for it** does not depend on the modes of the entries. -/
theorem filter_answers (hs : t.Serves emulated r []) (he : r.Enrolled roll)
    (hkey : ∀ {key x interest e}, respond key x interest = some e → e.key = key) (order : List Fd) :
    (order.filterMap (t.answer? respond ready)).filter (fun e => r.awaits e.fd) =
      r.expected respond ready (order.filter r.awaits) := by
  unfold Registry.expected
  rw [List.filter_filterMap, List.filterMap_filter]
  apply List.filterMap_congr
  intro fd _
  cases ha : r.awaits fd with
  | true =>
    have hanswer : t.answer? respond ready fd = _ := hs.answer?_of_awaits he ha
    rw [if_pos rfl, ← hanswer]
    cases h : t.answer? respond ready fd with
    | none => rfl
    | some e =>
      rw [Option.filter_some_pos]
      rw [(hs.key_eq_of_answer? hkey h).2]
      exact ha
  | false =>
    rw [if_neg Bool.false_ne_true, Option.filter_eq_none_iff]
    intro e h
    rw [(hs.key_eq_of_answer? hkey h).2, ha]
    exact Bool.false_ne_true

/-- So the events of a wait are named by their descriptors. -/
theorem key_eq_of_mem_answers (hs : t.Serves emulated r [])
    (hkey : ∀ {key x interest e}, respond key x interest = some e → e.key = key)
    {order : List Fd} :
    ∀ e ∈ order.filterMap (t.answer? respond ready), e.key = Fd.toKey e.fd := by
  intro e hmem
  obtain ⟨fd, -, hanswer⟩ := List.mem_filterMap.mp hmem
  obtain ⟨hk, hfd⟩ := hs.key_eq_of_answer? hkey hanswer
  rw [hk, hfd]

/-- No entry reports twice. -/
theorem nodup_answers (hs : t.Serves emulated r [])
    (hkey : ∀ {key x interest e}, respond key x interest = some e → e.key = key) {order : List Fd}
    (hnd : order.Nodup) :
    ((order.filterMap (t.answer? respond ready)).map Event.key).Nodup := by
  rw [List.map_filterMap]
  refine hnd.filterMap ?_
  intro fd fd' key h h'
  obtain ⟨e, hanswer, rfl⟩ := Option.map_eq_some_iff.mp h
  obtain ⟨e', hanswer', heq⟩ := Option.map_eq_some_iff.mp h'
  rw [(hs.key_eq_of_answer? hkey hanswer).1, (hs.key_eq_of_answer? hkey hanswer').1] at heq
  exact (Fd.toKey_inj.mp heq).symm

end Poller.Table.Serves

/-! ### Operations -/

namespace Collector

/-- Where an iteration from a cleared buffer comes to when the watches of these descriptors are told
    what is ready. -/
def polled {ρ σ : Type} (c : Collector σ) (respond : Poller.Response ρ) (ready : Fd → ρ)
    (order : List Fd) : Delivery :=
  (c.registry.expected respond ready order).foldl Delivery.fanOut ⟨c.registry, c.buffer.clear, none⟩

/-- The collector once an iteration has come to `d`. -/
def after {σ : Type} (c : Collector σ) (d : Delivery) : Collector σ :=
  { c with registry := d.registry, buffer := d.buffer }

end Collector

namespace Poller.Reliable

variable {ρ σ : Type} {respond : Response ρ} {before : Fd → Fd → Prop} {table : σ → Table}
  {host : (Fd → ρ) → Host σ} {c : Collector σ} {s : σ} {roll : List Nat}

/-- A list in the fixed order has no repetitions. -/
theorem nodup_of_pairwise (h : Reliable respond before table host) {order : List Fd}
    (ho : order.Pairwise before) : order.Nodup := by
  refine ho.imp ?_
  rintro fd fd' hlt rfl
  exact h.asymm hlt hlt

/-- **The order is fixed**: two lists of the same descriptors in this order are equal. -/
theorem eq_of_pairwise (h : Reliable respond before table host) {order order' : List Fd}
    (ho : order.Pairwise before) (ho' : order'.Pairwise before)
    (hmem : ∀ fd, fd ∈ order ↔ fd ∈ order') : order = order' := by
  refine List.Perm.eq_of_pairwise ?_ ho ho' ?_
  · intro fd fd' _ _ hlt hgt
    exact absurd hgt (h.asymm hlt)
  · exact (List.perm_ext_iff_of_nodup (h.nodup_of_pairwise ho) (h.nodup_of_pairwise ho')).mpr hmem

/-- A reliable poller refuses nothing. -/
theorem obedient (h : Reliable respond before table host) (ready : Fd → ρ) :
    Obedient table (host ready) where
  add := h.add ready
  modify := h.modify ready
  delete := h.delete ready
  drain := h.drain ready
  log := h.log ready

/-- **A run that does not block** tells the armed watches what is ready, in the fixed order of the
    descriptors that are awaited. -/
theorem run_poll (h : Reliable respond before table host) (ready : Fd → ρ)
    (he : c.registry.Enrolled roll) (hs : (table s).Serves c.emulated c.registry [])
    (wakeFd wokeFd : Fd) : ∃ (order : List Fd) (s' : σ), order.Pairwise before ∧
      (∀ fd, fd ∈ order ↔ c.registry.awaits fd = true) ∧
      c.run (host ready) wakeFd wokeFd .poll 1 s =
        some (Collector.finish (host ready) (c.after (c.polled respond ready order)) wokeFd
          (c.polled respond ready order).result s') ∧
      (table s').Serves c.emulated (c.polled respond ready order).registry [] := by
  obtain ⟨order, es, s₁, hbefore, hmem, hes, hwait, htable⟩ := h.wait ready (some .zero) s
  obtain ⟨s', hdelivers, hdeliver⟩ :=
    (h.obedient ready).deliver_eq c.emulated es ⟨c.registry, c.buffer.clear, none⟩ s₁
  -- The events that nobody awaits make no difference.
  have hpolled : es.foldl Delivery.fanOut ⟨c.registry, c.buffer.clear, none⟩ =
      c.polled respond ready (order.filter c.registry.awaits) := by
    rw [Delivery.foldl_fanOut_filter he es (Registry.FiresTo.refl _), hes,
      hs.filter_answers he h.key_eq]
    rfl
  rw [hpolled] at hdelivers hdeliver
  refine ⟨order.filter c.registry.awaits, s', hbefore.filter _, ?_, ?_, ?_⟩
  · intro fd
    rw [List.mem_filter, hmem, and_iff_right_of_imp (hs.isRegistered_of_awaits he)]
  · unfold Collector.run
    dsimp only
    rw [if_neg (by decide)]
    show Option.map _ (Collector.collect _ _ _ _ 1 (some .zero) _ _) = _
    unfold Collector.collect
    rw [hwait]
    dsimp only
    rw [hdeliver]
    cases (c.polled respond ready (order.filter c.registry.awaits)).result with
    | error e => rfl
    | ok u =>
      dsimp only
      rw [if_neg (fun hblock => by cases hblock.1)]
      rfl
  · refine hdelivers.serves (h.obedient ready).table_modify he ?_ ?_ ?_
    · rw [htable]
      exact hs.report es
    · rw [hes]
      exact hs.key_eq_of_mem_answers h.key_eq
    · rw [hes]
      exact hs.nodup_answers h.key_eq (h.nodup_of_pairwise hbefore)

end Poller.Reliable

end Readiness
