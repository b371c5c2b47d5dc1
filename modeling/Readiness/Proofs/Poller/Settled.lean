import Readiness.Proofs.Poller.View
import Readiness.Proofs.Registry.Armed

namespace Readiness

/-!
# Entries that fit the armed watches

What the entry of a descriptor has to be like, given the union of the masks of its armed watches,
so that no event which is asked for is lost.

* `Poller.Entry.Settled` — the entry fits the union between two operations.  What it says of a union
  without conditions is all that holds there: the entry may be left as it was;
* `Delivery.rearm?_cases` — when an event makes a delivery register its descriptor again;
* `Entry.Settled.acknowledge` / `Entry.settled_ofMask` — an entry that has reported fits what is left
  of the union if the descriptor is not registered again, and the new entry does if it is;
* `Poller.Table.Serves` — every watched descriptor has an entry that fits.  Entries of events that
  are still to be delivered have reported, and will fit once they are.
-/

/-! ### Interests and keys -/

/-- Whether no condition is asked for. -/
def Interest.isEmpty (i : Interest) : Bool := !(i.readable || i.writable || i.closed)

/-- A mask asks for a condition exactly if its interest does. -/
theorem Mask.isEmpty_interest (a : Mask) : a.interest.isEmpty = a.conditions.isEmpty := by
  rw [Mask.isEmpty_conditions]
  rfl

/-- No two descriptors have the same key. -/
theorem Fd.toKey_inj {fd fd' : Fd} : Fd.toKey fd = Fd.toKey fd' ↔ fd = fd' := by
  constructor
  · intro h
    rw [← Fd.ofKey_toKey fd, h, Fd.ofKey_toKey]
  · rintro rfl
    rfl

/-- The event of a descriptor is about this descriptor. -/
theorem Event.fd_eq_of_key {e : Event} {fd : Fd} (h : e.key = Fd.toKey fd) : e.fd = fd := by
  unfold Event.fd
  rw [h, Fd.ofKey_toKey]

namespace Poller.Entry

/-! ### Settled entries -/

/-- The entry fits armed watches whose masks have the union `a`. -/
structure Settled (emulated : Bool) (a : Mask) (entry : Entry) : Prop where
  /-- The mode is the one asked for. -/
  mode_eq : entry.registration.mode = a.mode.effective emulated
  /-- In level mode an entry is never disabled. -/
  enabled_of_level : entry.registration.mode = .level → entry.enabled = true
  /-- If a condition is asked for, the entry is enabled for exactly what is asked for. -/
  enabled_of_conditions : a.conditions.isEmpty = false →
    entry.enabled = true ∧ entry.registration.interest = a.interest
  /-- If none is, a one-shot entry is disabled, or enabled for nothing. -/
  idle_of_isEmpty : a.conditions.isEmpty = true → entry.enabled = true →
    entry.registration.interest.isEmpty = true ∨ entry.registration.mode = .level

/-- A registration that was worked out from the union fits it. -/
theorem settled_ofMask (emulated : Bool) (key : UInt64) (a : Mask) :
    Settled emulated a ⟨.ofMask emulated key a, true⟩ where
  mode_eq := rfl
  enabled_of_level := fun _ => rfl
  enabled_of_conditions := fun _ => ⟨rfl, rfl⟩
  idle_of_isEmpty := by
    intro ha _
    left
    show a.interest.isEmpty = true
    rw [Mask.isEmpty_interest, ha]

/-- Reporting keeps the terms of an entry. -/
@[simp] theorem registration_acknowledge (entry : Entry) :
    entry.acknowledge.registration = entry.registration := rfl

/-- Reporting leaves an entry in level mode as it is. -/
theorem acknowledge_of_level {entry : Entry} (h : entry.registration.mode = .level) :
    entry.acknowledge = entry := by
  unfold acknowledge
  rw [decide_eq_true h, Bool.and_true]

/-- An entry that has reported is only left enabled in level mode. -/
theorem level_of_enabled_acknowledge {entry : Entry} (h : entry.acknowledge.enabled = true) :
    entry.registration.mode = .level := by
  unfold acknowledge at h
  rw [Bool.and_eq_true] at h
  exact of_decide_eq_true h.2

namespace Settled

variable {emulated : Bool} {a b : Mask} {entry : Entry}

/-- The entry fits any union with the same mode and the same conditions. -/
theorem acknowledge_of_level (h : Settled emulated a entry)
    (hlevel : a.mode.effective emulated = .level) : Settled emulated a entry.acknowledge := by
  rw [Entry.acknowledge_of_level (h.mode_eq.trans hlevel)]
  exact h

/-- An entry that has reported fits a union from which the last condition is gone. -/
theorem acknowledge_of_isEmpty (h : Settled emulated a entry)
    (hp : b.isPersistent = a.isPersistent) (hb : b.conditions.isEmpty = true) :
    Settled emulated b entry.acknowledge where
  mode_eq := by
    rw [registration_acknowledge, h.mode_eq]
    unfold Mask.mode
    rw [hp]
  enabled_of_level := by
    intro (hlevel : entry.registration.mode = .level)
    rw [Entry.acknowledge_of_level hlevel]
    exact h.enabled_of_level hlevel
  enabled_of_conditions := by
    intro hne
    rw [hb] at hne
    cases hne
  idle_of_isEmpty := by
    intro _ hen
    have hlevel : entry.registration.mode = .level := level_of_enabled_acknowledge hen
    exact Or.inr hlevel

end Settled

end Poller.Entry

/-! ### Re-arming -/

/-- **Inversion of the decision to register again.**  A descriptor is not registered again if nobody
    asks for a condition any more, or if in level mode nothing changed. -/
theorem Delivery.rearm?_cases (emulated : Bool) (before after : Delivery) (e : Event) :
    (rearm? emulated before after e = none ∧
      ((after.registry.armedMask e.fd).conditions.isEmpty = true ∨
        after.registry.armedMask e.fd = before.registry.armedMask e.fd ∧
          (before.registry.armedMask e.fd).mode.effective emulated = .level)) ∨
    rearm? emulated before after e =
      some (.ofMask emulated e.key (after.registry.armedMask e.fd)) := by
  unfold rearm?
  dsimp only
  split
  · exact Or.inr rfl
  · next h =>
    refine Or.inl ⟨rfl, ?_⟩
    by_cases hc : (after.registry.armedMask e.fd).conditions.isEmpty = true
    · exact Or.inl hc
    · -- A condition is left, so it was the other half of the test that failed.
      right
      have hsame : ¬ (after.registry.armedMask e.fd ≠ before.registry.armedMask e.fd ∨
          (after.registry.armedMask e.fd).mode.effective emulated = .oneshot) :=
        fun hd => h ⟨hd, hc⟩
      rw [not_or, not_not] at hsame
      refine ⟨hsame.1, ?_⟩
      rw [← hsame.1]
      cases hmode : (after.registry.armedMask e.fd).mode.effective emulated with
      | level => rfl
      | oneshot => exact absurd hmode hsame.2

/-! ### Tables that fit a registry -/

namespace Poller.Table

/-- Every descriptor that is watched in `r` has an entry that fits its armed watches.  The entries
    with a key in `pending` have reported, and nothing was done about that so far. -/
structure Serves (t : Table) (emulated : Bool) (r : Registry) (pending : List UInt64) : Prop where
  /-- Every entry is registered under the key of its descriptor. -/
  key_eq : ∀ {fd entry}, t.find? fd = some entry → entry.registration.key = Fd.toKey fd
  /-- A watched descriptor has an entry that fits, but for the report. -/
  settled : ∀ {fd}, r.chain fd ≠ [] → ∃ entry, Entry.Settled emulated (r.armedMask fd) entry ∧
    t.find? fd = some (if Fd.toKey fd ∈ pending then entry.acknowledge else entry)

namespace Serves

variable {t t' : Table} {emulated : Bool} {r r' : Registry} {pending pending' : List UInt64}

theorem empty (emulated : Bool) : Serves ∅ emulated ∅ [] where
  key_eq := by intro fd entry h; cases h
  settled := by intro fd h; exact absurd rfl h

/-- It is enough that the watches of every descriptor are as before, and ask for the same. -/
theorem congr (h : t.Serves emulated r pending) (hchain : ∀ fd, r'.chain fd = r.chain fd)
    (hmask : ∀ fd, r'.armedMask fd = r.armedMask fd) : t.Serves emulated r' pending where
  key_eq := h.key_eq
  settled := by
    intro fd hne
    rw [hchain] at hne
    rw [hmask]
    exact h.settled hne

/-- **Frame.**  If only the watches and the entry of `fd` change, only these have to fit again. -/
theorem update (h : t.Serves emulated r pending) {fd : Fd} (hr : r.SameBut fd r')
    (hfind : ∀ {fd'}, fd' ≠ fd → t'.find? fd' = t.find? fd')
    (hpending : ∀ {fd'}, fd' ≠ fd → (Fd.toKey fd' ∈ pending' ↔ Fd.toKey fd' ∈ pending))
    (hkey : ∀ {entry}, t'.find? fd = some entry → entry.registration.key = Fd.toKey fd)
    (hsettled : r'.chain fd ≠ [] → ∃ entry, Entry.Settled emulated (r'.armedMask fd) entry ∧
      t'.find? fd = some (if Fd.toKey fd ∈ pending' then entry.acknowledge else entry)) :
    t'.Serves emulated r' pending' where
  key_eq := by
    intro fd' entry hf
    by_cases hfd : fd' = fd
    · subst hfd
      exact hkey hf
    · rw [hfind hfd] at hf
      exact h.key_eq hf
  settled := by
    intro fd' hne
    by_cases hfd : fd' = fd
    · subst hfd
      exact hsettled hne
    · rw [hr.chain_eq hfd] at hne
      obtain ⟨entry, hs, hf⟩ := h.settled hne
      refine ⟨entry, ?_, ?_⟩
      · rw [hr.armedMask_eq hfd]
        exact hs
      · simp only [hfind hfd, hf, hpending hfd]

/-- Registering `fd` for what its armed watches ask for makes its entry fit. -/
theorem register (h : t.Serves emulated r pending) {fd : Fd} (hr : r.SameBut fd r')
    (hpending : ∀ {fd'}, fd' ≠ fd → (Fd.toKey fd' ∈ pending' ↔ Fd.toKey fd' ∈ pending))
    (hfd : Fd.toKey fd ∉ pending') :
    (t.register fd (.ofMask emulated (Fd.toKey fd) (r'.armedMask fd))).Serves emulated r'
      pending' := by
  have hself := find?_register t fd fd (.ofMask emulated (Fd.toKey fd) (r'.armedMask fd))
  rw [if_pos rfl] at hself
  -- The new entry is settled by its construction, and has not reported.
  refine h.update hr ?_ hpending ?_ ?_
  · intro fd' hne
    rw [find?_register, if_neg hne]
  · intro entry hf
    rw [hself] at hf
    cases hf
    rfl
  · intro _
    refine ⟨_, Entry.settled_ofMask emulated (Fd.toKey fd) (r'.armedMask fd), ?_⟩
    rw [hself, if_neg hfd]

/-- A descriptor without watches needs no entry. -/
theorem unregister (h : t.Serves emulated r pending) {fd : Fd} (hr : r.SameBut fd r')
    (hchain : r'.chain fd = []) : (t.unregister fd).Serves emulated r' pending := by
  refine h.update hr ?_ (fun _ => Iff.rfl) ?_ ?_
  · intro fd' hne
    rw [find?_unregister, if_neg hne]
  · intro entry hf
    rw [find?_unregister, if_pos rfl] at hf
    cases hf
  · intro hne
    exact absurd hchain hne

/-- A wait leaves the deliveries of its events pending. -/
theorem report (h : t.Serves emulated r []) (es : List Event) :
    (t.report es).Serves emulated r (es.map Event.key) where
  key_eq := by
    intro fd entry hf
    have heach : t.Each fun fd entry => entry.registration.key = Fd.toKey fd :=
      fun _ _ hf => h.key_eq hf
    exact heach.report es id fd entry hf
  settled := by
    intro fd hne
    obtain ⟨entry, hs, hf⟩ := h.settled hne
    rw [if_neg List.not_mem_nil] at hf
    refine ⟨entry, hs, ?_⟩
    rw [find?_report, hf, Option.map_some, h.key_eq hf]

/-- The events of a faithful wait are named by the keys of their descriptors. -/
theorem key_eq_of_allows (h : t.Serves emulated r pending) {limit : Option Duration}
    {es : List Event} (ha : t.Allows (.wait limit (.ok es))) :
    ∀ e ∈ es, e.key = Fd.toKey e.fd := by
  intro e he
  obtain ⟨⟨fd, entry⟩, hx, -, hkey⟩ := ha.2 e he
  rw [h.key_eq ((t.mem_entries_iff fd entry).mp hx)] at hkey
  rw [Event.fd_eq_of_key hkey.symm, hkey]

end Serves

end Poller.Table

end Readiness
