import Readiness.Proofs.Poller.Registrations

namespace Readiness

/-!
# What the poller is left polling for

Between two operations, after any cooperative history on a faithful poller, a descriptor either has
an armed watch that asks for a condition, or it has none.  The histories are those of a host with a
trace, which every history has (`History.exists_traced`).

* `History.armed_entry` — if it has one, its entry is enabled for exactly what is asked for, so no
  readiness is lost;
* `History.idle_entry_polls_iff` — if it has none, its entry may still be enabled for conditions that
  were asked for earlier.  This happens exactly in level mode, when a watch without conditions holds
  it there: a delivery only narrows a registration as long as a condition is left, and it is the
  poller that disables one-shot entries, not the collector.
-/

variable {σ : Type} {host : Host σ}

/-! ### Armed descriptors -/

/-- Some armed watch of `fd` asks for a condition. -/
def Registry.AsksCondition (r : Registry) (fd : Fd) : Prop :=
  r.Asks fd .read ∨ r.Asks fd .write ∨ r.Asks fd .closed

namespace Registry.Enrolled

variable {r : Registry} {roll : List Nat}

/-- The union of the armed masks has a condition exactly if one is asked for. -/
theorem isEmpty_conditions_iff (h : r.Enrolled roll) (fd : Fd) :
    (r.armedMask fd).conditions.isEmpty = false ↔ r.AsksCondition fd := by
  rw [Mask.isEmpty_conditions, Bool.not_eq_false', Bool.or_eq_true, Bool.or_eq_true,
    h.contains_armedMask_iff Mask.isFlag_read, h.contains_armedMask_iff Mask.isFlag_write,
    h.contains_armedMask_iff Mask.isFlag_closed, or_assoc]
  rfl

/-- The union asks for level mode exactly if a watch persists and the poller has it. -/
theorem effective_armedMask_iff (h : r.Enrolled roll) (emulated : Bool) (fd : Fd) :
    (r.armedMask fd).mode.effective emulated = .level ↔
      r.Asks fd .persist ∧ emulated = false := by
  have hpersist : (r.armedMask fd).isPersistent = true ↔ r.Asks fd .persist :=
    h.contains_armedMask_iff Mask.isFlag_persist fd
  rw [← hpersist]
  unfold Mask.mode Mode.effective
  cases emulated with
  | true => simp
  | false =>
    cases (r.armedMask fd).isPersistent with
    | true => simp
    | false => simp

/-- A descriptor with a watch has a list of keys. -/
theorem chain_ne_nil (h : r.Enrolled roll) {key : Nat} {w : Watch} (hw : r.watch? key = some w) :
    r.chain w.fd ≠ [] :=
  List.ne_nil_of_mem (h.mem_chain_iff.mpr ⟨w, hw, rfl⟩)

/-- A descriptor with an armed watch that asks for a condition has a list of keys. -/
theorem chain_ne_nil_of_asksCondition (h : r.Enrolled roll) {fd : Fd} (ha : r.AsksCondition fd) :
    r.chain fd ≠ [] := by
  rcases ha with ⟨key, w, hw, rfl, -⟩ | ⟨key, w, hw, rfl, -⟩ | ⟨key, w, hw, rfl, -⟩
  · exact h.chain_ne_nil hw
  · exact h.chain_ne_nil hw
  · exact h.chain_ne_nil hw

end Registry.Enrolled

/-- **No readiness is lost.**  After every cooperative history on a faithful poller, with level mode
    or without, a descriptor whose armed watches ask for a condition has an enabled entry.  Its
    interest is what these watches ask for, no less and no more, and its mode is level exactly if one
    of them persists and the poller has level mode. -/
theorem History.armed_entry {acts : List (Action (Traced σ))} {c : Collector (Traced σ)}
    {t : Traced σ} (h : History host.traced Cooperative acts c t) (hf : t.Faithful) {fd : Fd}
    (ha : c.registry.AsksCondition fd) :
    ∃ entry, t.table.find? fd = some entry ∧ entry.enabled = true ∧
      entry.registration.key = Fd.toKey fd ∧
      (entry.registration.interest.readable = true ↔ c.registry.Asks fd .read) ∧
      (entry.registration.interest.writable = true ↔ c.registry.Asks fd .write) ∧
      (entry.registration.interest.closed = true ↔ c.registry.Asks fd .closed) ∧
      (entry.registration.mode = .level ↔ c.registry.Asks fd .persist ∧ c.emulated = false) := by
  have he := h.enrolled
  have hserves := h.serves.2 hf
  obtain ⟨m, key, w, hw, rfl, -⟩ : ∃ m, c.registry.Asks fd m := by
    rcases ha with ha | ha | ha
    · exact ⟨_, ha⟩
    · exact ⟨_, ha⟩
    · exact ⟨_, ha⟩
  -- Between operations no event is pending, so the entry is the settled one.
  obtain ⟨entry, hsettled, hfind⟩ := hserves.settled (he.chain_ne_nil hw)
  rw [if_neg List.not_mem_nil] at hfind
  obtain ⟨henabled, hinterest⟩ :=
    hsettled.enabled_of_conditions ((he.isEmpty_conditions_iff w.fd).mpr ha)
  refine ⟨entry, hfind, henabled, hserves.key_eq hfind, ?_⟩
  rw [hinterest, hsettled.mode_eq]
  exact ⟨he.contains_armedMask_iff Mask.isFlag_read w.fd,
    he.contains_armedMask_iff Mask.isFlag_write w.fd,
    he.contains_armedMask_iff Mask.isFlag_closed w.fd,
    he.effective_armedMask_iff c.emulated w.fd⟩

namespace Scenario

/-- A world whose poller, with or without level mode, answers the waits as laid down. -/
def World.answering (hasLevel : Bool) (waits : List Poller.WaitAnswer) : World :=
  { Session.scripted.world with
    pollers := .scripted { Poller.Script.empty with hasLevel := hasLevel, waits := waits } }

/-- A one-shot reader and a persistent writer share descriptor 5, and the buffer has room for one of
    their records.  The reader has reported; the writer did not fit, and is still polled for. -/
theorem armed_entry_after_overflow :
    ∃ (c : Collector (Traced World)) (t : Traced World),
      History (World.host 0).traced Cooperative
        [.add 5 .read (.ok ⟨0, 0⟩), .add 5 (.write ∪ .persist) (.ok ⟨1, 1⟩),
          .run 0 1 .poll (.error (.bufferFull ⟨5, 1⟩))] c t ∧
      t.Faithful ∧ c.registry.AsksCondition 5 ∧
      ∃ entry, t.table.find? 5 = some entry ∧ entry.enabled = true ∧
        entry.registration.interest.writable = true ∧ entry.registration.mode = .level := by
  have h₀ : History (World.host 0).traced Cooperative [] _ _ :=
    .create (show Collector.create (World.host 0).traced (Buffer.ofCapacity 1) default
      ⟨World.answering true [.events [⟨5, true, true, false, none⟩]], []⟩ = (.ok _, _) from rfl)
  have h₁ := h₀.step (.add 5 .read _ _) trivial
  have h₂ := h₁.step (.add 5 (.write ∪ .persist) _ _) trivial
  have h₃ := h₂.step (.run (show Collector.run _ _ 0 1 .poll 1 _ = some _ from rfl))
    (show Traced.AcceptedSince _ _ by decide)
  refine ⟨_, _, h₃, by decide, Or.inr (Or.inl ⟨1, _, rfl, rfl, rfl, by decide⟩), ?_⟩
  obtain ⟨entry, hfind, henabled, -, -, hwritable, -, hmode⟩ :=
    @History.armed_entry _ _ _ _ _ h₃ (by decide) 5
      (Or.inr (Or.inl ⟨1, _, rfl, rfl, rfl, by decide⟩))
  refine ⟨entry, hfind, henabled, ?_, ?_⟩
  · exact hwritable.mpr ⟨1, _, rfl, rfl, rfl, by decide⟩
  · exact hmode.mpr ⟨⟨1, _, rfl, rfl, rfl, by decide⟩, rfl⟩

end Scenario

/-! ### Idle descriptors -/

/-- The entry makes its poller report conditions. -/
def Poller.Entry.Polls (entry : Entry) : Prop :=
  entry.enabled = true ∧ entry.registration.interest.isEmpty = false

/-- **What is left of an idle registration.**  After every cooperative history on a faithful poller,
    a watched descriptor whose armed watches ask for no condition has an entry, and this is only
    polled if it was last registered for a condition, the poller has level mode, and one of the
    armed watches persists.  Then it is polled. -/
theorem History.idle_entry_polls_iff {acts : List (Action (Traced σ))} {c : Collector (Traced σ)}
    {t : Traced σ} (h : History host.traced Cooperative acts c t) (hf : t.Faithful) {key : Nat}
    {w : Watch} (hw : c.registry.watch? key = some w) (ha : ¬ c.registry.AsksCondition w.fd) :
    ∃ entry, t.table.find? w.fd = some entry ∧
      (entry.Polls ↔ entry.registration.interest.isEmpty = false ∧
        c.registry.Asks w.fd .persist ∧ c.emulated = false) := by
  have he := h.enrolled
  have hserves := h.serves.2 hf
  obtain ⟨entry, hsettled, hfind⟩ := hserves.settled (he.chain_ne_nil hw)
  rw [if_neg List.not_mem_nil] at hfind
  have hempty : (c.registry.armedMask w.fd).conditions.isEmpty = true := by
    rw [← Bool.not_eq_false, he.isEmpty_conditions_iff]
    exact ha
  refine ⟨entry, hfind, ?_⟩
  rw [← he.effective_armedMask_iff, ← hsettled.mode_eq]
  constructor
  · rintro ⟨henabled, hne⟩
    refine ⟨hne, ?_⟩
    -- A one-shot entry would have been disabled by its report.
    rcases hsettled.idle_of_isEmpty hempty henabled with hi | hlevel
    · rw [hi] at hne
      cases hne
    · exact hlevel
  · -- A level entry stays enabled, whatever it reports.
    rintro ⟨hne, hlevel⟩
    exact ⟨hsettled.enabled_of_level hlevel, hne⟩

namespace Scenario

/-- A one-shot reader shares descriptor 5 with a watch that persists but asks for no condition.  On a
    poller without level mode the reader has reported, and the poller has disabled the entry. -/
theorem idle_entry_polls_iff_without_level :
    ∃ (c : Collector (Traced World)) (t : Traced World),
      History (World.host 0).traced Cooperative
        [.add 5 .read (.ok ⟨0, 0⟩), .add 5 .persist (.ok ⟨1, 1⟩), .run 0 1 .poll (.ok 1)] c t ∧
      t.Faithful ∧ ¬ c.registry.AsksCondition 5 ∧
      ∃ entry, t.table.find? 5 = some entry ∧ ¬ entry.Polls := by
  have h₀ : History (World.host 0).traced Cooperative [] _ _ :=
    .create (show Collector.create (World.host 0).traced (Buffer.ofCapacity 1) default
      ⟨World.answering false [.events [⟨5, true, false, false, none⟩]], []⟩ = (.ok _, _) from rfl)
  have h₁ := h₀.step (.add 5 .read _ _) trivial
  have h₂ := h₁.step (.add 5 .persist _ _) trivial
  have h₃ := h₂.step (.run (show Collector.run _ _ 0 1 .poll 1 _ = some _ from rfl))
    (show Traced.AcceptedSince _ _ by decide)
  have hidle := (not_congr (h₃.enrolled.isEmpty_conditions_iff 5)).mp (by decide)
  obtain ⟨entry, hfind, hpolls⟩ :=
    @History.idle_entry_polls_iff _ _ _ _ _ h₃ (by decide) 1 _ rfl hidle
  refine ⟨_, _, h₃, by decide, hidle, entry, hfind, fun h => ?_⟩
  have hlevel := (hpolls.mp h).2.2
  cases hlevel

/-- The same on a poller with level mode.  The reader has reported and is disarmed, nobody asks for a
    condition of descriptor 5 any more, and its entry is still enabled for readers. -/
theorem idle_entry_polled :
    ∃ (c : Collector (Traced World)) (t : Traced World),
      History (World.host 0).traced Cooperative
        [.add 5 .read (.ok ⟨0, 0⟩), .add 5 .persist (.ok ⟨1, 1⟩), .run 0 1 .poll (.ok 1)] c t ∧
      t.Faithful ∧ c.registry.watch? 1 = some ⟨5, .persist, 1, true⟩ ∧
      ¬ c.registry.AsksCondition 5 ∧
      ∃ entry, t.table.find? 5 = some entry ∧ entry.Polls := by
  have h₀ : History (World.host 0).traced Cooperative [] _ _ :=
    .create (show Collector.create (World.host 0).traced (Buffer.ofCapacity 1) default
      ⟨World.answering true [.events [⟨5, true, false, false, none⟩]], []⟩ = (.ok _, _) from rfl)
  have h₁ := h₀.step (.add 5 .read _ _) trivial
  have h₂ := h₁.step (.add 5 .persist _ _) trivial
  have h₃ := h₂.step (.run (show Collector.run _ _ 0 1 .poll 1 _ = some _ from rfl))
    (show Traced.AcceptedSince _ _ by decide)
  have hidle := (not_congr (h₃.enrolled.isEmpty_conditions_iff 5)).mp (by decide)
  exact ⟨_, _, h₃, by decide, rfl, hidle, ⟨⟨5, ⟨true, false, false⟩, .level⟩, true⟩, by decide,
    rfl, rfl⟩

end Scenario

end Readiness
