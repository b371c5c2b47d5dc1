import Mathlib.Data.List.Sort
import Readiness.Proofs.Poller.Reliable

namespace Readiness

/-!
# Emulated level mode

On a poller without level mode every registration is a one-shot one, and it is made anew after every
report as long as a watch persists.  The poller is told more than one with level mode, and reports
less: there, an entry may go on reporting to watches that have all fired.  A caller does not notice.

* `Operation` and `Observation` — what a caller asks for, and what he sees then;
* `Collector.transcript` — what he sees of a list of operations, with the descriptors in any state at
  each of them;
* `Collector.Twins` — two collectors with the same watches and the same buffer, each with a poller
  that serves them in its way.  Every operation leaves twins behind (`Twins.operate`);
* `Collector.exists_transcript_eq` — so two collectors have the same transcript from their creation
  on, whichever of them has level mode.
-/

variable {ρ σ τ : Type}

/-! ### What a caller sees -/

/-- An operation of a collector.  A run does not block. -/
inductive Operation where
  | add (fd : Fd) (mask : Mask)
  | remove (token : Token)
  | resize (buffer : Buffer)
  | poll (wakeFd wokeFd : Fd)

/-- The answer to an operation. -/
inductive Answer where
  | added (answer : Except Error Token)
  | removed (answer : Except Error Unit)
  | resized (answer : Except Error Buffer)
  | polled (answer : Except Error Nat)

/-- What a caller can see after an operation. -/
structure Observation where
  /-- The answer to the operation. -/
  answer : Answer
  /-- The records of the last run. -/
  events : List Record
  /-- The number of watches. -/
  watchCount : Nat

namespace Collector

/-- Carries out an operation.  A run gets by with one wait, or has no outcome. -/
def operate (host : Host σ) (c : Collector σ) (s : σ) :
    Operation → Option (Answer × Collector σ × σ)
  | .add fd mask =>
    let o := c.add host fd mask s
    some (.added o.answer, o.collector, o.state)
  | .remove token =>
    let o := c.remove host token s
    some (.removed o.answer, o.collector, o.state)
  | .resize buffer =>
    let o := c.resize host buffer s
    some (.resized o.answer, o.collector, o.state)
  | .poll wakeFd wokeFd =>
    (c.run host wakeFd wokeFd .poll 1 s).map fun o => (.polled o.answer, o.collector, o.state)

/-- What a caller sees of these operations, each with the state the descriptors are in. -/
def transcript (host : (Fd → ρ) → Host σ) :
    List ((Fd → ρ) × Operation) → Collector σ → σ → Option (List Observation)
  | [], _, _ => some []
  | (ready, op) :: ops, c, s =>
    match c.operate (host ready) s op with
    | none => none
    | some (answer, c, s) =>
      (transcript host ops c s).map fun seen => ⟨answer, c.events, c.watchCount⟩ :: seen

/-! ### Twins -/

/-- The collectors have the same watches and the same buffer, and the table of either one serves
    these watches in its mode. -/
structure Twins (table : σ → Poller.Table) (table' : τ → Poller.Table) (c : Collector σ) (s : σ)
    (c' : Collector τ) (s' : τ) : Prop where
  registry_eq : c'.registry = c.registry
  buffer_eq : c'.buffer = c.buffer
  enrolled : ∃ roll, c.registry.Enrolled roll
  serves : (table s).Serves c.emulated c.registry []
  serves' : (table' s').Serves c'.emulated c'.registry []

/-- The end of an iteration only depends on the buffer. -/
theorem finish_agrees (host : Host σ) (host' : Host τ) {c : Collector σ} {c' : Collector τ}
    (hb : c'.buffer = c.buffer) (wokeFd : Fd) (answer : Except Error Unit) (s : σ) (s' : τ) :
    (finish host' c' wokeFd answer s').answer = (finish host c wokeFd answer s).answer ∧
      (finish host' c' wokeFd answer s').collector.buffer =
        (finish host c wokeFd answer s).collector.buffer := by
  unfold finish
  cases answer with
  | error e => exact ⟨rfl, hb⟩
  | ok u =>
    dsimp only
    rw [hb]
    exact ⟨rfl, rfl⟩

namespace Twins

variable {respond : Poller.Response ρ} {before : Fd → Fd → Prop} {table : σ → Poller.Table}
  {table' : τ → Poller.Table} {host : (Fd → ρ) → Host σ} {host' : (Fd → ρ) → Host τ}
  {c c₁ : Collector σ} {c' c₁' : Collector τ} {s s₁ : σ} {s' s₁' : τ}

/-- Twins look the same. -/
theorem observation_eq (ht : Twins table table' c s c' s') (answer : Answer) :
    (⟨answer, c'.events, c'.watchCount⟩ : Observation) = ⟨answer, c.events, c.watchCount⟩ := by
  unfold events watchCount
  rw [ht.registry_eq, ht.buffer_eq]

/-- **Every operation leaves twins behind**, and gives both the same answer. -/
theorem operate (ht : Twins table table' c s c' s')
    (h : Poller.Reliable respond before table host)
    (h' : Poller.Reliable respond before table' host') (ready : Fd → ρ) (op : Operation) :
    ∃ answer c₁ s₁ c₁' s₁', c.operate (host ready) s op = some (answer, c₁, s₁) ∧
      c'.operate (host' ready) s' op = some (answer, c₁', s₁') ∧
      Twins table table' c₁ s₁ c₁' s₁' := by
  obtain ⟨hregistry, hbuffer, ⟨roll, he⟩, hs, hs'⟩ := ht
  have he' : c'.registry.Enrolled roll := hregistry ▸ he
  cases op with
  | add fd mask =>
    obtain ⟨s₁, ho, hs₁⟩ := (h.obedient ready).add_eq he hs fd mask
    obtain ⟨s₁', ho', hs₁'⟩ := (h'.obedient ready).add_eq he' hs' fd mask
    unfold Collector.operate
    dsimp only
    rw [ho, ho', hregistry]
    rw [hregistry] at hs₁'
    exact ⟨_, _, _, _, _, rfl, rfl, rfl, hbuffer, ⟨_, he.insert fd mask⟩, hs₁, hs₁'⟩
  | remove t =>
    unfold Collector.operate
    dsimp only
    cases hfind : c.registry.find? t with
    | none =>
      have hinvalid : c.remove (host ready) t s = ⟨.error .invalidToken, c, s⟩ := by
        unfold Collector.remove
        rw [hfind]
      have hinvalid' : c'.remove (host' ready) t s' = ⟨.error .invalidToken, c', s'⟩ := by
        unfold Collector.remove
        rw [hregistry, hfind]
      rw [hinvalid, hinvalid']
      exact ⟨_, _, _, _, _, rfl, rfl, hregistry, hbuffer, ⟨roll, he⟩, hs, hs'⟩
    | some w =>
      obtain ⟨s₁, ho, hs₁⟩ := (h.obedient ready).remove_of_find? he hs hfind
      obtain ⟨s₁', ho', hs₁'⟩ := (h'.obedient ready).remove_of_find? he' hs' (hregistry ▸ hfind)
      rw [ho, ho', hregistry]
      rw [hregistry] at hs₁'
      exact ⟨_, _, _, _, _, rfl, rfl, rfl, hbuffer, ⟨_, he.forget t.key⟩, hs₁, hs₁'⟩
  | resize buffer =>
    unfold Collector.operate Collector.resize
    dsimp only
    rw [hbuffer]
    refine ⟨_, _, _, _, _, rfl, rfl, hregistry, rfl, ⟨roll, he⟩, ?_, ?_⟩
    · rw [h.log]
      exact hs
    · rw [h'.log]
      exact hs'
  | poll wakeFd wokeFd =>
    obtain ⟨order, s₁, hbefore, hmem, hrun, hs₁⟩ := h.run_poll ready he hs wakeFd wokeFd
    obtain ⟨order', s₁', hbefore', hmem', hrun', hs₁'⟩ := h'.run_poll ready he' hs' wakeFd wokeFd
    -- The same descriptors are awaited, so the same events are delivered.
    have horder : order' = order := by
      refine h.eq_of_pairwise hbefore' hbefore fun fd => ?_
      rw [hmem, hmem', hregistry]
    have hpolled : c'.polled respond ready order' = c.polled respond ready order := by
      unfold Collector.polled
      rw [horder, hregistry, hbuffer]
    have henrolled := (run_firesTo hrun).1.enrolled he
    rw [hpolled] at hrun' hs₁'
    generalize c.polled respond ready order = d at hrun hrun' hs₁ hs₁' henrolled
    obtain ⟨hanswer, hbuffer₁⟩ := finish_agrees (host ready) (host' ready)
      (show (c'.after d).buffer = (c.after d).buffer from rfl) wokeFd d.result s₁ s₁'
    obtain ⟨b, hcollector⟩ := finish_collector (host ready) (c.after d) wokeFd d.result s₁
    obtain ⟨b', hcollector'⟩ := finish_collector (host' ready) (c'.after d) wokeFd d.result s₁'
    unfold Collector.operate
    dsimp only
    rw [hrun, hrun', Option.map_some, Option.map_some, hanswer]
    refine ⟨_, _, _, _, _, rfl, rfl, ?_, hbuffer₁, ⟨roll, henrolled⟩, ?_, ?_⟩
    · rw [hcollector, hcollector']
      rfl
    · rw [(h.obedient ready).table_finish, hcollector]
      exact hs₁
    · rw [(h'.obedient ready).table_finish, hcollector']
      exact hs₁'

end Twins

/-! ### Every list of operations -/

/-- Twins have the same transcript. -/
theorem Twins.same_transcript {respond : Poller.Response ρ} {before : Fd → Fd → Prop}
    {table : σ → Poller.Table} {table' : τ → Poller.Table} {host : (Fd → ρ) → Host σ}
    {host' : (Fd → ρ) → Host τ} {c : Collector σ} {c' : Collector τ} {s : σ} {s' : τ}
    (ht : Twins table table' c s c' s') (h : Poller.Reliable respond before table host)
    (h' : Poller.Reliable respond before table' host') (ops : List ((Fd → ρ) × Operation)) :
    ∃ seen, transcript host ops c s = some seen ∧ transcript host' ops c' s' = some seen := by
  induction ops generalizing c s c' s' with
  | nil => exact ⟨[], rfl, rfl⟩
  | cons op ops ih =>
    obtain ⟨ready, op⟩ := op
    obtain ⟨answer, c₁, s₁, c₁', s₁', ho, ho', ht₁⟩ := ht.operate h h' ready op
    obtain ⟨seen, hseen, hseen'⟩ := ih ht₁
    refine ⟨⟨answer, c₁.events, c₁.watchCount⟩ :: seen, ?_, ?_⟩
    · unfold transcript
      rw [ho]
      dsimp only
      rw [hseen, Option.map_some]
    · unfold transcript
      rw [ho']
      dsimp only
      rw [hseen', Option.map_some, ht₁.observation_eq]

end Collector

/-- **Nobody notices whether level mode is emulated.**  Take two new collectors with equal buffers and
    time units, each with a reliable poller of its own, one with level mode and one without, or
    whichever.  The pollers respond alike and report in the same order of descriptors.  Then every
    list of additions, removals, exchanges of the buffer and runs that do not block, with the
    descriptors in any state at each of them, goes through on both and looks the same: the tokens, the
    errors, the counts, the records and the number of watches after each operation. -/
theorem Collector.exists_transcript_eq {respond : Poller.Response ρ} {before : Fd → Fd → Prop}
    {table : σ → Poller.Table} {table' : τ → Poller.Table} {host : (Fd → ρ) → Host σ}
    {host' : (Fd → ρ) → Host τ} (h : Poller.Reliable respond before table host)
    (h' : Poller.Reliable respond before table' host') {buffer : Buffer} {timeUnit : TimeUnit}
    {ready ready' : Fd → ρ} {s₀ s : σ} {s₀' s' : τ} {c : Collector σ} {c' : Collector τ}
    (hc : create (host ready) buffer timeUnit s₀ = (.ok c, s))
    (hc' : create (host' ready') buffer timeUnit s₀' = (.ok c', s')) (hs : table s = ∅)
    (hs' : table' s' = ∅) (ops : List ((Fd → ρ) × Operation)) :
    ∃ seen, transcript host ops c s = some seen ∧ transcript host' ops c' s' = some seen := by
  obtain ⟨hregistry, hbuffer, -⟩ := create_eq hc
  obtain ⟨hregistry', hbuffer', -⟩ := create_eq hc'
  have htwins : Twins table table' c s c' s' := by
    refine ⟨hregistry'.trans hregistry.symm, hbuffer'.trans hbuffer.symm, ⟨[], ?_⟩, ?_, ?_⟩
    · rw [hregistry]
      exact Registry.enrolled_empty
    · rw [hregistry, hs]
      exact Poller.Table.Serves.empty _
    · rw [hregistry', hs']
      exact Poller.Table.Serves.empty _
  exact htwins.same_transcript h h' ops

/-! ### A reliable poller -/

namespace Poller

/-- What an enabled entry reports of the signals of its descriptor. -/
def Entry.response : Response Signals :=
  fun key signals interest => report? ⟨⟨key, interest, .level⟩, true⟩ signals

theorem Entry.key_eq_of_response {key : UInt64} {signals : Signals} {interest : Interest}
    {e : Event} (h : response key signals interest = some e) : e.key = key := by
  unfold response report? at h
  dsimp only at h
  split at h
  · cases h
    rfl
  · cases h

namespace Table

/-- The registered descriptors by increasing number. -/
def sortedKeys (t : Table) : List Fd := t.keys.insertionSort (· ≤ ·)

theorem mem_sortedKeys_iff (t : Table) (fd : Fd) :
    fd ∈ t.sortedKeys ↔ t.isRegistered fd = true := by
  unfold sortedKeys isRegistered
  rw [List.mem_insertionSort, Option.isSome_iff_ne_none, Ne, OrderedMap.find?_eq_none_iff, not_not]

theorem pairwise_sortedKeys (t : Table) : t.sortedKeys.Pairwise (· < ·) := by
  have hnd : t.sortedKeys.Nodup := (List.perm_insertionSort _ _).nodup_iff.mpr t.nodup
  refine ((List.pairwise_insertionSort _ _).and hnd).imp ?_
  rintro fd fd' ⟨hle, hne⟩
  exact Int32.lt_of_le_of_ne hle hne

/-- The mode of an entry does not matter for what it reports. -/
theorem answer?_response (t : Table) (signals : Fd → Signals) :
    t.answer? Entry.response signals = t.report? signals := by
  funext fd
  unfold answer? report?
  congr 1
  funext entry
  unfold Entry.response Entry.report?
  cases entry.enabled with
  | true => rfl
  | false => rfl

/-- A host that is nothing but its poller, which reports by increasing descriptor number. -/
def host (hasLevel : Bool) (signals : Fd → Signals) : Host Table where
  openPoller _ := (.ok hasLevel, ∅)
  add fd r t := (.ok (), t.register fd r)
  modify fd r t := (.ok (), t.register fd r)
  delete fd t := (.ok (), t.unregister fd)
  wait _ t :=
    let es := t.sortedKeys.filterMap (t.report? signals)
    (.ok es, t.report es)
  now _ := .zero
  drain _ t := (0, t)
  log _ t := t

theorem reliable_host (hasLevel : Bool) :
    Reliable Entry.response (· < ·) id (host hasLevel) where
  key_eq := Entry.key_eq_of_response
  asymm := Int32.lt_asymm
  add := fun _ _ _ _ => ⟨_, rfl, rfl⟩
  modify := fun _ _ _ _ => ⟨_, rfl, rfl⟩
  delete := fun _ _ _ => ⟨_, rfl, rfl⟩
  wait := by
    intro signals limit t
    refine ⟨t.sortedKeys, _, _, t.pairwise_sortedKeys, t.mem_sortedKeys_iff, ?_, rfl, rfl⟩
    rw [id_eq, answer?_response]
  drain := fun _ _ _ => rfl
  log := fun _ _ _ => rfl

end Table

end Poller

/-- A persistent reader and a one-shot writer share descriptor 5, a one-shot reader and a watch
    without conditions descriptor 6.  All of them are ready at any time, and there are three runs, the
    last one after the watch without conditions was removed. -/
def busyOperations : List ((Fd → Poller.Signals) × Operation) :=
  [.add 5 (.read ∪ .persist), .add 5 .write, .add 6 .read, .add 6 .persist, .poll 0 1, .poll 0 1,
    .remove ⟨3, 3⟩, .poll 0 1].map fun op => (fun _ => ⟨true, true, false, false⟩, op)

/-- The poller of the first collector has level mode, that of the second has not.  The first run
    overflows a buffer for two records, the second one reports what did not fit. -/
theorem exists_transcript_eq_busy :
    ∃ (c c' : Collector Poller.Table) (t t' : Poller.Table) (seen : List Observation),
      Collector.create (Poller.Table.host true default) (Buffer.ofCapacity 2) default ∅ =
        (.ok c, t) ∧
      Collector.create (Poller.Table.host false default) (Buffer.ofCapacity 2) default ∅ =
        (.ok c', t') ∧
      c.emulated = false ∧ c'.emulated = true ∧
      Collector.transcript (Poller.Table.host true) busyOperations c t = some seen ∧
      Collector.transcript (Poller.Table.host false) busyOperations c' t' = some seen ∧
      seen.map Observation.events =
        [[], [], [], [], [.ofMask 5 .read, .ofMask 5 .write], [.ofMask 5 .read, .ofMask 6 .read],
          [.ofMask 5 .read, .ofMask 6 .read], [.ofMask 5 .read]] := by
  obtain ⟨seen, hseen, hseen'⟩ := Collector.exists_transcript_eq (Poller.Table.reliable_host true)
    (Poller.Table.reliable_host false)
    (show Collector.create (Poller.Table.host true default) (Buffer.ofCapacity 2) default ∅ =
      (.ok _, _) from rfl)
    (show Collector.create (Poller.Table.host false default) (Buffer.ofCapacity 2) default ∅ =
      (.ok _, _) from rfl) rfl rfl busyOperations
  refine ⟨_, _, _, _, seen, rfl, rfl, rfl, rfl, hseen, hseen', ?_⟩
  have hevents := congrArg (Option.map (List.map Observation.events)) hseen
  exact Option.some.inj hevents.symm

end Readiness
