import Readiness.Proofs.Chronicle

namespace Readiness

/-!
# Watches do not interfere

Watches of one descriptor share a registration, a list of keys and the events, and all watches share
slots, versions and the buffer.  Still, what is reported to a watch is what would be reported to it
if it were the only one.

* `Watch.records` / `Watch.through` — the records a watch makes of the events of one wait, and the
  watch behind them.  No other watch comes into this;
* `Watch.career` — the records over a sequence of waits;
* `Roster.filter_emissions` — these are its records among those of all watches;
* `Tenure` — a history from the addition of a watch on, with what its runs were told and what they
  deposited for the watch;
* `Tenure.records_eq_career` — every tenure is the career of its watch, so two tenures in which the
  poller answered the same are the same (`Tenure.noninterference`).
-/

variable {σ τ : Type} {host : Host σ}

/-! ### A watch on its own -/

namespace Watch

/-- The records a watch makes of these events. -/
def records (w : Watch) : List Event → List Record
  | [] => []
  | e :: es => if w.reports e then .ofMask e.fd (w.share e) :: w.spend.records es else w.records es

/-- The watch behind these events. -/
def through (w : Watch) (es : List Event) : Watch := if w.records es = [] then w else w.spend

/-- The records a watch makes of the events of several waits, wait by wait. -/
def career (w : Watch) : List (List Event) → List (List Record)
  | [] => []
  | es :: ess => w.records es :: (w.through es).career ess

theorem records_cons (w : Watch) (e : Event) (es : List Event) :
    w.records (e :: es) =
      if w.reports e then .ofMask e.fd (w.share e) :: w.spend.records es else w.records es := rfl

theorem career_concat (w : Watch) (ess : List (List Event)) (es : List Event) :
    w.career (ess ++ [es]) = w.career ess ++ [(ess.foldl through w).records es] := by
  induction ess generalizing w with
  | nil => rfl
  | cons es' ess ih =>
    show w.records es' :: (w.through es').career (ess ++ [es]) = _
    rw [ih]
    rfl

@[simp] theorem version_through (w : Watch) (es : List Event) :
    (w.through es).version = w.version := by
  unfold through
  split
  · rfl
  · rfl

theorem version_foldl_through (w : Watch) (ess : List (List Event)) :
    (ess.foldl through w).version = w.version := by
  induction ess generalizing w with
  | nil => rfl
  | cons es ess ih =>
    rw [List.foldl_cons, ih, version_through]

/-! The version of a watch says how often watches were added, and nothing else depends on it. -/

theorem records_version (w : Watch) (version : UInt32) (es : List Event) :
    ({ w with version := version } : Watch).records es = w.records es := by
  induction es generalizing w with
  | nil => rfl
  | cons e es ih =>
    have hreports : ({ w with version := version } : Watch).reports e = w.reports e := rfl
    rw [records_cons, records_cons, hreports]
    split
    · exact congrArg (Record.ofMask e.fd (w.share e) :: ·) (ih w.spend)
    · exact ih w

theorem through_version (w : Watch) (version : UInt32) (es : List Event) :
    ({ w with version := version } : Watch).through es =
      { w.through es with version := version } := by
  unfold through
  rw [records_version]
  split
  · rfl
  · rfl

theorem career_version (w : Watch) (version : UInt32) (ess : List (List Event)) :
    ({ w with version := version } : Watch).career ess = w.career ess := by
  induction ess generalizing w with
  | nil => rfl
  | cons es ess ih =>
    unfold career
    rw [records_version, through_version, ih]

end Watch

/-! ### A watch among others -/

namespace Roster

/-- Of the records of one event at most one is made by a watch. -/
theorem filter_emit {R : Roster} (hnd : (R.map Prod.fst).Nodup) {key : Nat} {w : Watch}
    (hw : (key, w) ∈ R) (e : Event) :
    (R.emit e).filter (fun x => x.1 = key) =
      if w.reports e then [(key, .ofMask e.fd (w.share e))] else [] := by
  induction R with
  | nil => cases hw
  | cons x R ih =>
    rw [List.map_cons, List.nodup_cons] at hnd
    rw [emit_cons, List.filter_append]
    rcases List.mem_cons.mp hw with rfl | hw
    · -- The watches behind it have other keys.
      have hrest : (emit R e).filter (fun x => x.1 = key) = [] := by
        apply List.filter_eq_nil_iff.mpr
        intro y hy hkey
        obtain ⟨v, hv, -⟩ := mem_map_emit_iff.mp (List.mem_map_of_mem hy)
        rw [of_decide_eq_true hkey] at hv
        exact hnd.1 (List.mem_map.mpr ⟨(key, v), hv, rfl⟩)
      rw [hrest, List.append_nil]
      split
      · exact List.filter_cons_of_pos (decide_eq_true rfl)
      · rfl
    · have hne : x.1 ≠ key := fun h => hnd.1 (h ▸ List.mem_map_of_mem hw)
      rw [ih hnd.2 hw]
      split
      · rw [List.filter_cons_of_neg (by simpa using hne)]
        rfl
      · rfl

/-- **The records of a watch among those of all** are the ones it makes on its own. -/
theorem filter_emissions {R : Roster} (hnd : (R.map Prod.fst).Nodup) {key : Nat} {w : Watch}
    (hw : (key, w) ∈ R) (es : List Event) :
    (R.emissions es).filter (fun x => x.1 = key) = (w.records es).map (key, ·) := by
  induction es generalizing R w with
  | nil => rfl
  | cons e es ih =>
    have hpass : (key, if w.reports e then w.spend else w) ∈ R.pass e :=
      List.mem_map.mpr ⟨(key, w), hw, rfl⟩
    have hrest := ih (by rw [map_fst_pass]; exact hnd) hpass
    show (R.emit e ++ (R.pass e).emissions es).filter _ = _
    rw [List.filter_append, filter_emit hnd hw, hrest, Watch.records_cons]
    split
    · rfl
    · rfl

/-- A watch is spent by its own records only. -/
theorem after_emissions {R : Roster} (hnd : (R.map Prod.fst).Nodup) {key : Nat} {w : Watch}
    (hw : (key, w) ∈ R) (es : List Event) : w.after key (R.emissions es) = w.through es := by
  have hiff : key ∈ (R.emissions es).map Prod.fst ↔ ¬ w.records es = [] := by
    rw [← List.map_eq_nil_iff (f := (key, ·)), ← filter_emissions hnd hw, List.filter_eq_nil_iff,
      List.mem_map]
    simp
  unfold Watch.after Watch.through
  by_cases hnil : w.records es = []
  · rw [if_pos hnil, if_neg fun h => hiff.mp h hnil]
  · rw [if_neg hnil, if_pos (hiff.mpr hnil)]

end Roster

/-! ### Runs that do not block -/

namespace Collector

/-- The records a run adds to the buffer for the watch in slot `key`. -/
def depositsFor (host : Host σ) (c : Collector σ) (key : Nat) (wakeFd : Fd) (timeout : Timeout)
    (waits : Nat) (s : σ) : List Record :=
  ((c.deposits host wakeFd timeout waits s).filter fun x => x.1 = key).map Prod.snd

variable {c : Collector σ} {keys : List Nat} {wakeFd wokeFd : Fd} {waits : Nat} {s s₁ : σ}
  {o : Outcome σ Nat} {es : List Event} {n : Nat}

/-- An iteration that may end without a report, and goes well from its first wait on, is the delivery
    of this wait. -/
theorem collect_of_wait {emulated : Bool} {timeout : Timeout} (ht : timeout ≠ .block)
    {start : Duration} {limit : Option Duration} {d d' : Delivery} {s' : σ}
    (hw : host.wait limit s = (.ok es, s₁))
    (hc : collect host emulated timeout start waits limit d s = some (.ok (), d', s')) :
    collected host emulated timeout start waits limit d s = es ∧ d'.overflow = none := by
  cases waits with
  | zero => cases hc
  | succ waits =>
    unfold collect at hc
    unfold collected
    rw [hw] at hc ⊢
    dsimp only at hc ⊢
    rcases hd : deliver host emulated es d s₁ with ⟨e | u, d₁, s₂⟩
    · rw [hd] at hc
      cases hc
    · have hall : delivered host emulated es d s₁ = es := by
        apply delivered_eq
        intro err h
        rw [hd] at h
        cases h
      -- Only a run that blocks waits again.
      have hover : ¬ (timeout = .block ∧ d₁.buffer.isEmpty = true) := fun hb => ht hb.1
      rw [hd] at hc
      dsimp only at hc ⊢
      rw [if_neg hover] at hc ⊢
      cases hc
      exact ⟨by rw [hall, List.append_nil], deliver_overflow_eq hd⟩

/-- A run that does not block and goes well offers what its wait reports, and has room for what comes
    of it. -/
theorem offered_poll (hw : host.wait (some .zero) s = (.ok es, s₁))
    (ho : c.run host wakeFd wokeFd .poll waits s = some o) (ha : o.answer = .ok n) :
    c.offered host wakeFd .poll waits s = es ∧
      (es.foldl Delivery.fanOut c.fresh).result = .ok () := by
  rcases run_collected ho with ⟨hblock, -⟩ | ⟨s₀, s₂, answer, d, rfl, hc, rfl, hoff⟩
  · cases hblock
  · have hanswer : answer = .ok () := by
      cases answer with
      | error e => cases ha
      | ok u => rfl
    rw [hanswer] at hc
    have hfold := collect_collected hc
    have hlimit : host.wait Timeout.poll.limit s₀ = (.ok es, s₁) := hw
    obtain ⟨hall, hnone⟩ := collect_of_wait (by decide) hlimit hc
    rw [hall] at hfold
    refine ⟨hoff.trans hall, ?_⟩
    rw [← hfold]
    unfold Delivery.result
    rw [hnone]

/-- Such a run deposits all that the reference makes of what its wait reports. -/
theorem deposits_poll (he : c.registry.Enrolled keys)
    (hw : host.wait (some .zero) s = (.ok es, s₁))
    (ho : c.run host wakeFd wokeFd .poll waits s = some o) (ha : o.answer = .ok n) :
    c.deposits host wakeFd .poll waits s = (c.registry.roster keys).emissions es := by
  obtain ⟨hoffered, hresult⟩ := offered_poll hw ho ha
  rw [deposits_eq host he, hoffered]
  exact List.take_of_length_le ((result_fanOut_eq_ok_iff he es).mp hresult)

/-- **To a live watch such a run reports** what the watch makes of the events on its own. -/
theorem run_poll_watch (he : c.registry.Enrolled keys)
    (hw : host.wait (some .zero) s = (.ok es, s₁))
    (ho : c.run host wakeFd wokeFd .poll waits s = some o) (ha : o.answer = .ok n) {key : Nat}
    {w : Watch} (hwatch : c.registry.watch? key = some w) :
    c.depositsFor host key wakeFd .poll waits s = w.records es ∧
      o.collector.registry.watch? key = some (w.through es) := by
  have hdeposits := deposits_poll he hw ho ha
  have hmem : (key, w) ∈ c.registry.roster keys := he.mem_roster_iff.mpr hwatch
  have hnd := he.nodup_map_fst_roster
  constructor
  · unfold depositsFor
    rw [hdeposits, Roster.filter_emissions hnd hmem, List.map_map]
    exact List.map_id _
  · rw [watch?_run he ho, hwatch, hdeposits, Option.map_some, Roster.after_emissions hnd hmem]

end Collector

/-! ### Tenures -/

/-- What a run was told by its wait, and the records it deposited for a watch. -/
structure Round where
  /-- The events of the wait. -/
  answer : List Event
  /-- The records, oldest first. -/
  records : List Record
deriving DecidableEq, Inhabited

/-- A history in which a watch of `fd` was added under `token` and has not been removed since, with
    the rounds of the runs from there on.  Other watches may come and go, and the poller may refuse
    them.  The runs do not block, and their waits and the registrations on the way go well.  Before
    the addition anything may have happened. -/
inductive Tenure (host : Host σ) (fd : Fd) (mask : Mask) (token : Token) :
    List Round → Collector σ → σ → Prop where
  | add {acts : List (Action σ)} {c : Collector σ} {s : σ} (h : History host anything acts c s)
      (ht : (c.add host fd mask s).answer = .ok token) :
      Tenure host fd mask token [] (c.add host fd mask s).collector (c.add host fd mask s).state
  | operate {rounds : List Round} {a : Action σ} {c c' : Collector σ} {s s' : σ}
      (h : Tenure host fd mask token rounds c s) (hs : Step host a c s c' s') (ha : a.isRun = false)
      (hc : a.cancelled? ≠ some token) : Tenure host fd mask token rounds c' s'
  | run {rounds : List Round} {c : Collector σ} {s s₁ : σ} {wakeFd wokeFd : Fd} {waits : Nat}
      {o : Outcome σ Nat} {es : List Event} {n : Nat} (h : Tenure host fd mask token rounds c s)
      (hw : host.wait (some .zero) s = (.ok es, s₁))
      (ho : c.run host wakeFd wokeFd .poll waits s = some o) (ha : o.answer = .ok n) :
      Tenure host fd mask token
        (rounds ++ [⟨es, c.depositsFor host token.key wakeFd .poll waits s⟩]) o.collector o.state

namespace Tenure

variable {fd : Fd} {mask : Mask} {token : Token} {rounds : List Round} {c : Collector σ} {s : σ}

/-- A tenure is part of a history. -/
theorem exists_history (h : Tenure host fd mask token rounds c s) :
    ∃ acts, History host anything acts c s := by
  induction h with
  | add h _ => exact ⟨_, h.step (.add fd mask _ _) trivial⟩
  | operate _ hs _ _ ih =>
    obtain ⟨acts, h⟩ := ih
    exact ⟨_, h.step hs trivial⟩
  | run _ _ ho _ ih =>
    obtain ⟨acts, h⟩ := ih
    exact ⟨_, h.step (.run ho) trivial⟩

/-- **A tenure is the career of its watch**, whatever happened around it. -/
theorem records_eq_career (h : Tenure host fd mask token rounds c s) :
    rounds.map Round.records =
      (⟨fd, mask, token.version, true⟩ : Watch).career (rounds.map Round.answer) ∧
    c.registry.watch? token.key =
      some ((rounds.map Round.answer).foldl Watch.through ⟨fd, mask, token.version, true⟩) := by
  induction h with
  | @add acts c s h ht =>
    refine ⟨rfl, ?_⟩
    have hgrant : (Action.add fd mask (c.add host fd mask s).answer : Action σ).grant? =
        some ⟨token, fd, mask⟩ := by
      rw [ht]
      rfl
    exact (Step.add fd mask c s).watch?_of_grant hgrant
  | operate _ hs ha hc ih =>
    refine ⟨ih.1, hs.watch?_of_isRun_eq_false ha ih.2 ?_⟩
    rw [Watch.version_foldl_through]
    exact hc
  | run h hw ho ha ih =>
    obtain ⟨acts, hist⟩ := h.exists_history
    obtain ⟨hrecords, hwatch⟩ := Collector.run_poll_watch hist.enrolled hw ho ha ih.2
    rw [List.map_append, List.map_append, List.map_singleton, List.map_singleton,
      Watch.career_concat, List.foldl_concat, ih.1, hrecords]
    exact ⟨rfl, hwatch⟩

/-- **Watches do not interfere.**  Take a watch in two histories, of two collectors on two hosts,
    that was added for the same conditions of the same descriptor.  If the runs were told the same
    by the poller from then on, they deposited the same records for it, run by run. -/
theorem noninterference {host' : Host τ} {token' : Token} {rounds' : List Round} {c' : Collector τ}
    {s' : τ} (h : Tenure host fd mask token rounds c s)
    (h' : Tenure host' fd mask token' rounds' c' s')
    (hanswers : rounds.map Round.answer = rounds'.map Round.answer) :
    rounds.map Round.records = rounds'.map Round.records := by
  rw [h.records_eq_career.1, h'.records_eq_career.1, ← hanswers]
  exact Watch.career_version ⟨fd, mask, token'.version, true⟩ token.version _

end Tenure

open Scenario in
/-- A persistent reader of descriptor 5.  In the first history it is on its own.  In the second it
    comes behind a writer of the same descriptor; a watch of descriptor 6 is refused, and between the
    runs a one-shot reader of descriptor 5 is added and the writer removed. -/
theorem noninterference_shared :
    ∃ (rounds rounds' : List Round) (c c' : Collector World) (s s' : World),
      Tenure (World.host 0) 5 (.read ∪ .persist) ⟨0, 0⟩ rounds c s ∧
      Tenure (World.host 1) 5 (.read ∪ .persist) ⟨1, 1⟩ rounds' c' s' ∧
      c.registry.size = 1 ∧ c'.registry.size = 2 ∧
      rounds.map Round.records = [[⟨5, 2⟩], [⟨5, 2⟩]] ∧
      rounds'.map Round.records = [[⟨5, 2⟩], [⟨5, 2⟩]] := by
  have h₀ : History (World.host 0) anything [] _ _ :=
    .create (show Collector.create (World.host 0) (Buffer.ofCapacity 4) default
      { Session.scripted.world with
        pollers := .scripted
          { Poller.Script.empty with
            waits := [.events [⟨5, true, true, false, none⟩],
              .events [⟨5, true, false, false, none⟩]] } } = (.ok _, _) from rfl)
  have h₁ : Tenure (World.host 0) 5 (.read ∪ .persist) ⟨0, 0⟩ _ _ _ := .add h₀ rfl
  have h₂ := h₁.run rfl (show Collector.run _ _ 0 1 .poll 1 _ = some _ from rfl) rfl
  have h₃ := h₂.run rfl (show Collector.run _ _ 0 1 .poll 1 _ = some _ from rfl) rfl
  have h₀' : History (World.host 1) anything [] _ _ :=
    .create (show Collector.create (World.host 1) (Buffer.ofCapacity 4) default
      { Session.scripted.world with
        pollers := .scripted
          { Poller.Script.empty with
            failures := [0, 0, 28]
            waits := [.events [⟨5, true, true, false, none⟩],
              .events [⟨5, true, false, false, none⟩]] } } = (.ok _, _) from rfl)
  have h₁' := h₀'.step (.add 5 .write _ _) trivial
  have h₂' : Tenure (World.host 1) 5 (.read ∪ .persist) ⟨1, 1⟩ _ _ _ := .add h₁' rfl
  have h₃' := h₂'.operate (.add 6 .read _ _) rfl (by decide)
  have h₄' := h₃'.run rfl (show Collector.run _ _ 0 1 .poll 1 _ = some _ from rfl) rfl
  have h₅' := h₄'.operate (.add 5 .read _ _) rfl (by decide)
  have h₆' := h₅'.operate (.remove ⟨0, 0⟩ _ _) rfl (by decide)
  have h₇' := h₆'.run rfl (show Collector.run _ _ 0 1 .poll 1 _ = some _ from rfl) rfl
  have hrecords := h₃.noninterference h₇' rfl
  exact ⟨_, _, _, _, _, _, h₃, h₇', rfl, rfl, by decide, hrecords ▸ by decide⟩

end Readiness
