import Mathlib.Data.List.Nodup
import Readiness.Proofs.History

namespace Readiness

/-!
# The unbounded reference of an iteration

What an iteration should report can be said without slots, lists of keys, buffers or overflows.  The
reference goes through the events, for each event through all live watches in the order in which
they were added, and lets every armed watch of the descriptor that asked for a reported condition
make a record.

* `Roster` — the live watches in the order of addition;
* `Roster.emissions` — the records the reference makes, each with the key of its watch;
* `Roster.settle` — the watches with their armed flags when the reference is through.
  `Roster.settle_spent` says that these are the watches spent by the records;
* `History.roster` — the roster of a collector after a history.
-/

/-! ### The reference -/

/-- A watch that has made a record: disarmed unless it persists. -/
def Watch.spend (w : Watch) : Watch := { w with armed := w.armed && w.mask.isPersistent }

/-- The conditions an event has for a watch. -/
def Watch.share (w : Watch) (e : Event) : Mask :=
  e.mask ∩ w.mask ∩ (Mask.read ∪ Mask.write ∪ Mask.closed)

/-- Whether an event lets a watch make a record. -/
def Watch.reports (w : Watch) (e : Event) : Bool :=
  w.fd = e.fd && w.armed && !(w.share e).isEmpty

/-- Live watches with their keys, in the order in which they were added. -/
abbrev Roster := List (Nat × Watch)

namespace Roster

/-- The records of one event, each with the key of its watch. -/
def emit (R : Roster) (e : Event) : List (Nat × Record) :=
  (R.filter fun x => x.2.reports e).map fun x => (x.1, .ofMask e.fd (x.2.share e))

/-- The watches after one event. -/
def pass (R : Roster) (e : Event) : Roster :=
  R.map fun x => (x.1, if x.2.reports e then x.2.spend else x.2)

/-- The records of a list of events, each with the key of its watch. -/
def emissions : Roster → List Event → List (Nat × Record)
  | _, [] => []
  | R, e :: es => R.emit e ++ emissions (R.pass e) es

/-- The watches after a list of events. -/
def settle (R : Roster) (es : List Event) : Roster := es.foldl pass R

end Roster

/-! ### Watches that have made records -/

/-- A watch under `key` after the records `F` were made. -/
def Watch.after (w : Watch) (key : Nat) (F : List (Nat × Record)) : Watch :=
  if key ∈ F.map Prod.fst then w.spend else w

namespace Watch

@[simp] theorem spend_spend (w : Watch) : w.spend.spend = w.spend := by
  unfold spend
  simp

/-- A watch that persists is not spent. -/
theorem spend_of_isPersistent {w : Watch} (hp : w.mask.isPersistent = true) : w.spend = w := by
  unfold spend
  rw [hp, Bool.and_true]

@[simp] theorem fd_after (w : Watch) (key : Nat) (F : List (Nat × Record)) :
    (w.after key F).fd = w.fd := by
  unfold after
  split <;> rfl

@[simp] theorem after_nil (w : Watch) (key : Nat) : w.after key [] = w := rfl

/-- Records of other watches do not show. -/
theorem after_append_of_notMem (w : Watch) {key : Nat} (F : List (Nat × Record))
    {G : List (Nat × Record)} (hk : key ∉ G.map Prod.fst) :
    w.after key (F ++ G) = w.after key F := by
  have hiff : key ∈ (F ++ G).map Prod.fst ↔ key ∈ F.map Prod.fst := by
    rw [List.map_append, List.mem_append, or_iff_left hk]
  unfold after
  simp only [hiff]

/-- A record of a watch spends it. -/
theorem after_append_of_mem (w : Watch) {key : Nat} (F : List (Nat × Record))
    {G : List (Nat × Record)} (hk : key ∈ G.map Prod.fst) :
    w.after key (F ++ G) = (w.after key F).spend := by
  have hmem : key ∈ (F ++ G).map Prod.fst := by
    rw [List.map_append]
    exact List.mem_append_right _ hk
  unfold after
  rw [if_pos hmem]
  by_cases hF : key ∈ F.map Prod.fst
  · rw [if_pos hF, spend_spend]
  · rw [if_neg hF]

/-- A delivery offers a watch the conditions that the reference gives it. -/
theorem share_eq (w : Watch) (e : Event) : w.share e = e.mask ∩ w.mask.conditions := by
  show (⟨e.mask.bits &&& w.mask.bits &&& _⟩ : Mask) = ⟨e.mask.bits &&& (w.mask.bits &&& _)⟩
  rw [UInt16.and_assoc]

/-- An armed watch for reading reports that its descriptor is readable. -/
theorem reports_of_readable {w : Watch} {e : Event} (hfd : w.fd = e.fd) (ha : w.armed = true)
    (hr : w.mask.contains .read = true) (he : e.readable = true) : w.reports e = true := by
  have hmask : e.mask.contains .read = true := by
    rw [e.contains_mask.1, he, Bool.true_or]
  have hshare : (w.share e).contains .read = true := by
    unfold share
    rw [Mask.isFlag_read.contains_inter, Mask.isFlag_read.contains_inter, hmask, hr]
    decide
  have hne : (w.share e).isEmpty = false := by
    by_contra h
    rw [Bool.not_eq_false] at h
    rw [show w.share e = ∅ from of_decide_eq_true h, Mask.isFlag_read.contains_empty] at hshare
    cases hshare
  unfold reports
  rw [decide_eq_true hfd, ha, hne]
  rfl

end Watch

namespace Roster

/-- The roster after the records `F` were made. -/
def spent (R : Roster) (F : List (Nat × Record)) : Roster :=
  R.map fun x => (x.1, x.2.after x.1 F)

@[simp] theorem spent_nil (R : Roster) : R.spent [] = R := by
  unfold spent
  simp

@[simp] theorem emit_nil (e : Event) : emit [] e = [] := rfl

/-- The watches emit one after the other. -/
theorem emit_cons (x : Nat × Watch) (R : Roster) (e : Event) :
    emit (x :: R) e =
      (if x.2.reports e then [(x.1, .ofMask e.fd (x.2.share e))] else []) ++ emit R e := by
  unfold emit
  by_cases hr : x.2.reports e = true
  · rw [List.filter_cons, if_pos hr, if_pos hr]
    rfl
  · rw [List.filter_cons, if_neg hr, if_neg hr]
    rfl

/-- A key emits only if it is on the roster, with a watch that reports. -/
theorem mem_map_emit_iff {R : Roster} {e : Event} {key : Nat} :
    key ∈ (R.emit e).map Prod.fst ↔ ∃ w, (key, w) ∈ R ∧ w.reports e = true := by
  unfold emit
  rw [List.map_map]
  constructor
  · intro h
    obtain ⟨⟨k, w⟩, hx, rfl⟩ := List.mem_map.mp h
    exact ⟨w, List.mem_filter.mp hx⟩
  · rintro ⟨w, hx⟩
    exact List.mem_map.mpr ⟨(key, w), List.mem_filter.mpr hx, rfl⟩

/-- Records of a watch do not show on the others. -/
theorem spent_append_emit {R : Roster} {key : Nat} (hk : key ∉ R.map Prod.fst)
    (F : List (Nat × Record)) (w : Watch) (e : Event) :
    R.spent (F ++ emit [(key, w)] e) = R.spent F := by
  apply List.map_congr_left
  intro y hy
  have hne : y.1 ≠ key := fun hyk => hk (hyk ▸ List.mem_map_of_mem hy)
  rw [Watch.after_append_of_notMem]
  rw [mem_map_emit_iff]
  rintro ⟨v, hmem, -⟩
  rw [List.mem_singleton, Prod.mk.injEq] at hmem
  exact hne hmem.1

/-- The first watch emits before the others. -/
theorem emit_spent_cons (x : Nat × Watch) (R : Roster) (F : List (Nat × Record)) (e : Event) :
    (spent (x :: R) F).emit e = emit [(x.1, x.2.after x.1 F)] e ++ (R.spent F).emit e := by
  show emit ((x.1, x.2.after x.1 F) :: R.spent F) e = _
  rw [emit_cons, emit_cons, emit_nil, List.append_nil]

/-- Passing an event spends the watches that make a record. -/
theorem pass_spent {R : Roster} (hnd : (R.map Prod.fst).Nodup) (F : List (Nat × Record))
    (e : Event) : (R.spent F).pass e = R.spent (F ++ (R.spent F).emit e) := by
  show List.map _ (List.map _ R) = List.map _ R
  rw [List.map_map]
  apply List.map_congr_left
  intro x hx
  have hmem : (x.1, x.2.after x.1 F) ∈ R.spent F := List.mem_map.mpr ⟨x, hx, rfl⟩
  show (x.1, if (x.2.after x.1 F).reports e then (x.2.after x.1 F).spend else x.2.after x.1 F) =
    (x.1, x.2.after x.1 (F ++ (R.spent F).emit e))
  by_cases hr : (x.2.after x.1 F).reports e = true
  · -- A watch that reports is among the new records.
    rw [if_pos hr, Watch.after_append_of_mem _ _ (mem_map_emit_iff.mpr ⟨_, hmem, hr⟩)]
  · rw [if_neg hr, Watch.after_append_of_notMem]
    intro hk
    -- Under this key the roster holds this one watch.
    obtain ⟨w, hw, hrw⟩ := mem_map_emit_iff.mp hk
    obtain ⟨y, hy, heq⟩ := List.mem_map.mp hw
    rw [Prod.mk.injEq] at heq
    have hyx : y = x := List.inj_on_of_nodup_map hnd hy hx heq.1
    rw [hyx] at heq
    exact hr (heq.2 ▸ hrw)

/-- Only watches of the descriptor of an event emit. -/
theorem emit_filter_fd (R : Roster) (F : List (Nat × Record)) (e : Event) :
    (Roster.spent (R.filter fun x => x.2.fd = e.fd) F).emit e = (R.spent F).emit e := by
  induction R with
  | nil => rfl
  | cons x R ih =>
    have hright : (Roster.spent (x :: R) F).emit e =
        (if (x.2.after x.1 F).reports e
          then [(x.1, .ofMask e.fd ((x.2.after x.1 F).share e))] else []) ++
        (Roster.spent R F).emit e := emit_cons _ _ _
    rw [hright, ← ih]
    by_cases hfd : x.2.fd = e.fd
    · rw [List.filter_cons_of_pos (by simpa using hfd)]
      exact emit_cons _ _ _
    · have hr : (x.2.after x.1 F).reports e = false := by
        unfold Watch.reports
        rw [Watch.fd_after, decide_eq_false hfd, Bool.false_and, Bool.false_and]
      rw [List.filter_cons_of_neg (by simpa using hfd), hr]
      rfl

/-- **The reference in closed form.**  The watches are spent that have made a record. -/
theorem settle_spent {R : Roster} (hnd : (R.map Prod.fst).Nodup) (es : List Event)
    (F : List (Nat × Record)) :
    (R.spent F).settle es = R.spent (F ++ (R.spent F).emissions es) := by
  induction es generalizing F with
  | nil =>
    show R.spent F = R.spent (F ++ [])
    rw [List.append_nil]
  | cons e es ih =>
    show ((R.spent F).pass e).settle es =
      R.spent (F ++ ((R.spent F).emit e ++ emissions ((R.spent F).pass e) es))
    rw [pass_spent hnd, ih, List.append_assoc]

/-- The reference goes through the events one after the other. -/
theorem emissions_append (R : Roster) (es es' : List Event) :
    R.emissions (es ++ es') = R.emissions es ++ (R.settle es).emissions es' := by
  induction es generalizing R with
  | nil => rfl
  | cons e es ih =>
    show R.emit e ++ (R.pass e).emissions (es ++ es') = R.emit e ++ (R.pass e).emissions es ++ _
    rw [ih, List.append_assoc]
    rfl

/-- An event does not change which watches there are. -/
@[simp] theorem map_fst_pass (R : Roster) (e : Event) :
    (R.pass e).map Prod.fst = R.map Prod.fst := by
  unfold pass
  rw [List.map_map]
  rfl

/-- A watch that an event passed was there before, and is the same but for being spent. -/
theorem exists_of_mem_pass {R : Roster} {e : Event} {key : Nat} {w : Watch}
    (hw : (key, w) ∈ R.pass e) :
    ∃ v, (key, v) ∈ R ∧ w = if v.reports e then v.spend else v := by
  obtain ⟨⟨k, v⟩, hv, heq⟩ := List.mem_map.mp hw
  cases heq
  exact ⟨v, hv, rfl⟩

/-- Only watches that were armed make records, and only for their descriptor. -/
theorem exists_watch_of_mem_emissions {R : Roster} (es : List Event) {x : Nat × Record}
    (hx : x ∈ R.emissions es) : ∃ w, (x.1, w) ∈ R ∧ w.armed = true ∧ w.fd = x.2.fd := by
  induction es generalizing R with
  | nil => cases hx
  | cons e es ih =>
    rcases List.mem_append.mp hx with hx | hx
    · obtain ⟨⟨key, w⟩, hw, rfl⟩ := List.mem_map.mp hx
      obtain ⟨hw, hr⟩ := List.mem_filter.mp hw
      unfold Watch.reports at hr
      simp only [Bool.and_eq_true, decide_eq_true_eq] at hr
      exact ⟨w, hw, hr.1.2, hr.1.1⟩
    · -- It was armed after the first event, so it was before.
      obtain ⟨w, hw, ha, hfd⟩ := ih hx
      obtain ⟨v, hv, rfl⟩ := exists_of_mem_pass hw
      refine ⟨v, hv, ?_⟩
      by_cases hr : v.reports e = true
      · rw [if_pos hr] at ha hfd
        unfold Watch.spend at ha
        exact ⟨(Bool.and_eq_true_iff.mp ha).1, hfd⟩
      · rw [if_neg hr] at ha hfd
        exact ⟨ha, hfd⟩

/-- Only watches that were armed make records. -/
theorem exists_armed_of_mem_emissions {R : Roster} (es : List Event) {x : Nat × Record}
    (hx : x ∈ R.emissions es) : ∃ w, (x.1, w) ∈ R ∧ w.armed = true := by
  obtain ⟨w, hw, ha, -⟩ := exists_watch_of_mem_emissions es hx
  exact ⟨w, hw, ha⟩

/-- A watch that persists makes a record for every event that it reports. -/
theorem exists_mem_emissions {R : Roster} {key : Nat} {w : Watch} (hw : (key, w) ∈ R)
    (hp : w.mask.isPersistent = true) {es : List Event} {e : Event} (he : e ∈ es)
    (hr : w.reports e = true) : ∃ x ∈ R.emissions es, x.1 = key ∧ x.2.fd = e.fd := by
  induction es generalizing R with
  | nil => cases he
  | cons e' es ih =>
    rcases List.mem_cons.mp he with rfl | he
    · refine ⟨(key, .ofMask e.fd (w.share e)), List.mem_append_left _ ?_, rfl, rfl⟩
      exact List.mem_map.mpr ⟨(key, w), List.mem_filter.mpr ⟨hw, hr⟩, rfl⟩
    · -- The earlier event has left the watch as it was.
      have hw' : (key, w) ∈ R.pass e' := by
        refine List.mem_map.mpr ⟨(key, w), hw, ?_⟩
        rw [Watch.spend_of_isPersistent hp, ite_self]
      obtain ⟨x, hx, hxe⟩ := ih hw' he
      exact ⟨x, List.mem_append_right _ hx, hxe⟩

/-- An event lets every watch make one record at most. -/
theorem nodup_map_emit {R : Roster} (hnd : (R.map Prod.fst).Nodup) (e : Event) :
    ((R.emit e).map Prod.fst).Nodup := by
  unfold emit
  rw [List.map_map]
  exact hnd.sublist (List.filter_sublist.map _)

/-- **A watch that does not persist makes one record at most**, however many events there are. -/
theorem count_emissions_le_one {R : Roster} (hnd : (R.map Prod.fst).Nodup) {key : Nat}
    (hp : ∀ w, (key, w) ∈ R → w.mask.isPersistent = false) (es : List Event) :
    ((R.emissions es).map Prod.fst).count key ≤ 1 := by
  induction es generalizing R with
  | nil => exact Nat.zero_le 1
  | cons e es ih =>
    have hfirst : ((R.emit e).map Prod.fst).count key ≤ 1 :=
      List.nodup_iff_count_le_one.mp (nodup_map_emit hnd e) key
    have hp' : ∀ w, (key, w) ∈ R.pass e → w.mask.isPersistent = false := by
      intro w hw
      obtain ⟨v, hv, rfl⟩ := exists_of_mem_pass hw
      have hpv := hp v hv
      split <;> exact hpv
    show ((R.emit e ++ emissions (R.pass e) es).map Prod.fst).count key ≤ 1
    rw [List.map_append, List.count_append]
    by_cases hk : key ∈ (R.emit e).map Prod.fst
    · -- The record of this event has disarmed the watch.
      have hrest : key ∉ (emissions (R.pass e) es).map Prod.fst := by
        intro hk'
        obtain ⟨x, hx, rfl⟩ := List.mem_map.mp hk'
        obtain ⟨w, hw, ha⟩ := exists_armed_of_mem_emissions es hx
        obtain ⟨v, hv, rfl⟩ := exists_of_mem_pass hw
        obtain ⟨u, hu, hr⟩ := mem_map_emit_iff.mp hk
        have huv : (x.1, u) = (x.1, v) := List.inj_on_of_nodup_map hnd hu hv rfl
        cases huv
        rw [if_pos hr] at ha
        unfold Watch.spend at ha
        rw [hp _ hv, Bool.and_false] at ha
        cases ha
      rw [List.count_eq_zero_of_not_mem hrest]
      exact hfirst
    · rw [List.count_eq_zero_of_not_mem hk, Nat.zero_add]
      exact ih (by rw [map_fst_pass]; exact hnd) hp'

end Roster

/-! ### The roster of a registry -/

/-- The watches of a registry under these keys. -/
def Registry.roster (r : Registry) (keys : List Nat) : Roster :=
  keys.filterMap fun key => (r.watch? key).map fun w => (key, w)

namespace Registry.Enrolled

variable {r : Registry} {keys : List Nat}

/-- The roster holds exactly the live watches. -/
theorem mem_roster_iff (h : r.Enrolled keys) {x : Nat × Watch} :
    x ∈ r.roster keys ↔ r.watch? x.1 = some x.2 := by
  unfold roster
  rw [List.mem_filterMap]
  constructor
  · rintro ⟨key, -, hx⟩
    obtain ⟨w, hw, rfl⟩ := Option.map_eq_some_iff.mp hx
    exact hw
  · intro hw
    exact ⟨x.1, (h.mem_iff x.1).mpr (by simp [hw]), by rw [hw]; rfl⟩

/-- The keys of the roster are the roll. -/
theorem map_fst_roster (h : r.Enrolled keys) : (r.roster keys).map Prod.fst = keys := by
  unfold roster
  rw [List.map_filterMap]
  have hsome : ∀ key ∈ keys,
      ((r.watch? key).map fun w => (key, w)).map Prod.fst = some key := by
    intro key hk
    obtain ⟨w, hw⟩ := Option.isSome_iff_exists.mp ((h.mem_iff key).mp hk)
    rw [hw]
    rfl
  rw [List.filterMap_congr hsome, List.filterMap_some]

/-- No key is on the roster twice. -/
theorem nodup_map_fst_roster (h : r.Enrolled keys) : ((r.roster keys).map Prod.fst).Nodup := by
  rw [h.map_fst_roster]
  exact h.nodup

/-- The watches of a descriptor, in the order of the roster. -/
theorem map_fst_filter_roster (h : r.Enrolled keys) (fd : Fd) :
    ((r.roster keys).filter fun x => x.2.fd = fd).map Prod.fst = r.chain fd := by
  have hon : ∀ x ∈ r.roster keys, decide (x.2.fd = fd) = r.isOn fd x.1 := by
    intro x hx
    unfold isOn
    rw [h.mem_roster_iff.mp hx]
    rfl
  have hmap : ((r.roster keys).map Prod.fst).filter (r.isOn fd) =
      ((r.roster keys).filter (r.isOn fd ∘ Prod.fst)).map Prod.fst := List.filter_map
  rw [h.map_fst_roster] at hmap
  rw [h.chain_eq, hmap, List.filter_congr hon]
  rfl

end Registry.Enrolled

/-- If the watches are spent by the records `G`, so is the roster. -/
theorem Registry.roster_eq_spent {r r' : Registry} {G : List (Nat × Record)}
    (h : ∀ key, r'.watch? key = (r.watch? key).map fun w => w.after key G) (keys : List Nat) :
    r'.roster keys = (r.roster keys).spent G := by
  unfold roster Roster.spent
  rw [List.map_filterMap]
  congr 1
  funext key
  rw [h, Option.map_map, Option.map_map]
  rfl

/-- The live watches after a history, in the order in which its actions added them. -/
def History.roster {σ : Type} (acts : List (Action σ)) (c : Collector σ) : Roster :=
  c.registry.roster (roll acts)

end Readiness
