import Mathlib.Data.List.Perm.Subperm
import Readiness.Proofs.Roster

namespace Readiness.Roster

/-!
# What an earlier report leaves over

If no two events are about the same descriptor, then no event takes anything from another one, and
every watch reports at most once, whether it persists or not.  So it can be said what the same events
come to when some of the records were made before.

* `emissions_eq_flatMap` — the events emit independently of each other;
* `leftover` — the records that are left once some were made: those of the other watches, and of the
  watches that persist;
* `emissions_spent` — this is what the same events emit afterwards;
* `emissions_congr` — only what the armed watches ask for matters about an event;
* `count_take_append_leftover` — a watch that does not persist is recorded exactly once over both.
-/

variable {R : Roster} {es : List Event}

/-! ### Events of distinct descriptors -/

/-- An event does not change what another descriptor emits. -/
theorem emit_pass_of_ne (R : Roster) {e e' : Event} (h : e'.fd ≠ e.fd) :
    (R.pass e).emit e' = R.emit e' := by
  unfold pass
  induction R with
  | nil => rfl
  | cons x R ih =>
    rw [List.map_cons, emit_cons, emit_cons, ih]
    -- A watch that was spent is of the other descriptor.
    by_cases hr : x.2.reports e = true
    · have hfd : x.2.fd = e.fd := by
        unfold Watch.reports at hr
        simp only [Bool.and_eq_true, decide_eq_true_eq] at hr
        exact hr.1.1
      have hne : ∀ w : Watch, w.fd = e.fd → w.reports e' = false := by
        intro w hw
        unfold Watch.reports
        rw [decide_eq_false (fun heq => h (heq.symm.trans hw)), Bool.false_and, Bool.false_and]
      rw [if_pos hr, hne x.2.spend hfd, hne x.2 hfd]
      rfl
    · rw [if_neg hr]

/-- **Events of distinct descriptors emit independently of each other.** -/
theorem emissions_eq_flatMap (R : Roster) (hes : (es.map Event.fd).Nodup) :
    R.emissions es = es.flatMap R.emit := by
  induction es generalizing R with
  | nil => rfl
  | cons e es ih =>
    rw [List.map_cons, List.nodup_cons] at hes
    have hrest : es.flatMap (R.pass e).emit = es.flatMap R.emit := by
      apply List.flatMap_congr
      intro e' he'
      exact emit_pass_of_ne R fun heq => hes.1 (heq ▸ List.mem_map_of_mem he')
    show R.emit e ++ (R.pass e).emissions es = _
    rw [ih _ hes.2, hrest, List.flatMap_cons]

/-- Whatever a watch emits is for an event of its descriptor. -/
theorem exists_event_of_mem_map_emissions (hes : (es.map Event.fd).Nodup) {key : Nat}
    (hk : key ∈ (R.emissions es).map Prod.fst) :
    ∃ e ∈ es, ∃ w, (key, w) ∈ R ∧ w.reports e = true := by
  rw [emissions_eq_flatMap R hes] at hk
  obtain ⟨x, hx, rfl⟩ := List.mem_map.mp hk
  obtain ⟨e, he, hx⟩ := List.mem_flatMap.mp hx
  obtain ⟨w, hw⟩ := mem_map_emit_iff.mp (List.mem_map_of_mem hx)
  exact ⟨e, he, w, hw⟩

/-- A watch that reports an event emits. -/
theorem mem_map_emissions (hes : (es.map Event.fd).Nodup) {key : Nat} {w : Watch} {e : Event}
    (he : e ∈ es) (hw : (key, w) ∈ R) (hr : w.reports e = true) :
    key ∈ (R.emissions es).map Prod.fst := by
  obtain ⟨x, hx, rfl⟩ := List.mem_map.mp (mem_map_emit_iff.mpr ⟨w, hw, hr⟩)
  rw [emissions_eq_flatMap R hes]
  exact List.mem_map_of_mem (List.mem_flatMap.mpr ⟨e, he, hx⟩)

/-- No watch emits twice, not even one that persists. -/
theorem nodup_map_emissions (hnd : (R.map Prod.fst).Nodup) (hes : (es.map Event.fd).Nodup) :
    ((R.emissions es).map Prod.fst).Nodup := by
  induction es generalizing R with
  | nil => exact List.nodup_nil
  | cons e es ih =>
    rw [List.map_cons, List.nodup_cons] at hes
    show ((R.emit e ++ (R.pass e).emissions es).map Prod.fst).Nodup
    rw [List.map_append, List.nodup_append]
    refine ⟨nodup_map_emit hnd e, ih (by rw [map_fst_pass]; exact hnd) hes.2, ?_⟩
    rintro key hk key' hk' rfl
    -- The watch would be of the descriptors of two events.
    obtain ⟨w, hw, hr⟩ := mem_map_emit_iff.mp hk
    obtain ⟨e', he', w', hw', hr'⟩ := exists_event_of_mem_map_emissions hes.2 hk'
    obtain ⟨v, hv, rfl⟩ := exists_of_mem_pass hw'
    have hwv : (key, w) = (key, v) := List.inj_on_of_nodup_map hnd hw hv rfl
    cases hwv
    have hfd : w.fd = e.fd := by
      unfold Watch.reports at hr
      simp only [Bool.and_eq_true, decide_eq_true_eq] at hr
      exact hr.1.1
    have hfd' : w.fd = e'.fd := by
      rw [if_pos hr] at hr'
      unfold Watch.reports at hr'
      simp only [Bool.and_eq_true, decide_eq_true_eq] at hr'
      exact hr'.1.1
    exact hes.1 (hfd ▸ hfd' ▸ List.mem_map_of_mem he')

/-- There are no more records than watches. -/
theorem length_emissions_le (hnd : (R.map Prod.fst).Nodup) (hes : (es.map Event.fd).Nodup) :
    (R.emissions es).length ≤ R.length := by
  have hsub : (R.emissions es).map Prod.fst ⊆ R.map Prod.fst := by
    intro key hk
    obtain ⟨-, -, w, hw, -⟩ := exists_event_of_mem_map_emissions hes hk
    exact List.mem_map_of_mem hw
  have hle := (List.subperm_of_subset (nodup_map_emissions hnd hes) hsub).length_le
  rwa [List.length_map, List.length_map] at hle

/-! ### The same events once more -/

/-- The records of `F` that are left once `G` was made: a watch that does not persist makes no
    second one. -/
def leftover (persists : Nat → Bool) (G F : List (Nat × Record)) : List (Nat × Record) :=
  F.filter fun x => x.1 ∉ G.map Prod.fst || persists x.1

theorem mem_leftover_iff {persists : Nat → Bool} {G F : List (Nat × Record)} {x : Nat × Record} :
    x ∈ leftover persists G F ↔ x ∈ F ∧ (x.1 ∉ G.map Prod.fst ∨ persists x.1 = true) := by
  unfold leftover
  rw [List.mem_filter, Bool.or_eq_true, decide_eq_true_eq]

theorem leftover_append (persists : Nat → Bool) (G F F' : List (Nat × Record)) :
    leftover persists G (F ++ F') = leftover persists G F ++ leftover persists G F' :=
  List.filter_append _ _

/-- A watch that is spent by the records of `G` makes no second one, unless it persists. -/
theorem emit_after {persists : Nat → Bool} {key : Nat} {w : Watch}
    (hp : persists key = w.mask.isPersistent) (G : List (Nat × Record)) (e : Event) :
    emit [(key, w.after key G)] e = leftover persists G (emit [(key, w)] e) := by
  have hall : (key ∉ G.map Prod.fst ∨ persists key = true) →
      leftover persists G (emit [(key, w)] e) = emit [(key, w)] e := by
    intro hkeep
    apply List.filter_eq_self.mpr
    intro x hx
    obtain ⟨v, hv, -⟩ := mem_map_emit_iff.mp (List.mem_map_of_mem hx)
    rw [congrArg Prod.fst (List.mem_singleton.mp hv), Bool.or_eq_true, decide_eq_true_eq]
    exact hkeep
  unfold Watch.after
  by_cases hk : key ∈ G.map Prod.fst
  · rw [if_pos hk]
    cases hpers : w.mask.isPersistent with
    | true =>
      -- Spending a watch that persists does nothing.
      have hspend : w.spend = w := by
        unfold Watch.spend
        rw [hpers, Bool.and_true]
      rw [hspend, hall (Or.inr (hp.trans hpers))]
    | false =>
      have hdisarmed : w.spend.reports e = false := by
        unfold Watch.reports Watch.spend
        rw [hpers, Bool.and_false, Bool.and_false, Bool.false_and]
      rw [emit_cons, hdisarmed, eq_comm]
      apply List.filter_eq_nil_iff.mpr
      intro x hx
      obtain ⟨v, hv, -⟩ := mem_map_emit_iff.mp (List.mem_map_of_mem hx)
      rw [congrArg Prod.fst (List.mem_singleton.mp hv), hp, hpers, Bool.or_false,
        decide_eq_true_eq]
      exact not_not.mpr hk
  · rw [if_neg hk, hall (Or.inl hk)]

/-- After the records of `G`, an event emits what they left over. -/
theorem emit_spent {persists : Nat → Bool} (hp : ∀ x ∈ R, persists x.1 = x.2.mask.isPersistent)
    (G : List (Nat × Record)) (e : Event) :
    (R.spent G).emit e = leftover persists G (R.emit e) := by
  induction R with
  | nil => rfl
  | cons x R ih =>
    have hcons : emit (x :: R) e = emit [x] e ++ emit R e := by
      rw [emit_cons, emit_cons, emit_nil, List.append_nil]
    rw [hcons, leftover_append, emit_spent_cons, emit_after (hp x List.mem_cons_self),
      ih fun y hy => hp y (List.mem_cons_of_mem _ hy)]

/-- **After the records of `G`, the same events emit what these left over.**  Events that have
    nothing to report any more may be left out. -/
theorem emissions_spent {persists : Nat → Bool}
    (hp : ∀ x ∈ R, persists x.1 = x.2.mask.isPersistent) (G : List (Nat × Record))
    (hes : (es.map Event.fd).Nodup) (kept : Event → Bool)
    (hkept : ∀ e ∈ es, kept e = false → (R.spent G).emit e = []) :
    (R.spent G).emissions (es.filter kept) = leftover persists G (R.emissions es) := by
  have hfilter : ((es.filter kept).map Event.fd).Nodup :=
    hes.sublist (List.filter_sublist.map _)
  rw [emissions_eq_flatMap _ hfilter, emissions_eq_flatMap _ hes]
  clear hes hfilter
  induction es with
  | nil => rfl
  | cons e es ih =>
    have hrest := ih fun e' he' => hkept e' (List.mem_cons_of_mem _ he')
    rw [List.flatMap_cons, leftover_append, ← hrest, ← emit_spent hp G e]
    by_cases hk : kept e = true
    · rw [List.filter_cons_of_pos hk, List.flatMap_cons]
    · rw [List.filter_cons_of_neg hk, hkept e List.mem_cons_self (by simpa using hk)]
      rfl

/-- Only what the armed watches of its descriptor ask for matters about an event. -/
theorem emit_congr {e e' : Event} (hfd : e'.fd = e.fd)
    (hshare : ∀ x ∈ R, x.2.fd = e.fd → x.2.armed = true → x.2.share e' = x.2.share e) :
    R.emit e' = R.emit e := by
  induction R with
  | nil => rfl
  | cons x R ih =>
    rw [emit_cons, emit_cons, ih fun y hy => hshare y (List.mem_cons_of_mem _ hy)]
    congr 1
    unfold Watch.reports
    rw [hfd]
    by_cases hx : x.2.fd = e.fd ∧ x.2.armed = true
    · rw [hshare x List.mem_cons_self hx.1 hx.2]
    · rw [not_and_or] at hx
      rcases hx with hx | hx
      · rw [decide_eq_false hx, Bool.false_and, Bool.false_and, Bool.false_and]
        rfl
      · rw [Bool.eq_false_iff.mpr hx, Bool.and_false, Bool.false_and, Bool.false_and]
        rfl

/-- **A watch that does not persist is recorded exactly once** if its report is among those that
    were made first, or among those that are left over. -/
theorem count_take_append_leftover {persists : Nat → Bool} {F : List (Nat × Record)}
    (hF : (F.map Prod.fst).Nodup) (n : Nat) {key : Nat} (hp : persists key = false)
    (hk : key ∈ F.map Prod.fst) :
    ((F.take n ++ leftover persists (F.take n) F).map Prod.fst).count key = 1 := by
  have hcount : ∀ {G : List (Nat × Record)}, G.Sublist F →
      (G.map Prod.fst).count key = if key ∈ G.map Prod.fst then 1 else 0 := by
    intro G hG
    split
    · next hmem => exact List.count_eq_one_of_mem (hF.sublist (hG.map _)) hmem
    · next hmem => exact List.count_eq_zero_of_not_mem hmem
  have hleft : key ∈ (leftover persists (F.take n) F).map Prod.fst ↔
      key ∉ (F.take n).map Prod.fst := by
    constructor
    · intro hmem
      obtain ⟨x, hx, rfl⟩ := List.mem_map.mp hmem
      refine (mem_leftover_iff.mp hx).2.resolve_right ?_
      rw [hp]
      exact Bool.false_ne_true
    · intro hnot
      obtain ⟨x, hx, rfl⟩ := List.mem_map.mp hk
      exact List.mem_map_of_mem (mem_leftover_iff.mpr ⟨hx, Or.inl hnot⟩)
  have hsub : (leftover persists (F.take n) F).Sublist F := List.filter_sublist
  rw [List.map_append, List.count_append, hcount (List.take_sublist _ _), hcount hsub]
  by_cases hmem : key ∈ (F.take n).map Prod.fst
  · rw [if_pos hmem, if_neg (fun h => hleft.mp h hmem)]
  · rw [if_neg hmem, if_pos (hleft.mpr hmem)]

/-- What overflowed is left over. -/
theorem leftover_ne_nil {persists : Nat → Bool} {F : List (Nat × Record)}
    (hF : (F.map Prod.fst).Nodup) {n : Nat} (hn : n < F.length) :
    leftover persists (F.take n) F ≠ [] := by
  have hnot : (F[n]).1 ∉ (F.take n).map Prod.fst := by
    have hsplit : F.map Prod.fst =
        (F.take n).map Prod.fst ++ (F[n]).1 :: (F.drop (n + 1)).map Prod.fst := by
      rw [← List.map_cons, ← List.map_append, List.getElem_cons_drop, List.take_append_drop]
    rw [hsplit] at hF
    intro hmem
    exact (List.nodup_append.mp hF).2.2 _ hmem _ List.mem_cons_self rfl
  apply List.ne_nil_of_mem (a := F[n])
  exact mem_leftover_iff.mpr ⟨List.getElem_mem hn, Or.inl hnot⟩

end Readiness.Roster
