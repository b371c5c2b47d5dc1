import Readiness.Poller.Table
import Readiness.Proofs.Trace

namespace Readiness

/-!
# A poller as its exchanges show it

Nothing is known of the poller of a host but what it was told and what it answered.  From this alone
follows what it should hold: a table of registrations that are enabled or not.

* `Poller.Table.observe` — the table after an exchange.  An accepted call changes the entry of its
  descriptor, a refused one changes nothing, and a one-shot entry that was reported is disabled;
* `Traced.table` — the table after all exchanges of a trace;
* `Poller.Table.Each P` — what `P` says of a descriptor and its entry holds of all entries;
* `Traced.Along P` — what `P` says of an exchange and of the table before it holds all along a trace;
* `Traced.Faithful` — all that is asked of the poller: along the trace, a wait reports enabled
  entries, each at most once.
-/

namespace Poller.Table

/-! ### Exchanges -/

/-- The table once the entries that these events are about have reported. -/
def report (t : Table) (es : List Event) : Table :=
  t.mapValues fun _ entry =>
    if entry.registration.key ∈ es.map Event.key then entry.acknowledge else entry

/-- The table after an exchange. -/
def observe (t : Table) : Exchange → Table
  | .add fd r (.ok ()) => t.register fd r
  | .modify fd r (.ok ()) => t.register fd r
  | .delete fd (.ok ()) => t.unregister fd
  | .wait _ (.ok es) => t.report es
  | _ => t

/-- An aside concerns no entry. -/
theorem observe_of_isAside (t : Table) {x : Exchange} (hx : x.isAside = true) : t.observe x = t := by
  rcases Exchange.of_isAside hx with ⟨fd, bytes, rfl⟩ | ⟨wakeFd, calledOff, rfl⟩ | rfl
  · rfl
  · rfl
  · rfl

/-- A wait reports enabled entries, each at most once. -/
def Allows (t : Table) : Exchange → Prop
  | .wait _ (.ok es) =>
    (es.map Event.key).Nodup ∧
      ∀ e ∈ es, ∃ x ∈ t.entries, x.2.enabled = true ∧ x.2.registration.key = e.key
  | _ => True

instance (t : Table) : (x : Exchange) → Decidable (t.Allows x)
  | .wait _ (.ok _) => inferInstanceAs (Decidable (_ ∧ _))
  | .wait _ (.error _) => .isTrue trivial
  | .add _ _ _ => .isTrue trivial
  | .modify _ _ _ => .isTrue trivial
  | .delete _ _ => .isTrue trivial
  | .drain _ _ => .isTrue trivial
  | .prepare _ _ => .isTrue trivial
  | .finished => .isTrue trivial

/-- Each of these exchanges, which start from `t`, stands to the table before it as `P` says. -/
def Along (P : Table → Exchange → Prop) (t : Table) : List Exchange → Prop
  | [] => True
  | x :: xs => P t x ∧ Along P (t.observe x) xs

instance decidableAlong (P : Table → Exchange → Prop) [∀ t x, Decidable (P t x)] :
    (t : Table) → (xs : List Exchange) → Decidable (t.Along P xs)
  | _, [] => .isTrue trivial
  | t, x :: xs =>
    have := decidableAlong P (t.observe x) xs
    inferInstanceAs (Decidable (_ ∧ _))

/-- `P` holds along exchanges exactly if it holds along their first part, and along what comes then
    from there on. -/
theorem along_append {P : Table → Exchange → Prop} {t : Table} {xs ys : List Exchange} :
    t.Along P (xs ++ ys) ↔ t.Along P xs ∧ (xs.foldl observe t).Along P ys := by
  induction xs generalizing t with
  | nil =>
    show t.Along P ys ↔ True ∧ t.Along P ys
    rw [true_and]
  | cons x xs ih =>
    show P t x ∧ Along P (t.observe x) (xs ++ ys) ↔ _
    rw [ih, ← and_assoc]
    rfl

/-! ### Effect on look-ups -/

/-- A registration is found under its descriptor, enabled. -/
theorem find?_register (t : Table) (fd fd' : Fd) (r : Registration) :
    (t.register fd r).find? fd' = if fd' = fd then some ⟨r, true⟩ else t.find? fd' := by
  by_cases h : fd' = fd
  · rw [if_pos h, h]
    exact OrderedMap.find?_insert_self _ _ _
  · rw [if_neg h]
    exact OrderedMap.find?_insert_of_ne _ _ h

/-- An entry that was dropped is not found any more. -/
theorem find?_unregister (t : Table) (fd fd' : Fd) :
    (t.unregister fd).find? fd' = if fd' = fd then none else t.find? fd' := by
  by_cases h : fd' = fd
  · rw [if_pos h, h]
    exact OrderedMap.find?_erase_self _ _
  · rw [if_neg h]
    exact OrderedMap.find?_erase_of_ne _ h

/-- Reporting keeps the entries, and acknowledges those that were reported. -/
theorem find?_report (t : Table) (es : List Event) (fd : Fd) :
    (t.report es).find? fd = (t.find? fd).map fun entry =>
      if entry.registration.key ∈ es.map Event.key then entry.acknowledge else entry :=
  OrderedMap.find?_mapValues _ _ _

/-- `P` holds of every entry and its descriptor. -/
def Each (t : Table) (P : Fd → Entry → Prop) : Prop :=
  ∀ fd entry, t.find? fd = some entry → P fd entry

namespace Each

variable {t : Table} {P : Fd → Entry → Prop}

theorem empty (P : Fd → Entry → Prop) : Each ∅ P := fun _ _ hf => by cases hf

theorem register (h : t.Each P) {fd : Fd} {r : Registration} (hr : P fd ⟨r, true⟩) :
    (t.register fd r).Each P := by
  intro fd' entry hf
  rw [find?_register] at hf
  split at hf
  · next hfd =>
    cases hf
    exact hfd ▸ hr
  · exact h fd' entry hf

theorem unregister (h : t.Each P) (fd : Fd) : (t.unregister fd).Each P := by
  intro fd' entry hf
  rw [find?_unregister] at hf
  split at hf
  · cases hf
  · exact h fd' entry hf

theorem report (h : t.Each P) (es : List Event)
    (hack : ∀ {fd entry}, P fd entry → P fd entry.acknowledge) : (t.report es).Each P := by
  intro fd entry hf
  rw [find?_report] at hf
  obtain ⟨entry', hf', rfl⟩ := Option.map_eq_some_iff.mp hf
  split
  · exact hack (h fd entry' hf')
  · exact h fd entry' hf'

end Each

end Poller.Table

namespace Traced

variable {σ : Type}

/-! ### Traces -/

/-- The poller behind a host, as its exchanges so far show it. -/
def table (t : Traced σ) : Poller.Table := t.trace.foldl Poller.Table.observe ∅

/-- The table follows the trace. -/
theorem table_append {t t' : Traced σ} {x : Exchange} (ht : t'.trace = t.trace ++ [x]) :
    t'.table = t.table.observe x := by
  unfold table
  rw [ht, List.foldl_append]
  rfl

/-- Asides leave the table as it is. -/
theorem Aside.table_eq {t t' : Traced σ} (h : t.Aside t') : t'.table = t.table := by
  obtain ⟨xs, ht, hx⟩ := h
  unfold table
  rw [ht, List.foldl_append]
  refine List.foldlRecOn (motive := fun table => table = t.table) xs _ rfl ?_
  rintro table heq x hmem
  rw [Poller.Table.observe_of_isAside table (hx x hmem)]
  exact heq

/-- `P` holds between every exchange so far and the table before it. -/
def Along (P : Poller.Table → Exchange → Prop) (t : Traced σ) : Prop :=
  Poller.Table.Along P ∅ t.trace

instance (P : Poller.Table → Exchange → Prop) [∀ table x, Decidable (P table x)] (t : Traced σ) :
    Decidable (t.Along P) :=
  inferInstanceAs (Decidable (Poller.Table.Along P ∅ t.trace))

namespace Along

variable {P : Poller.Table → Exchange → Prop} {t t' : Traced σ} {x : Exchange}

/-- What holds along a trace held at every point of it. -/
theorem mono (h : t'.Along P) (hp : t.trace <+: t'.trace) : t.Along P := by
  obtain ⟨xs, hxs⟩ := hp
  unfold Along at h
  rw [← hxs, Poller.Table.along_append] at h
  exact h.1

/-- It holds of an exchange that was just written down. -/
theorem last (h : t'.Along P) (ht : t'.trace = t.trace ++ [x]) : P t.table x := by
  unfold Along at h
  rw [ht, Poller.Table.along_append] at h
  exact h.2.1

/-- It goes on holding if it holds of the exchange that is written down. -/
theorem append (h : t.Along P) (ht : t'.trace = t.trace ++ [x]) (hx : P t.table x) :
    t'.Along P := by
  unfold Along
  rw [ht, Poller.Table.along_append]
  exact ⟨h, hx, trivial⟩

/-- An aside that `P` says nothing of changes nothing. -/
theorem aside (h : t.Along P) (ha : t.Aside t')
    (hP : ∀ table x, x.isAside = true → P table x) : t'.Along P := by
  obtain ⟨xs, ht, hx⟩ := ha
  unfold Along
  rw [ht, Poller.Table.along_append]
  refine ⟨h, ?_⟩
  generalize t.trace.foldl Poller.Table.observe ∅ = table
  clear ht
  induction xs generalizing table with
  | nil => trivial
  | cons x xs ih =>
    exact ⟨hP table x (hx x List.mem_cons_self), ih (fun y hy => hx y (List.mem_cons_of_mem _ hy)) _⟩

end Along

/-! ### Faithful pollers -/

/-- So far the poller has reported enabled entries, each at most once in a wait. -/
def Faithful (t : Traced σ) : Prop := t.Along Poller.Table.Allows

instance (t : Traced σ) : Decidable t.Faithful :=
  inferInstanceAs (Decidable (t.Along Poller.Table.Allows))

/-- A trace was faithful at every point of it. -/
theorem Faithful.mono {t t' : Traced σ} (h : t'.Faithful) (hp : t.trace <+: t'.trace) :
    t.Faithful :=
  Along.mono h hp

/-- An exchange that was just written down was allowed. -/
theorem Faithful.last {t t' : Traced σ} {x : Exchange} (h : t'.Faithful)
    (ht : t'.trace = t.trace ++ [x]) : t.table.Allows x :=
  Along.last h ht

end Traced

end Readiness
