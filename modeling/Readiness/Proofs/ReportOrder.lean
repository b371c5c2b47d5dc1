import Readiness.Proofs.FanOut
import Readiness.Proofs.Poller.View
import Readiness.Proofs.Registry.Armed
import Readiness.Proofs.Roster.Leftover

namespace Readiness

/-!
# The order in which a poller reports

A delivery goes through its events one by one, and each of them may write to the registry, to the
buffer and to the poller.  As long as no two events are about the same descriptor, their order is of
no consequence but for the order of what is written.

* `Registry.SameFrame` — registries that differ at most in their watches, and are equal if these
  are;
* `Delivery.call?` — the registration an event gives rise to.  It can be read off the registries
  before and after all events (`Collector.Delivers.trace_eq`);
* `Poller.Table.find?_foldl_modified` — what accepted registrations of distinct descriptors leave
  in the table;
* `Collector.SameUpToOrder` — two deliveries come to the same, but for the order of the records and
  of the calls;
* `History.order_irrelevant` — the deliveries of a list of events and of any permutation of it.
-/

variable {σ : Type} {host : Host σ}

/-! ### Registries -/

namespace Registry

/-- `r'` has the slots and the lists of `r`.  The watches may be others. -/
structure SameFrame (r r' : Registry) : Prop where
  chains_eq : r'.chains = r.chains
  nextVersion_eq : r'.nextVersion = r.nextVersion
  vacant_eq : r'.slots.vacant = r.slots.vacant
  length_eq : r'.slots.cells.length = r.slots.cells.length

namespace SameFrame

variable {r r' r'' : Registry}

theorem refl (r : Registry) : r.SameFrame r := ⟨rfl, rfl, rfl, rfl⟩

theorem trans (h : r.SameFrame r') (h' : r'.SameFrame r'') : r.SameFrame r'' where
  chains_eq := h'.chains_eq.trans h.chains_eq
  nextVersion_eq := h'.nextVersion_eq.trans h.nextVersion_eq
  vacant_eq := h'.vacant_eq.trans h.vacant_eq
  length_eq := h'.length_eq.trans h.length_eq

theorem setArmed (r : Registry) (key : Nat) (armed : Bool) : r.SameFrame (r.setArmed key armed) where
  chains_eq := rfl
  nextVersion_eq := rfl
  vacant_eq := rfl
  length_eq := List.length_modify _ _ _

/-- With the same watches they are the same registry. -/
theorem eq_of_watch?_eq (h : r.SameFrame r') (h' : r.SameFrame r'')
    (hwatch : ∀ key, r'.watch? key = r''.watch? key) : r' = r'' := by
  have hslots : r'.slots = r''.slots := Slots.ext_get? (h.vacant_eq.trans h'.vacant_eq.symm)
    (h.length_eq.trans h'.length_eq.symm) hwatch
  have hchains := h.chains_eq.trans h'.chains_eq.symm
  have hversion := h.nextVersion_eq.trans h'.nextVersion_eq.symm
  cases r'
  cases r''
  cases hslots
  cases hchains
  cases hversion
  rfl

end SameFrame

end Registry

namespace Delivery

theorem offer_sameFrame (fd : Fd) (ready : Mask) (d : Delivery) (key : Nat) :
    d.registry.SameFrame (d.offer fd ready key).registry := by
  rcases d.offer_cases fd ready key with h | ⟨w, b, -, -, -, h⟩ | ⟨w, o, -, -, h⟩
  · rw [h]
    exact Registry.SameFrame.refl _
  · rw [h]
    exact Registry.SameFrame.setArmed _ _ _
  · rw [h]
    exact Registry.SameFrame.refl _

theorem fanOut_sameFrame (d : Delivery) (e : Event) :
    d.registry.SameFrame (d.fanOut e).registry :=
  List.foldlRecOn (motive := fun d' : Delivery => d.registry.SameFrame d'.registry)
    (d.registry.chain e.fd) _ (Registry.SameFrame.refl _)
    fun d' h key _ => h.trans (offer_sameFrame e.fd e.mask d' key)

theorem foldl_fanOut_sameFrame (es : List Event) (d : Delivery) :
    d.registry.SameFrame (es.foldl fanOut d).registry :=
  List.foldlRecOn (motive := fun d' : Delivery => d.registry.SameFrame d'.registry) es _
    (Registry.SameFrame.refl _) fun d' h e _ => h.trans (fanOut_sameFrame d' e)

/-! ### Registrations -/

/-- A registration decided on by an event. -/
def call? (emulated : Bool) (before after : Delivery) (e : Event) : Option (Fd × Registration) :=
  (rearm? emulated before after e).map fun r => (e.fd, r)

/-- The decision depends on what the armed watches of the descriptor ask for. -/
theorem call?_congr {emulated : Bool} {before before' after after' : Delivery} {e : Event}
    (hbefore : before'.registry.armedMask e.fd = before.registry.armedMask e.fd)
    (hafter : after'.registry.armedMask e.fd = after.registry.armedMask e.fd) :
    call? emulated before' after' e = call? emulated before after e := by
  unfold call? rearm?
  rw [hbefore, hafter]

theorem fst_of_call? {emulated : Bool} {before after : Delivery} {e : Event}
    {x : Fd × Registration} (h : call? emulated before after e = some x) : x.1 = e.fd := by
  obtain ⟨r, -, rfl⟩ := Option.map_eq_some_iff.mp h
  rfl

/-- Events of other descriptors do not change what the watches of `fd` ask for. -/
theorem armedMask_foldl_fanOut {d : Delivery} {roll : List Nat} (he : d.registry.Enrolled roll)
    {fd : Fd} {es : List Event} (hfd : fd ∉ es.map Event.fd) :
    (es.foldl fanOut d).registry.armedMask fd = d.registry.armedMask fd := by
  induction es generalizing d with
  | nil => rfl
  | cons e es ih =>
    rw [List.map_cons, List.mem_cons, not_or] at hfd
    rw [List.foldl_cons, ih ((d.fanOut_firesTo e).enrolled he) hfd.2]
    exact (sameBut_fanOut he e).armedMask_eq hfd.1

/-- No two events of distinct descriptors register the same one. -/
theorem nodup_filterMap_call? {emulated : Bool} {before after : Delivery} {es : List Event}
    (hes : (es.map Event.fd).Nodup) :
    ((es.filterMap (call? emulated before after)).map Prod.fst).Nodup := by
  induction es with
  | nil => exact List.nodup_nil
  | cons e es ih =>
    rw [List.map_cons, List.nodup_cons] at hes
    cases hcall : call? emulated before after e with
    | none =>
      rw [List.filterMap_cons_none hcall]
      exact ih hes.2
    | some x =>
      rw [List.filterMap_cons_some hcall, List.map_cons, List.nodup_cons]
      refine ⟨fun hmem => hes.1 ?_, ih hes.2⟩
      obtain ⟨y, hy, heq⟩ := List.mem_map.mp hmem
      obtain ⟨e', he', hcall'⟩ := List.mem_filterMap.mp hy
      rw [← fst_of_call? hcall, ← heq, fst_of_call? hcall']
      exact List.mem_map_of_mem he'

end Delivery

/-- A registration that was accepted. -/
def Exchange.modified (x : Fd × Registration) : Exchange := .modify x.1 x.2 (.ok ())

/-- **What delivered events tell the poller.**  If no two are about the same descriptor, each of them
    decides on its own, by the registries before and after all of them. -/
theorem Collector.Delivers.trace_eq {emulated : Bool} {es : List Event} {d d' : Delivery}
    {t t' : Traced σ} {roll : List Nat} (h : Delivers host.traced emulated es d t d' t')
    (he : d.registry.Enrolled roll) (hes : (es.map Event.fd).Nodup) :
    t'.trace = t.trace ++ (es.filterMap (Delivery.call? emulated d d')).map Exchange.modified := by
  have hrest : ∀ {e : Event} {es : List Event} {d d' : Delivery} {s s' : Traced σ},
      d.registry.Enrolled roll → ((e :: es).map Event.fd).Nodup →
      Delivers host.traced emulated es (d.fanOut e) s d' s' →
      es.filterMap (Delivery.call? emulated (d.fanOut e) d') =
        es.filterMap (Delivery.call? emulated d d') ∧
      Delivery.call? emulated d d' e = Delivery.call? emulated d (d.fanOut e) e := by
    intro e es d d' s s' he hes h
    rw [List.map_cons, List.nodup_cons] at hes
    constructor
    · apply List.filterMap_congr
      intro e' hmem
      have hne : e'.fd ≠ e.fd := fun heq => hes.1 (heq ▸ List.mem_map_of_mem hmem)
      exact Delivery.call?_congr ((Delivery.sameBut_fanOut he e).armedMask_eq hne) rfl
    · apply Delivery.call?_congr rfl
      rw [h.eq_foldl]
      exact Delivery.armedMask_foldl_fanOut ((d.fanOut_firesTo e).enrolled he) hes.1
  induction h with
  | nil d t => exact (List.append_nil _).symm
  | @keep e es d d' t t' hr h ih =>
    obtain ⟨hlater, hself⟩ := hrest he hes h
    have hnone : Delivery.call? emulated d d' e = none := by
      rw [hself]
      unfold Delivery.call?
      rw [hr]
      rfl
    rw [ih ((d.fanOut_firesTo e).enrolled he) (List.nodup_cons.mp hes).2, hlater,
      List.filterMap_cons_none hnone]
  | @rearm e es r d d' t t₁ t' hr hm h ih =>
    obtain ⟨hlater, hself⟩ := hrest he hes h
    have hsome : Delivery.call? emulated d d' e = some (e.fd, r) := by
      rw [hself]
      unfold Delivery.call?
      rw [hr]
      rfl
    rw [ih ((d.fanOut_firesTo e).enrolled he) (List.nodup_cons.mp hes).2, hlater,
      List.filterMap_cons_some hsome, (Traced.of_note hm).2, List.append_assoc]
    rfl

/-! ### Tables -/

namespace Poller.Table

/-- Registrations of other descriptors leave an entry alone. -/
theorem find?_foldl_modified_of_notMem (t : Table) {calls : List (Fd × Registration)} {fd : Fd}
    (hfd : fd ∉ calls.map Prod.fst) :
    ((calls.map Exchange.modified).foldl observe t).find? fd = t.find? fd := by
  induction calls generalizing t with
  | nil => rfl
  | cons x calls ih =>
    rw [List.map_cons, List.mem_cons, not_or] at hfd
    rw [List.map_cons, List.foldl_cons, ih _ hfd.2]
    exact (find?_register t x.1 fd x.2).trans (if_neg hfd.1)

/-- A descriptor that is registered once gets this registration, and is enabled. -/
theorem find?_foldl_modified (t : Table) {calls : List (Fd × Registration)}
    (hnd : (calls.map Prod.fst).Nodup) {fd : Fd} {r : Registration} (hmem : (fd, r) ∈ calls) :
    ((calls.map Exchange.modified).foldl observe t).find? fd = some ⟨r, true⟩ := by
  induction calls generalizing t with
  | nil => cases hmem
  | cons x calls ih =>
    rw [List.map_cons, List.nodup_cons] at hnd
    rw [List.map_cons, List.foldl_cons]
    rcases List.mem_cons.mp hmem with rfl | hmem
    · rw [find?_foldl_modified_of_notMem _ hnd.1]
      exact (find?_register t fd fd r).trans (if_pos rfl)
    · exact ih _ hnd.2 hmem

/-- So it does not matter in which order descriptors are registered. -/
theorem find?_foldl_modified_of_perm (t : Table) {calls calls' : List (Fd × Registration)}
    (hperm : calls.Perm calls') (hnd : (calls.map Prod.fst).Nodup) (fd : Fd) :
    ((calls.map Exchange.modified).foldl observe t).find? fd =
      ((calls'.map Exchange.modified).foldl observe t).find? fd := by
  have hnd' : (calls'.map Prod.fst).Nodup := (hperm.map Prod.fst).nodup_iff.mp hnd
  by_cases hfd : fd ∈ calls.map Prod.fst
  · obtain ⟨⟨fd, r⟩, hmem, rfl⟩ := List.mem_map.mp hfd
    rw [find?_foldl_modified t hnd hmem, find?_foldl_modified t hnd' (hperm.mem_iff.mp hmem)]
  · have hfd' : fd ∉ calls'.map Prod.fst := fun h => hfd ((hperm.map Prod.fst).mem_iff.mpr h)
    rw [find?_foldl_modified_of_notMem t hfd, find?_foldl_modified_of_notMem t hfd']

end Poller.Table

/-! ### Deliveries -/

/-- Two deliveries that started from `t` come to the same, but for the order of what they wrote. -/
structure Collector.SameUpToOrder (t : Traced σ) (d d' : Delivery) (t₁ t₁' : Traced σ) : Prop where
  /-- The same records were made, as often. -/
  records_perm : d.buffer.records.Perm d'.buffer.records
  /-- The registries are the same, armed flags included. -/
  registry_eq : d.registry = d'.registry
  /-- The poller was told the same: each descriptor with its key, its interest and its mode. -/
  calls_perm : ∃ calls calls' : List (Fd × Registration), calls.Perm calls' ∧
    t₁.trace = t.trace ++ calls.map Exchange.modified ∧
    t₁'.trace = t.trace ++ calls'.map Exchange.modified
  /-- Every descriptor has the same entry, or none. -/
  find?_eq : ∀ fd, t₁.table.find? fd = t₁'.table.find? fd

/-- Permuted events of distinct descriptors emit the same records. -/
theorem Roster.emissions_perm (R : Roster) {es es' : List Event} (hperm : es.Perm es')
    (hes : (es.map Event.fd).Nodup) : (R.emissions es).Perm (R.emissions es') := by
  rw [emissions_eq_flatMap R hes,
    emissions_eq_flatMap R ((hperm.map Event.fd).nodup_iff.mp hes)]
  exact hperm.flatMap_right R.emit

/-- Records leave a watch the same in any order. -/
theorem Watch.after_perm (w : Watch) (key : Nat) {F F' : List (Nat × Record)} (hperm : F.Perm F') :
    w.after key F = w.after key F' := by
  unfold after
  simp only [(hperm.map Prod.fst).mem_iff]

/-- **Deliveries of permuted events** that had room for all records come to the same. -/
theorem Collector.Delivers.sameUpToOrder {emulated : Bool} {es es' : List Event} {r : Registry}
    {b : Buffer} {roll : List Nat} {d d' : Delivery} {t t₁ t₁' : Traced σ} (he : r.Enrolled roll)
    (h : Delivers host.traced emulated es ⟨r, b.clear, none⟩ t d t₁)
    (h' : Delivers host.traced emulated es' ⟨r, b.clear, none⟩ t d' t₁') (hperm : es.Perm es')
    (hes : (es.map Event.fd).Nodup)
    (hfits : ((r.roster roll).emissions es).length ≤ b.capacity) :
    Collector.SameUpToOrder t d d' t₁ t₁' := by
  have hes' : (es'.map Event.fd).Nodup := (hperm.map Event.fd).nodup_iff.mp hes
  have hemissions := (r.roster roll).emissions_perm hperm hes
  have hfits' : ((r.roster roll).emissions es').length ≤ b.capacity := hemissions.length_eq ▸ hfits
  have hfollows : ∀ {es d t₁}, Delivers host.traced emulated es ⟨r, b.clear, none⟩ t d t₁ →
      d.Follows b.capacity r ((r.roster roll).emissions es) ∧ r.SameFrame d.registry := by
    intro es d t₁ h
    rw [h.eq_foldl]
    exact ⟨Delivery.follows_foldl_fanOut he b es, Delivery.foldl_fanOut_sameFrame es ⟨r, b.clear, none⟩⟩
  obtain ⟨hd, hframe⟩ := hfollows h
  obtain ⟨hd', hframe'⟩ := hfollows h'
  have hregistry : d.registry = d'.registry := by
    refine hframe.eq_of_watch?_eq hframe' fun key => ?_
    rw [hd.watch?_eq, hd'.watch?_eq, List.take_of_length_le hfits, List.take_of_length_le hfits']
    congr 1
    funext w
    exact w.after_perm key hemissions
  -- Every event decides by the same registries in both deliveries.
  have hcalls : (es.filterMap (Delivery.call? emulated ⟨r, b.clear, none⟩ d)).Perm
      (es'.filterMap (Delivery.call? emulated ⟨r, b.clear, none⟩ d')) := by
    have hcongr : Delivery.call? emulated ⟨r, b.clear, none⟩ d' =
        Delivery.call? emulated ⟨r, b.clear, none⟩ d := by
      funext e
      exact Delivery.call?_congr rfl (by rw [hregistry])
    rw [hcongr]
    exact hperm.filterMap _
  have htrace := h.trace_eq he hes
  have htrace' := h'.trace_eq he hes'
  refine ⟨?_, hregistry, ⟨_, _, hcalls, htrace, htrace'⟩, fun fd => ?_⟩
  · rw [hd.records_eq, hd'.records_eq, List.take_of_length_le hfits,
      List.take_of_length_le hfits']
    exact hemissions.map Prod.snd
  · unfold Traced.table
    rw [htrace, htrace', List.foldl_append, List.foldl_append]
    exact Poller.Table.find?_foldl_modified_of_perm _ hcalls
      (Delivery.nodup_filterMap_call? hes) fd

/-! ### Every history -/

/-- **The order of a report is of no consequence.**  After any history, deliver events of distinct
    descriptors into a cleared buffer, in two orders, and let the poller accept every registration on
    the way.  Either there is room for the records, then both deliveries go well and come to the same:
    the same records as often, the same registry, the same calls, and a table with the same entries.
    Or there is not, and then both find the buffer full. -/
theorem History.order_irrelevant {allowed : Action (Traced σ) → Traced σ → Traced σ → Prop}
    {acts : List (Action (Traced σ))} {c : Collector (Traced σ)} {t : Traced σ}
    (h : History host.traced allowed acts c t) {es es' : List Event} (hperm : es.Perm es')
    (hes : (es.map Event.fd).Nodup) (b : Buffer)
    (hacc : (Collector.deliver host.traced c.emulated es ⟨c.registry, b.clear, none⟩
      t).2.2.AcceptedSince t.trace.length)
    (hacc' : (Collector.deliver host.traced c.emulated es' ⟨c.registry, b.clear, none⟩
      t).2.2.AcceptedSince t.trace.length) :
    let F := (History.roster acts c).emissions es
    let o := Collector.deliver host.traced c.emulated es ⟨c.registry, b.clear, none⟩ t
    let o' := Collector.deliver host.traced c.emulated es' ⟨c.registry, b.clear, none⟩ t
    (F.length ≤ b.capacity ∧ o.1 = .ok () ∧ o'.1 = .ok () ∧
      Collector.SameUpToOrder t o.2.1 o'.2.1 o.2.2 o'.2.2) ∨
    (b.capacity < F.length ∧ (∃ x, o.1 = .error (.bufferFull x)) ∧
      ∃ x, o'.1 = .error (.bufferFull x)) := by
  intro F o o'
  have he := h.enrolled
  obtain ⟨d, t₁, hd, heq⟩ := Collector.delivers_of_accepted (Nat.le_refl _) hacc
  obtain ⟨d', t₁', hd', heq'⟩ := Collector.delivers_of_accepted (Nat.le_refl _) hacc'
  have ho : o = (d.result, d, t₁) := heq
  have ho' : o' = (d'.result, d', t₁') := heq'
  have hfollows : d.Follows b.capacity c.registry F := by
    rw [hd.eq_foldl]
    exact Delivery.follows_foldl_fanOut he b es
  have hfollows' : d'.Follows b.capacity c.registry ((History.roster acts c).emissions es') := by
    rw [hd'.eq_foldl]
    exact Delivery.follows_foldl_fanOut he b es'
  have hlength : F.length = ((History.roster acts c).emissions es').length :=
    ((History.roster acts c).emissions_perm hperm hes).length_eq
  rw [ho, ho']
  rcases Nat.lt_or_ge b.capacity F.length with hF | hF
  · exact Or.inr ⟨hF, ⟨_, hfollows.result_of_lt_length hF⟩,
      ⟨_, hfollows'.result_of_lt_length (hlength ▸ hF)⟩⟩
  · exact Or.inl ⟨hF, hfollows.result_of_length_le hF,
      hfollows'.result_of_length_le (hlength ▸ hF), hd.sameUpToOrder he hd' hperm hes hF⟩

open Scenario in
/-- Descriptor 5 has a one-shot reader and a persistent writer, descriptor 6 a one-shot reader, and
    both report.  The two orders make the three records in two orders. -/
theorem order_irrelevant_swapped :
    ∃ (c : Collector (Traced World)) (t : Traced World)
      (o o' : Except Error Unit × Delivery × Traced World),
      History (World.host 0).traced anything
        [.add 5 .read (.ok ⟨0, 0⟩), .add 5 (.write ∪ .persist) (.ok ⟨1, 1⟩),
          .add 6 .read (.ok ⟨2, 2⟩)] c t ∧
      o = Collector.deliver (World.host 0).traced c.emulated
        [⟨5, true, true, false, none⟩, ⟨6, true, false, false, none⟩]
        ⟨c.registry, (Buffer.ofCapacity 3).clear, none⟩ t ∧
      o' = Collector.deliver (World.host 0).traced c.emulated
        [⟨6, true, false, false, none⟩, ⟨5, true, true, false, none⟩]
        ⟨c.registry, (Buffer.ofCapacity 3).clear, none⟩ t ∧
      o.2.1.buffer.records = [⟨5, 2⟩, ⟨5, 4⟩, ⟨6, 2⟩] ∧
      o'.2.1.buffer.records = [⟨6, 2⟩, ⟨5, 2⟩, ⟨5, 4⟩] ∧
      Collector.SameUpToOrder t o.2.1 o'.2.1 o.2.2 o'.2.2 := by
  have h₀ : History (World.host 0).traced anything [] _ _ :=
    .create (show Collector.create (World.host 0).traced (Buffer.ofCapacity 3) default
      ⟨Session.scripted.world, []⟩ = (.ok _, _) from rfl)
  have h₁ := h₀.step (.add 5 .read _ _) trivial
  have h₂ := h₁.step (.add 5 (.write ∪ .persist) _ _) trivial
  have h₃ := h₂.step (.add 6 .read _ _) trivial
  refine ⟨_, _, _, _, h₃, rfl, rfl, by decide, by decide, ?_⟩
  rcases h₃.order_irrelevant (List.Perm.swap ⟨6, true, false, false, none⟩
    ⟨5, true, true, false, none⟩ []) (by decide) (Buffer.ofCapacity 3) (by decide) (by decide) with
    ⟨-, -, -, hsame⟩ | ⟨hfull, -⟩
  · exact hsame
  · exact absurd hfull (by decide)

end Readiness
