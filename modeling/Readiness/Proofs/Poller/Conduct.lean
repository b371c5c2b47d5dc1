import Readiness.Proofs.Poller.Rearming

namespace Readiness

/-!
# How a collector conducts itself towards its poller

To register a descriptor twice is an error of the caller, and so is to change or to drop a
registration that is not there.  A collector chooses between the three calls by the list of keys of
the descriptor, which it has already changed by then.  The choice is always right.

* `Poller.Table.Permits` — what may be asked of a poller with these entries, and under which key
  (`Registration.Names`);
* `Poller.Table.Credible` — all that is expected of its answers: no entry refuses to be dropped, and
  a wait reports entries.  Registrations may be refused at any time;
* `Poller.Table.Mirrors` — the entries are those of the watched descriptors.  This is the invariant,
  `Traced.Orderly` with what was asked so far, and each exchange has a lemma (`Orderly.add`,
  `Orderly.modify`, `Orderly.delete`, `Orderly.wait_error`, `Orderly.wait_ok`);
* `History.conducts` — whatever happens, only what is permitted is asked, and between operations a
  descriptor has an entry exactly if it has a watch.
-/

variable {σ : Type} {host : Host σ}

/-! ### Permitted calls -/

/-- The registration carries the key of `fd`, from which `fd` comes back. -/
def Registration.Names (r : Registration) (fd : Fd) : Prop :=
  r.key = Fd.toKey fd ∧ Fd.ofKey r.key = fd

instance (r : Registration) (fd : Fd) : Decidable (r.Names fd) :=
  inferInstanceAs (Decidable (_ ∧ _))

theorem Registration.names_of_key_eq {r : Registration} {fd : Fd} (h : r.key = Fd.toKey fd) :
    r.Names fd :=
  ⟨h, by rw [h, Fd.ofKey_toKey]⟩

namespace Poller.Table

/-- What a caller may ask of a poller with these entries, whatever the answer is: to enter a
    descriptor it does not have, and to change or to drop the entry of one it has. -/
def Permits (t : Table) : Exchange → Prop
  | .add fd r _ => t.isRegistered fd = false ∧ r.Names fd
  | .modify fd r _ => t.isRegistered fd = true ∧ r.Names fd
  | .delete fd _ => t.isRegistered fd = true
  | _ => True

theorem permits_of_isAside (t : Table) (x : Exchange) (hx : x.isAside = true) : t.Permits x := by
  rcases Exchange.of_isAside hx with ⟨fd, bytes, rfl⟩ | ⟨wakeFd, calledOff, rfl⟩ | rfl
  · trivial
  · trivial
  · trivial

/-- An answer to be expected of a poller with these entries: a descriptor is dropped when this is
    asked for, and a wait reports entries, enabled or not, as often as it likes. -/
def Credible (t : Table) : Exchange → Prop
  | .delete _ answer => answer.isOk = true
  | .wait _ (.ok es) => ∀ e ∈ es, ∃ x ∈ t.entries, x.2.registration.key = e.key
  | _ => True

instance (t : Table) : (x : Exchange) → Decidable (t.Credible x)
  | .delete _ _ => inferInstanceAs (Decidable (_ = _))
  | .wait _ (.ok _) => inferInstanceAs (Decidable (∀ e ∈ _, _))
  | .wait _ (.error _) => .isTrue trivial
  | .add _ _ _ => .isTrue trivial
  | .modify _ _ _ => .isTrue trivial
  | .drain _ _ => .isTrue trivial
  | .prepare _ _ => .isTrue trivial
  | .finished => .isTrue trivial

/-! ### Tables that mirror a registry -/

/-- The entries are those of the descriptors that are watched in `r`, each under its own key. -/
structure Mirrors (t : Table) (r : Registry) : Prop where
  key_eq : t.Each fun fd entry => entry.registration.key = Fd.toKey fd
  isRegistered_iff : ∀ fd, t.isRegistered fd = true ↔ r.chain fd ≠ []

theorem isRegistered_register (t : Table) (fd fd' : Fd) (r : Registration) :
    (t.register fd r).isRegistered fd' = true ↔ fd' = fd ∨ t.isRegistered fd' = true := by
  unfold isRegistered
  rw [find?_register]
  by_cases h : fd' = fd
  · simp [h]
  · simp [h]

theorem isRegistered_unregister (t : Table) (fd fd' : Fd) :
    (t.unregister fd).isRegistered fd' = true ↔ fd' ≠ fd ∧ t.isRegistered fd' = true := by
  unfold isRegistered
  rw [find?_unregister]
  by_cases h : fd' = fd
  · simp [h]
  · simp [h]

theorem isRegistered_report (t : Table) (es : List Event) (fd : Fd) :
    (t.report es).isRegistered fd = t.isRegistered fd := by
  unfold isRegistered
  rw [find?_report, Option.isSome_map]

namespace Mirrors

variable {t : Table} {r r' : Registry} {fd : Fd} {reg : Registration}

theorem empty : Mirrors ∅ ∅ where
  key_eq := Each.empty _
  isRegistered_iff := fun _ => iff_of_false Bool.false_ne_true fun h => h rfl

/-- It only matters which descriptors are watched. -/
theorem congr (h : t.Mirrors r) (hr : ∀ fd, r'.chain fd = [] ↔ r.chain fd = []) : t.Mirrors r' where
  key_eq := h.key_eq
  isRegistered_iff := by
    intro fd
    rw [h.isRegistered_iff, Ne, Ne, hr]

/-- A descriptor that is watched now, and maybe was before, has to be entered. -/
theorem register (h : t.Mirrors r) (hkey : reg.key = Fd.toKey fd) (hne : r'.chain fd ≠ [])
    (hr : ∀ {fd'}, fd' ≠ fd → r'.chain fd' = r.chain fd') : (t.register fd reg).Mirrors r' where
  key_eq := h.key_eq.register hkey
  isRegistered_iff := by
    intro fd'
    rw [isRegistered_register]
    by_cases hfd : fd' = fd
    · rw [hfd]
      exact iff_of_true (Or.inl rfl) hne
    · rw [or_iff_right hfd, hr hfd, h.isRegistered_iff]

/-- A descriptor that is not watched any more has to be dropped. -/
theorem unregister (h : t.Mirrors r) (hnil : r'.chain fd = [])
    (hr : ∀ {fd'}, fd' ≠ fd → r'.chain fd' = r.chain fd') : (t.unregister fd).Mirrors r' where
  key_eq := h.key_eq.unregister fd
  isRegistered_iff := by
    intro fd'
    rw [isRegistered_unregister]
    by_cases hfd : fd' = fd
    · rw [hfd]
      exact iff_of_false (fun h => h.1 rfl) (fun h => h hnil)
    · rw [and_iff_right hfd, hr hfd, h.isRegistered_iff]

theorem report (h : t.Mirrors r) (es : List Event) : (t.report es).Mirrors r where
  key_eq := h.key_eq.report es id
  isRegistered_iff := by
    intro fd
    rw [isRegistered_report, h.isRegistered_iff]

/-- The events of a credible wait are named by their descriptors. -/
theorem key_eq_of_credible (h : t.Mirrors r) {limit : Option Duration} {es : List Event}
    (hx : t.Credible (.wait limit (.ok es))) : ∀ e ∈ es, e.key = Fd.toKey e.fd := by
  intro e he
  obtain ⟨⟨fd, entry⟩, hmem, hkey⟩ := hx e he
  rw [h.key_eq fd entry ((t.mem_entries_iff fd entry).mp hmem)] at hkey
  rw [Event.fd_eq_of_key hkey.symm, hkey]

end Mirrors

end Poller.Table

/-! ### Exchanges -/

/-- So far only what is permitted was asked, and the entries are those of the descriptors that are
    watched in `r`. -/
structure Traced.Orderly (r : Registry) (t : Traced σ) : Prop where
  along : t.Along Poller.Table.Permits
  mirrors : t.table.Mirrors r

namespace Traced.Orderly

variable {r r' : Registry} {t t' : Traced σ} {fd : Fd} {reg : Registration}

theorem congr (h : t.Orderly r) (hr : ∀ fd, r'.chain fd = [] ↔ r.chain fd = []) : t.Orderly r' :=
  ⟨h.along, h.mirrors.congr hr⟩

theorem append (h : t.Orderly r) {x : Exchange} (ht : t'.trace = t.trace ++ [x])
    (hx : t.table.Permits x) (hm : (t.table.observe x).Mirrors r') : t'.Orderly r' where
  along := h.along.append ht hx
  mirrors := by
    rw [table_append ht]
    exact hm

theorem aside (h : t.Orderly r) (ha : t.Aside t') : t'.Orderly r where
  along := h.along.aside ha Poller.Table.permits_of_isAside
  mirrors := by
    rw [ha.table_eq]
    exact h.mirrors

/-- **A descriptor without watches** may be entered.  If the poller does it, the descriptor has to be
    watched from then on. -/
theorem add (h : t.Orderly r) (hnil : r.chain fd = []) (hkey : reg.key = Fd.toKey fd)
    {a : Except SystemError Unit} (ht : t'.trace = t.trace ++ [.add fd reg a])
    (herror : ∀ err, a = .error err → ∀ fd, r'.chain fd = [] ↔ r.chain fd = [])
    (hok : a = .ok () → r'.chain fd ≠ [] ∧ ∀ {fd'}, fd' ≠ fd → r'.chain fd' = r.chain fd') :
    t'.Orderly r' := by
  have habsent : t.table.isRegistered fd = false := by
    rw [← Bool.not_eq_true, h.mirrors.isRegistered_iff, not_not]
    exact hnil
  refine h.append ht ⟨habsent, Registration.names_of_key_eq hkey⟩ ?_
  rcases a with err | u
  · exact h.mirrors.congr (herror err rfl)
  · exact h.mirrors.register hkey (hok rfl).1 (hok rfl).2

/-- **A watched descriptor** may be registered again, whether the poller does it or not. -/
theorem modify (h : t.Orderly r) (hne : r.chain fd ≠ []) (hkey : reg.key = Fd.toKey fd)
    {a : Except SystemError Unit} (ht : t'.trace = t.trace ++ [.modify fd reg a]) :
    t'.Orderly r := by
  refine h.append ht ⟨(h.mirrors.isRegistered_iff fd).mpr hne, Registration.names_of_key_eq hkey⟩ ?_
  rcases a with err | u
  · exact h.mirrors
  · exact h.mirrors.register hkey hne fun _ => rfl

/-- **A watched descriptor** may be dropped, and is not to be watched any more then. -/
theorem delete (h : t.Orderly r) (hne : r.chain fd ≠ [])
    (ht : t'.trace = t.trace ++ [.delete fd (.ok ())]) (hnil : r'.chain fd = [])
    (hr : ∀ {fd'}, fd' ≠ fd → r'.chain fd' = r.chain fd') : t'.Orderly r' :=
  h.append ht ((h.mirrors.isRegistered_iff fd).mpr hne) (h.mirrors.unregister hnil hr)

theorem wait_error (h : t.Orderly r) {limit : Option Duration} {err : SystemError}
    (hw : host.traced.wait limit t = (.error err, t')) : t'.Orderly r :=
  h.append (of_note hw).2 trivial h.mirrors

theorem wait_ok (h : t.Orderly r) {limit : Option Duration} {es : List Event}
    (hw : host.traced.wait limit t = (.ok es, t')) : t'.Orderly r :=
  h.append (of_note hw).2 trivial (h.mirrors.report es)

end Traced.Orderly

/-! ### Operations -/

/-- A descriptor that is registered again after its event has a watch left. -/
theorem Delivery.chain_ne_nil_of_rearm? {emulated : Bool} {before after : Delivery} {e : Event}
    {reg : Registration} {roll : List Nat} (he : after.registry.Enrolled roll)
    (h : rearm? emulated before after e = some reg) :
    reg.key = e.key ∧ after.registry.chain e.fd ≠ [] := by
  unfold rearm? at h
  dsimp only at h
  split at h
  · next hcond =>
    cases h
    have hasks := (he.isEmpty_conditions_iff e.fd).mp (Bool.eq_false_iff.mpr hcond.2)
    exact ⟨rfl, he.chain_ne_nil_of_asksCondition hasks⟩
  · cases h

namespace Collector

/-- **A delivery** of events that are named by their descriptors only registers watched descriptors
    again, up to the first one that is refused. -/
theorem deliver_orderly {emulated : Bool} (es : List Event) (d : Delivery) (t : Traced σ)
    {roll : List Nat} (he : d.registry.Enrolled roll) (hkeys : ∀ e ∈ es, e.key = Fd.toKey e.fd)
    (h : t.Orderly d.registry) :
    (deliver host.traced emulated es d t).2.2.Orderly
      (deliver host.traced emulated es d t).2.1.registry := by
  induction es generalizing d t with
  | nil => exact h
  | cons e es ih =>
    have hfires := d.fanOut_firesTo e
    have he' := hfires.enrolled he
    have hkeys' : ∀ e ∈ es, e.key = Fd.toKey e.fd :=
      fun e hmem => hkeys e (List.mem_cons_of_mem _ hmem)
    have h' : t.Orderly (d.fanOut e).registry := h.congr fun fd => by rw [hfires.chain_eq]
    unfold deliver
    dsimp only
    cases hr : Delivery.rearm? emulated d (d.fanOut e) e with
    | none => exact ih (d.fanOut e) t he' hkeys' h'
    | some reg =>
      dsimp only
      obtain ⟨hkey, hne⟩ := Delivery.chain_ne_nil_of_rearm? he' hr
      have hkey' := hkey.trans (hkeys e List.mem_cons_self)
      rcases hm : host.traced.modify e.fd reg t with ⟨err | u, t₁⟩
      · exact h'.modify hne hkey' (Traced.of_note hm).2
      · exact ih (d.fanOut e) t₁ he' hkeys' (h'.modify hne hkey' (Traced.of_note hm).2)

/-- **An iteration** whose waits report entries stays orderly. -/
theorem collect_orderly {emulated : Bool} {timeout : Timeout} {start : Duration} {waits : Nat}
    {limit : Option Duration} {d : Delivery} {t : Traced σ} {roll : List Nat}
    {r : Except Error Unit × Delivery × Traced σ}
    (hr : collect host.traced emulated timeout start waits limit d t = some r)
    (he : d.registry.Enrolled roll) (h : t.Orderly d.registry)
    (hx : r.2.2.Along Poller.Table.Credible) : r.2.2.Orderly r.2.1.registry := by
  -- What is expected of the whole trace is expected at each point of it.
  refine (collect_induction (fun d t => d.registry.Enrolled roll ∧
    (t.Along Poller.Table.Credible → t.Orderly d.registry)) ?_ ?_ hr ⟨he, fun _ => h⟩).2 hx
  · rintro limit d t err t' ⟨he, h⟩ hw
    exact ⟨he, fun hx => (h (hx.mono ⟨_, (Traced.of_note hw).2.symm⟩)).wait_error hw⟩
  · rintro limit d t es t' ⟨he, h⟩ hw
    refine ⟨(deliver_firesTo _ _ _ _ _).enrolled he, fun hx => ?_⟩
    have htrace := (Traced.of_note hw).2
    have hx' := hx.mono (deliver_appends host emulated es d t')
    have h' := h (hx'.mono ⟨_, htrace.symm⟩)
    exact deliver_orderly es d t' he (h'.mirrors.key_eq_of_credible (hx'.last htrace))
      (h'.wait_ok hw)

/-- **A run** whose waits report entries stays orderly. -/
theorem run_orderly {c : Collector (Traced σ)} (hh : c.hook.Aside) {wakeFd wokeFd : Fd}
    {timeout : Timeout} {waits : Nat} {t : Traced σ} {o : Outcome (Traced σ) Nat}
    (ho : c.run host.traced wakeFd wokeFd timeout waits t = some o) {roll : List Nat}
    (he : c.registry.Enrolled roll) (h : t.Orderly c.registry)
    (hx : o.state.Along Poller.Table.Credible) : o.state.Orderly o.collector.registry := by
  rcases run_asides hh ho with ⟨ha, hr⟩ | ⟨t₀, t₁, answer, d, ha₀, hcollect, ha₁, hr, -⟩
  · rw [hr]
    exact h.aside ha
  · rw [hr]
    exact (collect_orderly hcollect he (h.aside ha₀) (hx.mono ha₁.appends)).aside ha₁

/-- The call of an addition enters a descriptor with its first watch, and changes its entry with any
    other.  After a refusal the watches are those of before. -/
theorem addCall_orderly {c : Collector (Traced σ)} {fd : Fd} {mask : Mask} {t t' : Traced σ}
    {a : Except SystemError Unit} {roll : List Nat} (he : c.registry.Enrolled roll)
    (h : t.Orderly c.registry) (hcall : c.addCall host.traced fd mask t = (a, t'))
    {r : Registry} (herror : ∀ err, a = .error err → ∀ fd, r.chain fd = c.registry.chain fd)
    (hok : a = .ok () → r = c.registry.insert fd mask) : t'.Orderly r := by
  have hchain : (c.registry.insert fd mask).chain fd =
      c.registry.chain fd ++ [c.registry.slots.nextKey] := by
    rw [Registry.chain_insert, if_pos rfl]
  have hsame := he.sameBut_insert fd mask
  have hne : (c.registry.insert fd mask).chain fd ≠ [] := by
    rw [hchain]
    exact List.concat_ne_nil _ _
  unfold addCall at hcall
  split at hcall
  · next hfirst =>
    have hnil : c.registry.chain fd = [] := by
      rw [hchain, List.length_append, List.length_singleton, Nat.add_eq_right] at hfirst
      exact List.eq_nil_of_length_eq_zero hfirst
    refine h.add hnil rfl (Traced.of_note hcall).2 (fun err ha fd' => by rw [herror err ha]) ?_
    intro ha
    rw [hok ha]
    exact ⟨hne, hsame.chain_eq⟩
  · next hfirst =>
    have hne' : c.registry.chain fd ≠ [] := by
      intro hnil
      rw [hchain, hnil] at hfirst
      exact hfirst rfl
    have h' := h.modify hne' rfl (Traced.of_note hcall).2
    refine h'.congr fun fd' => ?_
    rcases a with err | u
    · rw [herror err rfl]
    · rw [hok rfl]
      by_cases hfd : fd' = fd
      · rw [hfd]
        exact iff_of_false hne hne'
      · rw [hsame.chain_eq hfd]

/-- **An addition** stays orderly, whether the poller takes the watch or not. -/
theorem add_orderly (c : Collector (Traced σ)) (fd : Fd) (mask : Mask) (t : Traced σ)
    {roll : List Nat} (he : c.registry.Enrolled roll) (h : t.Orderly c.registry) :
    (c.add host.traced fd mask t).state.Orderly (c.add host.traced fd mask t).collector.registry := by
  rcases c.add_cases host.traced fd mask t with ⟨err, t', hcall, ho⟩ | ⟨t', hcall, ho⟩
  · rw [ho]
    exact addCall_orderly he h hcall (fun _ _ => he.chain_forget_insert fd mask) nofun
  · rw [ho]
    have h' : t'.Orderly (c.registry.insert fd mask) :=
      addCall_orderly he h hcall nofun fun _ => rfl
    exact h'.aside (Traced.Aside.log host (.watching fd mask) t')

/-- **A removal** stays orderly, unless the poller refuses to drop the descriptor. -/
theorem remove_orderly (c : Collector (Traced σ)) (token : Token) (t : Traced σ) {roll : List Nat}
    (he : c.registry.Enrolled roll) (h : t.Orderly c.registry)
    (hx : (c.remove host.traced token t).state.Along Poller.Table.Credible) :
    (c.remove host.traced token t).state.Orderly
      (c.remove host.traced token t).collector.registry := by
  rcases c.remove_cases host.traced token t with ⟨-, ho⟩ | ⟨w, a, t', hfind, hcall, ho⟩
  · rw [ho]
    exact h
  · obtain ⟨hw, -⟩ := Option.filter_eq_some_iff.mp hfind
    have hne : c.registry.chain w.fd ≠ [] := he.chain_ne_nil hw
    have hsame := he.sameBut_forget hw
    have h₀ := h.aside (Traced.Aside.log host (.unwatching w.fd) t)
    rw [ho] at hx ⊢
    show t'.Orderly (c.registry.forget token.key)
    unfold removeCall at hcall
    split at hcall
    · next hnil =>
      -- The last watch of the descriptor, whose entry is dropped.
      have htrace := (Traced.of_note hcall).2
      rcases a with err | u
      · have hrefused := hx.last htrace
        cases hrefused
      · exact h₀.delete hne htrace hnil hsame.chain_eq
    · next hne' =>
      refine (h₀.modify hne rfl (Traced.of_note hcall).2).congr fun fd => ?_
      by_cases hfd : fd = w.fd
      · rw [hfd]
        exact iff_of_false hne' hne
      · rw [hsame.chain_eq hfd]

end Collector

/-! ### Every history -/

/-- **Every step stays orderly** as long as the answers of the poller are credible. -/
theorem Step.orderly {a : Action (Traced σ)} {c c' : Collector (Traced σ)} {t t' : Traced σ}
    (hs : Step host.traced a c t c' t') (hh : c.hook.Aside) {roll : List Nat}
    (he : c.registry.Enrolled roll) (h : t.Orderly c.registry)
    (hx : t'.Along Poller.Table.Credible) : t'.Orderly c'.registry := by
  cases hs with
  | add fd mask => exact c.add_orderly fd mask t he h
  | remove token => exact c.remove_orderly token t he h hx
  | resize b => exact h.aside (Traced.Aside.log host (.resizing c.buffer.capacity b.capacity) t)
  | setHook hook => exact h
  | run ho => exact Collector.run_orderly hh ho he h hx

/-- A step only appends to the trace. -/
theorem Step.appends {a : Action (Traced σ)} {c c' : Collector (Traced σ)} {t t' : Traced σ}
    (hs : Step host.traced a c t c' t') (hh : c.hook.Aside) {roll : List Nat}
    (he : c.registry.Enrolled roll) : t.trace <+: t'.trace := by
  cases hs with
  | add fd mask => exact (c.add_serves host fd mask t he).1
  | remove token => exact (c.remove_serves host token t he).1
  | resize b => exact List.prefix_refl _
  | setHook hook => exact List.prefix_refl _
  | run ho => exact (Collector.run_serves hh.discreet ho he).1

/-- **A collector only asks for what its poller permits.**  Take any history on a poller that may
    refuse registrations at any time, but drops a descriptor when it is told to, and reports only
    descriptors it has.  Every addition was made for a descriptor without an entry, and every change
    and every removal for one with an entry.  Each of them carried the key of its descriptor.
    Between two operations a descriptor has an entry exactly if it has a watch. -/
theorem History.conducts {acts : List (Action (Traced σ))} {c : Collector (Traced σ)} {t : Traced σ}
    (h : History host.traced Overheard acts c t) (hx : t.Along Poller.Table.Credible) :
    t.Along Poller.Table.Permits ∧
      ∀ fd, t.table.isRegistered fd = true ↔ ∃ key w, c.registry.watch? key = some w ∧ w.fd = fd := by
  have horderly : t.Orderly c.registry := by
    induction h with
    | create hc =>
      have htrace := Collector.create_trace hc
      rw [(Collector.create_eq hc).1]
      refine ⟨?_, ?_⟩
      · unfold Traced.Along
        rw [htrace]
        trivial
      · unfold Traced.table
        rw [htrace]
        exact Poller.Table.Mirrors.empty
    | step hist hs _ ih =>
      have hh := hist.covers.1
      have happends := hs.appends hh hist.enrolled
      exact hs.orderly hh hist.enrolled (ih (hx.mono happends)) hx
  refine ⟨horderly.along, fun fd => ?_⟩
  rw [horderly.mirrors.isRegistered_iff, Ne, List.eq_nil_iff_forall_not_mem, not_forall]
  simp only [not_not, h.enrolled.mem_chain_iff]

namespace Scenario

/-- Two watches of descriptor -1, which the poller takes at the second attempt each.  It then refuses
    to register the descriptor again after a report, and the reader is removed. -/
theorem conducts_refused :
    ∃ (c : Collector (Traced World)) (t : Traced World),
      History (World.host 0).traced Overheard
        [.add (-1) .read (.error (.io (.os 12))), .add (-1) .read (.ok ⟨0, 1⟩),
          .add (-1) .write (.error (.io (.os 28))), .add (-1) .write (.ok ⟨1, 3⟩),
          .run 0 1 .poll (.error (.io (.os 22))), .remove ⟨0, 1⟩ (.ok ())] c t ∧
      t.Along Poller.Table.Credible ∧ t.trace.length = 7 ∧ t.Along Poller.Table.Permits ∧
      t.table.isRegistered (-1) = true := by
  have h₀ : History (World.host 0).traced Overheard [] _ _ :=
    .create (show Collector.create (World.host 0).traced (Buffer.ofCapacity 4) default
      ⟨World.refusing true [12, 0, 28, 0, 22]
        [.events [⟨Fd.toKey (-1), true, false, false, none⟩]], []⟩ = (.ok _, _) from rfl)
  have h₁ := h₀.step (.add (-1) .read _ _) trivial
  have h₂ := h₁.step (.add (-1) .read _ _) trivial
  have h₃ := h₂.step (.add (-1) .write _ _) trivial
  have h₄ := h₃.step (.add (-1) .write _ _) trivial
  have h₅ := h₄.step (.run (show Collector.run _ _ 0 1 .poll 1 _ = some _ from rfl)) trivial
  have h₆ := h₅.step (.remove ⟨0, 1⟩ _ _) trivial
  refine ⟨_, _, h₆, by decide, by decide, (h₆.conducts (by decide)).1, ?_⟩
  exact ((h₆.conducts (by decide)).2 (-1)).mpr ⟨1, _, rfl, rfl⟩

end Scenario

end Readiness
