import Readiness.Proofs.Poller.Registrations

namespace Readiness

/-!
# Pollers that refuse nothing

What follows for the operations of a collector if every change of a registration goes through.

* `Poller.Obedient` — the poller behind a host keeps a table, and every change of it goes through;
* `Obedient.add_eq` and `Obedient.remove_of_find?` — additions always go well, and removals do if
  their token is found.  The table goes on serving the watches;
* `Obedient.deliver_eq` — a delivery always comes to its end, and settles its events.
-/

namespace Poller

/-- The poller behind the host keeps `table`, and refuses no change of it. -/
structure Obedient {σ : Type} (table : σ → Table) (host : Host σ) : Prop where
  add : ∀ fd r s, ∃ s', host.add fd r s = (.ok (), s') ∧ table s' = (table s).register fd r
  modify : ∀ fd r s, ∃ s', host.modify fd r s = (.ok (), s') ∧ table s' = (table s).register fd r
  delete : ∀ fd s, ∃ s', host.delete fd s = (.ok (), s') ∧ table s' = (table s).unregister fd
  drain : ∀ fd s, table (host.drain fd s).2 = table s
  log : ∀ e s, table (host.log e s) = table s

namespace Obedient

variable {σ : Type} {table : σ → Table} {host : Host σ} {c : Collector σ} {s : σ} {roll : List Nat}

/-- An addition always goes through. -/
theorem add_eq (h : Obedient table host) (he : c.registry.Enrolled roll)
    (hs : (table s).Serves c.emulated c.registry []) (fd : Fd) (mask : Mask) :
    ∃ s', c.add host fd mask s =
      ⟨.ok c.registry.nextToken, { c with registry := c.registry.insert fd mask }, s'⟩ ∧
      (table s').Serves c.emulated (c.registry.insert fd mask) [] := by
  have hcall : ∃ s', c.addCall host fd mask s = (.ok (), s') ∧ table s' =
      (table s).register fd (c.registrationOf (c.registry.insert fd mask) fd) := by
    unfold Collector.addCall
    split
    · exact h.add fd _ s
    · exact h.modify fd _ s
  obtain ⟨s', hcall, htable⟩ := hcall
  rcases c.add_cases host fd mask s with ⟨e, s'', hcall', -⟩ | ⟨s'', hcall', ho⟩
  · rw [hcall] at hcall'
    cases hcall'
  · rw [hcall] at hcall'
    cases hcall'
    refine ⟨_, ho, ?_⟩
    rw [h.log, htable]
    exact hs.register (he.sameBut_insert fd mask) (fun _ => Iff.rfl) List.not_mem_nil

/-- A removal goes through if its token is found. -/
theorem remove_of_find? (h : Obedient table host) (he : c.registry.Enrolled roll)
    (hs : (table s).Serves c.emulated c.registry []) {t : Token} {w : Watch}
    (hw : c.registry.find? t = some w) : ∃ s', c.remove host t s =
      ⟨.ok (), { c with registry := c.registry.forget t.key }, s'⟩ ∧
      (table s').Serves c.emulated (c.registry.forget t.key) [] := by
  have hsame := he.sameBut_forget (Option.filter_eq_some_iff.mp hw).1
  have hcall : ∀ s, ∃ s', c.removeCall host (c.registry.forget t.key) w.fd s =
      (.ok (), s') ∧ ((table s).Serves c.emulated c.registry [] →
        (table s').Serves c.emulated (c.registry.forget t.key) []) := by
    intro s
    unfold Collector.removeCall
    split
    · next hchain =>
      obtain ⟨s', hcall, htable⟩ := h.delete w.fd s
      exact ⟨s', hcall, fun hs => htable ▸ hs.unregister hsame hchain⟩
    · obtain ⟨s', hcall, htable⟩ := h.modify w.fd
        (c.registrationOf (c.registry.forget t.key) w.fd) s
      exact ⟨s', hcall, fun hs => htable ▸
        hs.register hsame (fun _ => Iff.rfl) List.not_mem_nil⟩
  rcases c.remove_cases host t s with ⟨hnone, -⟩ | ⟨w', a, s', hw', hcall', ho⟩
  · rw [hw] at hnone
    cases hnone
  · rw [hw] at hw'
    cases hw'
    obtain ⟨s'', hok, hserves⟩ := hcall (host.log (.unwatching w.fd) s)
    rw [hok] at hcall'
    cases hcall'
    refine ⟨s', ho, hserves ?_⟩
    rw [h.log]
    exact hs

/-- A delivery always comes to its end. -/
theorem deliver_eq (h : Obedient table host) (emulated : Bool) (es : List Event) (d : Delivery)
    (s : σ) :
    ∃ s', Collector.Delivers host emulated es d s (es.foldl Delivery.fanOut d) s' ∧
      Collector.deliver host emulated es d s =
        ((es.foldl Delivery.fanOut d).result, es.foldl Delivery.fanOut d, s') := by
  rcases Collector.deliver_cases host emulated es d s with ⟨d', s', hd, heq⟩ |
    ⟨pre, e, post, d', r, s₁, err, s₂, -, -, -, hm, -⟩
  · rw [← hd.eq_foldl]
    exact ⟨s', hd, heq⟩
  · obtain ⟨s', hok, -⟩ := h.modify e.fd r s₁
    rw [hm] at hok
    cases hok

/-- The table follows the registrations. -/
theorem table_modify (h : Obedient table host) {fd : Fd} {r : Registration} {s s' : σ}
    (hm : host.modify fd r s = (.ok (), s')) : table s' = (table s).register fd r := by
  obtain ⟨s'', hok, htable⟩ := h.modify fd r s
  rw [hm] at hok
  cases hok
  exact htable

/-- The end of an iteration does not concern the poller. -/
theorem table_finish (h : Obedient table host) (c : Collector σ) (wokeFd : Fd)
    (answer : Except Error Unit) (s : σ) :
    table (Collector.finish host c wokeFd answer s).state = table s := by
  unfold Collector.finish
  cases answer with
  | error e => rfl
  | ok u =>
    dsimp only
    rw [h.log]
    split
    · rfl
    · rw [h.log, h.drain]

end Obedient

end Poller

end Readiness
