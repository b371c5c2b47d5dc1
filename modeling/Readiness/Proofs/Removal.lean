import Readiness.Proofs.Poller.Rearming

namespace Readiness

/-!
# Removals

A removal concerns one watch, its descriptor's registration, and nothing else.

* `Registry.Without` — what a registry is without one of its watches: the others and their order are
  as they were (`Enrolled.without_forget`);
* `Registry.Wants` — the registration that the armed watches of a descriptor ask for
  (`Collector.wants_registrationOf`);
* `Exchange.Narrows` — the call by which a poller is told that a descriptor has lost a watch
  (`Collector.removeCall_narrows`);
* `History.remove_exact` — a removal takes one watch out and makes this one call, or does nothing.
-/

variable {σ : Type} {host : Host σ}

/-! ### Registries without a watch -/

namespace Registry

/-- `r'` is `r` without the watch in slot `key`. -/
structure Without (r : Registry) (key : Nat) (r' : Registry) : Prop where
  /-- The watch is gone. -/
  gone : r'.watch? key = none
  /-- The other watches are as they were. -/
  watch?_eq : ∀ {k}, k ≠ key → r'.watch? k = r.watch? k
  /-- The other keys of every descriptor are listed in the order they were listed in. -/
  chain_eq : ∀ fd, r'.chain fd = (r.chain fd).filter fun k => k ≠ key
  /-- No list is left without a key. -/
  find?_ne_nil : ∀ fd, r'.chains.find? fd ≠ some []
  /-- There is one watch less. -/
  size_eq : r'.size + 1 = r.size
  /-- No version is handed out twice. -/
  nextVersion_eq : r'.nextVersion = r.nextVersion

/-- Forgetting a watch leaves the registry without it. -/
theorem Enrolled.without_forget {r : Registry} {roll : List Nat} (h : r.Enrolled roll) {key : Nat}
    {w : Watch} (hw : r.watch? key = some w) : r.Without key (r.forget key) where
  gone := by
    rw [watch?_forget, if_pos rfl]
  watch?_eq := by
    intro k hk
    rw [watch?_forget, if_neg hk]
  chain_eq := h.chain_forget_eq_filter hw
  find?_ne_nil := (h.forget key).find?_ne_nil
  size_eq := size_forget hw
  nextVersion_eq := nextVersion_forget r key

/-! ### What a poller is asked for -/

/-- `registration` is what the armed watches of `fd` ask a poller for, which may have no level mode. -/
structure Wants (r : Registry) (emulated : Bool) (fd : Fd) (registration : Registration) : Prop where
  key_eq : registration.key = fd.toKey
  readable_iff : registration.interest.readable = true ↔ r.Asks fd .read
  writable_iff : registration.interest.writable = true ↔ r.Asks fd .write
  closed_iff : registration.interest.closed = true ↔ r.Asks fd .closed
  level_iff : registration.mode = .level ↔ r.Asks fd .persist ∧ emulated = false

end Registry

/-- The registration of a collector is what its watches ask for. -/
theorem Collector.wants_registrationOf (c : Collector σ) {r : Registry} {roll : List Nat}
    (h : r.Enrolled roll) (fd : Fd) : r.Wants c.emulated fd (c.registrationOf r fd) where
  key_eq := rfl
  readable_iff := h.contains_armedMask_iff Mask.isFlag_read fd
  writable_iff := h.contains_armedMask_iff Mask.isFlag_write fd
  closed_iff := h.contains_armedMask_iff Mask.isFlag_closed fd
  level_iff := h.effective_armedMask_iff c.emulated fd

/-- By this exchange a poller is told that the watches of `fd` in `r` are all that are left: the
    registration ends if there is none, and otherwise becomes what they ask for. -/
def Exchange.Narrows (r : Registry) (emulated : Bool) (fd : Fd) (answer : Except SystemError Unit)
    (x : Exchange) : Prop :=
  ((∀ key w, r.watch? key = some w → w.fd ≠ fd) ∧ x = .delete fd answer) ∨
  ((∃ key w, r.watch? key = some w ∧ w.fd = fd) ∧
    ∃ registration, r.Wants emulated fd registration ∧ x = .modify fd registration answer)

/-- The call of a removal narrows the registration of its descriptor. -/
theorem Collector.removeCall_narrows (host : Host σ) (c : Collector (Traced σ)) {r : Registry}
    {roll : List Nat} (h : r.Enrolled roll) {fd : Fd} {t t' : Traced σ}
    {answer : Except SystemError Unit} (hcall : c.removeCall host.traced r fd t = (answer, t')) :
    ∃ x, t'.trace = t.trace ++ [x] ∧ x.Narrows r c.emulated fd answer := by
  unfold removeCall at hcall
  by_cases hnil : r.chain fd = []
  · rw [if_pos hnil] at hcall
    refine ⟨_, (Traced.of_note hcall).2, Or.inl ⟨fun key w hw hfd => ?_, rfl⟩⟩
    have hmem : key ∈ r.chain fd := h.mem_chain_iff.mpr ⟨w, hw, hfd⟩
    rw [hnil] at hmem
    cases hmem
  · rw [if_neg hnil] at hcall
    obtain ⟨key, hmem⟩ := List.exists_mem_of_ne_nil _ hnil
    exact ⟨_, (Traced.of_note hcall).2,
      Or.inr ⟨⟨key, h.mem_chain_iff.mp hmem⟩, _, c.wants_registrationOf h fd, rfl⟩⟩

/-! ### Every history -/

/-- **A removal takes out exactly one watch, or does nothing.**  After any history, if the slot of the
    token holds a watch of its version, just that watch is gone, and all else of the collector is as it
    was.  The poller is asked once, to narrow the registration of the descriptor, and its answer is that
    of the removal; the watch is gone whatever it is.  If not, the token is invalid, and neither the
    collector nor its surroundings change. -/
theorem History.remove_exact {allowed : Action (Traced σ) → Traced σ → Traced σ → Prop}
    {acts : List (Action (Traced σ))} {c : Collector (Traced σ)} {t : Traced σ}
    (h : History host.traced allowed acts c t) (token : Token) :
    (∀ w, c.registry.watch? token.key = some w → w.version = token.version →
      ∃ r t' answer x,
        c.remove host.traced token t = ⟨answer.mapError .io, { c with registry := r }, t'⟩ ∧
        c.registry.Without token.key r ∧
        t'.trace = t.trace ++ [x] ∧ x.Narrows r c.emulated w.fd answer) ∧
    ((∀ w, c.registry.watch? token.key = some w → w.version ≠ token.version) →
      c.remove host.traced token t = ⟨.error .invalidToken, c, t⟩) := by
  have hfind : ∀ {w}, c.registry.find? token = some w ↔
      c.registry.watch? token.key = some w ∧ w.version = token.version := by
    intro w
    unfold Registry.find?
    rw [Option.filter_eq_some_iff, decide_eq_true_eq]
  constructor
  · intro w hw hv
    rcases c.remove_cases host.traced token t with ⟨hnone, -⟩ | ⟨w', answer, t', hf, hcall, heq⟩
    · rw [hfind.mpr ⟨hw, hv⟩] at hnone
      cases hnone
    · rw [hfind.mpr ⟨hw, hv⟩] at hf
      cases hf
      obtain ⟨x, htrace, hx⟩ :=
        c.removeCall_narrows host (h.enrolled.forget token.key) hcall
      exact ⟨_, t', answer, x, heq, h.enrolled.without_forget hw, htrace, hx⟩
  · intro hnot
    rcases c.remove_cases host.traced token t with ⟨-, heq⟩ | ⟨w, answer, t', hf, -, -⟩
    · exact heq
    · obtain ⟨hw, hv⟩ := hfind.mp hf
      exact absurd hv (hnot w hw)

open Scenario in
/-- Descriptor 5 has a reader and a persistent writer.  The reader is removed and the poller refuses to
    narrow the registration: the reader is gone all the same, and its token is worth nothing. -/
theorem remove_exact_refused :
    ∃ (c : Collector (Traced World)) (t t' : Traced World) (r : Registry),
      History (World.host 0).traced anything
        [.add 5 .read (.ok ⟨0, 0⟩), .add 5 (.write ∪ .persist) (.ok ⟨1, 1⟩)] c t ∧
      c.remove (World.host 0).traced ⟨0, 0⟩ t =
        ⟨.error (.io (.os 22)), { c with registry := r }, t'⟩ ∧
      c.registry.Without 0 r ∧ r.Wants c.emulated 5 ⟨5, ⟨false, true, false⟩, .level⟩ ∧
      t'.trace = t.trace ++ [.modify 5 ⟨5, ⟨false, true, false⟩, .level⟩ (.error (.os 22))] ∧
      ({ c with registry := r } : Collector (Traced World)).remove (World.host 0).traced ⟨0, 0⟩ t' =
        ⟨.error .invalidToken, { c with registry := r }, t'⟩ := by
  have h₀ : History (World.host 0).traced anything [] _ _ :=
    .create (show Collector.create (World.host 0).traced (Buffer.ofCapacity 1) default
      ⟨World.refusing true [0, 0, 22] [], []⟩ = (.ok _, _) from rfl)
  have h₁ := h₀.step (.add 5 .read _ _) trivial
  have h₂ := h₁.step (.add 5 (.write ∪ .persist) _ _) trivial
  have h₃ := h₂.step (.remove ⟨0, 0⟩ _ _) trivial
  obtain ⟨r, t', answer, x, heq, hr, htrace, hx⟩ :=
    (h₂.remove_exact ⟨0, 0⟩).1 ⟨5, .read, 0, true⟩ rfl rfl
  have hagain := (h₃.remove_exact ⟨0, 0⟩).2
  rw [heq] at hagain
  -- What the removal came to can also be computed.
  obtain ⟨rfl, hlast⟩ : answer = .error (.os 22) ∧
      x = .modify 5 ⟨5, ⟨false, true, false⟩, .level⟩ (.error (.os 22)) := by
    have hanswer : .error (.io (.os 22)) = answer.mapError Error.io :=
      congrArg Outcome.answer heq
    have hstate : _ ++ [Exchange.modify 5 ⟨5, ⟨false, true, false⟩, .level⟩ (.error (.os 22))] =
        _ ++ [x] := (congrArg (fun o => o.state.trace) heq).trans htrace
    refine ⟨?_, (List.singleton_inj.mp (List.append_cancel_left hstate)).symm⟩
    cases answer with
    | error e =>
      cases hanswer
      rfl
    | ok u => cases hanswer
  refine ⟨_, _, t', r, h₂, heq, hr, ?_, hlast ▸ htrace, hagain fun w hw => ?_⟩
  · rw [hlast] at hx
    rcases hx with ⟨-, hx⟩ | ⟨-, registration, hwants, hx⟩
    · cases hx
    · cases hx
      exact hwants
  · rw [show _ = none from hr.gone] at hw
    cases hw

end Readiness
