import Readiness.Proofs.History

namespace Readiness

/-!
# Collectors in changing surroundings

Between two operations the system around a collector goes on: a peer writes, another thread sends a
wake.

* `Course host lawful meanwhile c s` — a new collector and its host came to `c` and `s` by any
  operations in any order, with hooks that are `lawful`, and by changes of the host that `meanwhile`
  admits;
* `Course.hook_lawful` — the hook is lawful at every point of a course;
* `Course.enrolled` and `Course.vigilant` — the registry is in order, and watches that persist are
  armed.
-/

variable {σ : Type} {host : Host σ} {lawful : WaitHook σ → Prop} {meanwhile : σ → σ → Prop}

/-! ### Courses -/

/-- Whether an action keeps the hook lawful. -/
def Action.Lawful (lawful : WaitHook σ → Prop) : Action σ → Prop
  | .setHook hook => lawful hook
  | _ => True

/-- The states a new collector and its host can come to by operations and by what happens
    meanwhile. -/
inductive Course (host : Host σ) (lawful : WaitHook σ → Prop) (meanwhile : σ → σ → Prop) :
    Collector σ → σ → Prop where
  | create {buffer : Buffer} {timeUnit : TimeUnit} {s s' : σ} {c : Collector σ}
      (hc : Collector.create host buffer timeUnit s = (.ok c, s')) :
      Course host lawful meanwhile c s'
  | step {a : Action σ} {c c' : Collector σ} {s s' : σ} (h : Course host lawful meanwhile c s)
      (hs : Step host a c s c' s') (ha : a.Lawful lawful) : Course host lawful meanwhile c' s'
  | elapse {c : Collector σ} {s s' : σ} (h : Course host lawful meanwhile c s)
      (hm : meanwhile s s') : Course host lawful meanwhile c s'

/-! ### Hooks -/

/-- A step exchanges the hook for one that is lawful, or keeps it. -/
theorem Step.hook_lawful {a : Action σ} {c c' : Collector σ} {s s' : σ} (hs : Step host a c s c' s')
    (ha : a.Lawful lawful) (hc : lawful c.hook) : lawful c'.hook := by
  cases hs with
  | add fd mask =>
    rcases c.add_cases host fd mask s with ⟨e, s', -, h⟩ | ⟨s', -, h⟩
    · rw [h]
      exact hc
    · rw [h]
      exact hc
  | remove t =>
    rcases c.remove_cases host t s with ⟨-, h⟩ | ⟨w, a, s', -, -, h⟩
    · rw [h]
      exact hc
    · rw [h]
      exact hc
  | resize b => exact hc
  | setHook hook => exact ha
  | run ho =>
    rw [(Collector.run_firesTo ho).2]
    exact hc

theorem Course.hook_lawful {c : Collector σ} {s : σ} (h : Course host lawful meanwhile c s)
    (hnone : lawful .none) : lawful c.hook := by
  induction h with
  | create hc =>
    rw [(Collector.create_eq hc).2.2]
    exact hnone
  | step _ hs ha ih => exact hs.hook_lawful ha ih
  | elapse _ _ ih => exact ih

/-! ### Watches -/

theorem Course.enrolled {c : Collector σ} {s : σ} (h : Course host lawful meanwhile c s) :
    ∃ roll, c.registry.Enrolled roll := by
  induction h with
  | create hc =>
    rw [(Collector.create_eq hc).1]
    exact ⟨[], Registry.enrolled_empty⟩
  | step _ hs _ ih =>
    obtain ⟨roll, he⟩ := ih
    exact ⟨_, hs.enrolled he⟩
  | elapse _ _ ih => exact ih

/-- Watches that persist are armed. -/
structure Registry.Vigilant (r : Registry) : Prop where
  armed : ∀ {key w}, r.watch? key = some w → w.mask.isPersistent = true → w.armed = true

namespace Registry.Vigilant

variable {r r' : Registry}

theorem insert (h : r.Vigilant) (fd : Fd) (mask : Mask) : (r.insert fd mask).Vigilant where
  armed := by
    intro key w hw hp
    rw [watch?_insert] at hw
    split at hw
    · cases hw
      rfl
    · exact h.armed hw hp

theorem forget (h : r.Vigilant) (key : Nat) : (r.forget key).Vigilant where
  armed := by
    intro k w hw hp
    rw [watch?_forget] at hw
    split at hw
    · cases hw
    · exact h.armed hw hp

/-- Only watches that do not persist are disarmed. -/
theorem firesTo (h : r.Vigilant) (hf : r.FiresTo r') : r'.Vigilant where
  armed := by
    intro key w hw hp
    rcases hf.watch?_eq key with heq | ⟨v, hv, hvp, heq⟩
    · exact h.armed (heq ▸ hw) hp
    · rw [heq] at hw
      cases hw
      rw [show v.mask.isPersistent = true from hp] at hvp
      cases hvp

end Registry.Vigilant

theorem Step.vigilant {a : Action σ} {c c' : Collector σ} {s s' : σ} (hs : Step host a c s c' s')
    (hv : c.registry.Vigilant) : c'.registry.Vigilant := by
  rcases hs.registry_cases with ⟨fd, mask, -, h⟩ | ⟨fd, mask, e, -, h⟩ | ⟨t, -, -, h⟩ |
    ⟨t, w, answer, -, -, h⟩ | ⟨-, h⟩
  · rw [h]
    exact hv.insert fd mask
  · rw [h]
    exact (hv.insert fd mask).forget _
  · rw [h]
    exact hv
  · rw [h]
    exact hv.forget t.key
  · exact hv.firesTo h

/-- **Watches that persist are armed** at every point of a course. -/
theorem Course.vigilant {c : Collector σ} {s : σ} (h : Course host lawful meanwhile c s) :
    c.registry.Vigilant := by
  induction h with
  | create hc =>
    rw [(Collector.create_eq hc).1]
    exact ⟨fun hw => nomatch hw⟩
  | step _ hs _ ih => exact hs.vigilant ih
  | elapse _ _ ih => exact ih

end Readiness
