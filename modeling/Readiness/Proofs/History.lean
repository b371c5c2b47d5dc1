import Readiness.Proofs.Iteration

namespace Readiness

/-!
# Histories of a collector

A history is what can happen to a collector from its creation on: any operations in any order, on a
host that may answer anything.

* `Action` — one operation with its answer;
* `Step` — what an operation leads to;
* `History host allowed acts c s` — the actions `acts` led a new collector to `c` and its host to
  `s`.  The relation `allowed` may restrict the steps; `anything` restricts none;
* `roll acts` — the keys of the live watches in the order in which they were added, read off the
  actions alone.  `History.enrolled` says that this is the roll of the registry, and
  `History.versioned` that versions follow it as long as the counter has not wrapped.
-/

variable {σ : Type}

/-! ### Actions and steps -/

/-- An operation of a collector, with its answer. -/
inductive Action (σ : Type) where
  | add (fd : Fd) (mask : Mask) (answer : Except Error Token)
  | remove (token : Token) (answer : Except Error Unit)
  | resize (buffer : Buffer)
  | setHook (hook : WaitHook σ)
  | run (wakeFd wokeFd : Fd) (timeout : Timeout) (answer : Except Error Nat)

/-- Whether an action tried to add a watch. -/
def Action.isAdd : Action σ → Bool
  | .add _ _ _ => true
  | _ => false

/-- What an operation leads to.  A run leads nowhere if it goes on for ever. -/
inductive Step (host : Host σ) : Action σ → Collector σ → σ → Collector σ → σ → Prop where
  | add (fd : Fd) (mask : Mask) (c : Collector σ) (s : σ) :
      Step host (.add fd mask (c.add host fd mask s).answer) c s
        (c.add host fd mask s).collector (c.add host fd mask s).state
  | remove (t : Token) (c : Collector σ) (s : σ) :
      Step host (.remove t (c.remove host t s).answer) c s
        (c.remove host t s).collector (c.remove host t s).state
  | resize (b : Buffer) (c : Collector σ) (s : σ) :
      Step host (.resize b) c s (c.resize host b s).collector (c.resize host b s).state
  | setHook (hook : WaitHook σ) (c : Collector σ) (s : σ) :
      Step host (.setHook hook) c s (c.setHook hook) s
  | run {c : Collector σ} {s : σ} {wakeFd wokeFd : Fd} {timeout : Timeout} {waits : Nat}
      {o : Outcome σ Nat} (ho : c.run host wakeFd wokeFd timeout waits s = some o) :
      Step host (.run wakeFd wokeFd timeout o.answer) c s o.collector o.state

/-- The states a new collector and its host can come to by steps that are allowed. -/
inductive History (host : Host σ) (allowed : Action σ → σ → σ → Prop) :
    List (Action σ) → Collector σ → σ → Prop where
  | create {buffer : Buffer} {timeUnit : TimeUnit} {s s' : σ} {c : Collector σ}
      (hc : Collector.create host buffer timeUnit s = (.ok c, s')) : History host allowed [] c s'
  | step {acts : List (Action σ)} {a : Action σ} {c c' : Collector σ} {s s' : σ}
      (h : History host allowed acts c s) (hs : Step host a c s c' s') (ha : allowed a s s') :
      History host allowed (acts ++ [a]) c' s'

/-- The relation that allows every step. -/
def anything (_ : Action σ) (_ _ : σ) : Prop := True

/-- A history with steps that are allowed is one with steps that a wider relation allows. -/
theorem History.mono {host : Host σ} {allowed allowed' : Action σ → σ → σ → Prop}
    (hmono : ∀ {a s s'}, allowed a s s' → allowed' a s s') {acts : List (Action σ)}
    {c : Collector σ} {s : σ} (h : History host allowed acts c s) :
    History host allowed' acts c s := by
  induction h with
  | create hc => exact .create hc
  | step _ hs ha ih => exact ih.step hs (hmono ha)

/-! ### What the operations do to a collector -/

namespace Collector

variable {host : Host σ}

/-- A new collector has no watches and no hook. -/
theorem create_eq {buffer : Buffer} {timeUnit : TimeUnit} {s s' : σ} {c : Collector σ}
    (hc : create host buffer timeUnit s = (.ok c, s')) :
    c.registry = ∅ ∧ c.buffer = buffer ∧ c.hook = .none := by
  unfold create at hc
  split at hc
  · cases hc
  · cases hc
    exact ⟨rfl, rfl, rfl⟩

/-- The call that registers `fd` for a watch with this mask. -/
def addCall (host : Host σ) (c : Collector σ) (fd : Fd) (mask : Mask) :
    σ → Except SystemError Unit × σ :=
  (if ((c.registry.insert fd mask).chain fd).length = 1 then host.add else host.modify) fd
    (c.registrationOf (c.registry.insert fd mask) fd)

/-- **Inversion of an addition.**  The poller refused the watch, which is forgotten again, or took
    it. -/
theorem add_cases (host : Host σ) (c : Collector σ) (fd : Fd) (mask : Mask) (s : σ) :
    (∃ e s', c.addCall host fd mask s = (.error e, s') ∧
      c.add host fd mask s =
        ⟨.error (.io e), { c with
          registry := (c.registry.insert fd mask).forget c.registry.slots.nextKey }, s'⟩) ∨
    (∃ s', c.addCall host fd mask s = (.ok (), s') ∧
      c.add host fd mask s =
        ⟨.ok c.registry.nextToken, { c with registry := c.registry.insert fd mask },
          host.log (.watching fd mask) s'⟩) := by
  rcases hcall : c.addCall host fd mask s with ⟨e | u, s'⟩
  · refine Or.inl ⟨e, s', rfl, ?_⟩
    unfold addCall at hcall
    unfold add
    dsimp only
    rw [hcall]
    rfl
  · refine Or.inr ⟨s', rfl, ?_⟩
    unfold addCall at hcall
    unfold add
    dsimp only
    rw [hcall]

/-- The call that narrows the registration of `fd` to the watches in `r`, or ends it. -/
def removeCall (host : Host σ) (c : Collector σ) (r : Registry) (fd : Fd) :
    σ → Except SystemError Unit × σ :=
  if r.chain fd = [] then host.delete fd else host.modify fd (c.registrationOf r fd)

/-- **Inversion of a removal.**  The token names no watch and nothing happens, or its watch is
    forgotten whatever the poller says. -/
theorem remove_cases (host : Host σ) (c : Collector σ) (t : Token) (s : σ) :
    (c.registry.find? t = none ∧ c.remove host t s = ⟨.error .invalidToken, c, s⟩) ∨
    (∃ w a s', c.registry.find? t = some w ∧
      c.removeCall host (c.registry.forget t.key) w.fd (host.log (.unwatching w.fd) s) = (a, s') ∧
      c.remove host t s =
        ⟨a.mapError .io, { c with registry := c.registry.forget t.key }, s'⟩) := by
  unfold remove
  cases hf : c.registry.find? t with
  | none => exact Or.inl ⟨rfl, rfl⟩
  | some w =>
    have hcall : ∀ s, (if (c.registry.forget t.key).chain w.fd = [] then host.delete w.fd s
        else host.modify w.fd (c.registrationOf (c.registry.forget t.key) w.fd) s) =
          c.removeCall host (c.registry.forget t.key) w.fd s := by
      intro s
      unfold removeCall
      split <;> rfl
    rcases h : c.removeCall host (c.registry.forget t.key) w.fd (host.log (.unwatching w.fd) s)
      with ⟨a, s'⟩
    refine Or.inr ⟨w, a, s', rfl, h, ?_⟩
    dsimp only
    rw [hcall, h]

end Collector

/-- **Inversion of a step on the registry.**  It inserts a watch, inserts one and forgets it again,
    forgets one, lets watches fire, or does nothing. -/
theorem Step.registry_cases {host : Host σ} {a : Action σ} {c c' : Collector σ} {s s' : σ}
    (hs : Step host a c s c' s') :
    (∃ fd mask, a = .add fd mask (.ok c.registry.nextToken) ∧
      c'.registry = c.registry.insert fd mask) ∨
    (∃ fd mask e, a = .add fd mask (.error (.io e)) ∧
      c'.registry = (c.registry.insert fd mask).forget c.registry.slots.nextKey) ∨
    (∃ t, a = .remove t (.error .invalidToken) ∧ c.registry.find? t = none ∧
      c'.registry = c.registry) ∨
    (∃ t w answer, a = .remove t (Except.mapError .io answer) ∧ c.registry.find? t = some w ∧
      c'.registry = c.registry.forget t.key) ∨
    ((∃ b, a = .resize b) ∨ (∃ hook, a = .setHook hook) ∨
      (∃ wakeFd wokeFd timeout answer, a = .run wakeFd wokeFd timeout answer)) ∧
      c.registry.FiresTo c'.registry := by
  cases hs with
  | add fd mask =>
    rcases c.add_cases host fd mask s with ⟨e, s', -, h⟩ | ⟨s', -, h⟩
    · rw [h]
      exact Or.inr (Or.inl ⟨fd, mask, e, rfl, rfl⟩)
    · rw [h]
      exact Or.inl ⟨fd, mask, rfl, rfl⟩
  | remove t =>
    rcases c.remove_cases host t s with ⟨hf, h⟩ | ⟨w, answer, s', hf, -, h⟩
    · rw [h]
      exact Or.inr (Or.inr (Or.inl ⟨t, rfl, hf, rfl⟩))
    · rw [h]
      exact Or.inr (Or.inr (Or.inr (Or.inl ⟨t, w, answer, rfl, hf, rfl⟩)))
  | resize b =>
    exact Or.inr (Or.inr (Or.inr (Or.inr ⟨Or.inl ⟨b, rfl⟩, Registry.FiresTo.refl _⟩)))
  | setHook hook =>
    exact Or.inr (Or.inr (Or.inr (Or.inr ⟨Or.inr (Or.inl ⟨hook, rfl⟩), Registry.FiresTo.refl _⟩)))
  | run ho =>
    exact Or.inr (Or.inr (Or.inr (Or.inr
      ⟨Or.inr (Or.inr ⟨_, _, _, _, rfl⟩), (Collector.run_firesTo ho).1⟩)))

/-! ### The roll of a history -/

/-- The roll after an action: a watch that was taken is appended, and one that was removed, even if
    the poller failed, is dropped. -/
def Action.enroll : List Nat → Action σ → List Nat
  | keys, .add _ _ (.ok t) => keys ++ [t.key]
  | keys, .remove _ (.error .invalidToken) => keys
  | keys, .remove t _ => keys.filter fun k => k ≠ t.key
  | keys, _ => keys

/-- The keys of the watches that are live after these actions, in the order of addition. -/
def roll (acts : List (Action σ)) : List Nat := acts.foldl Action.enroll []

/-- How many of the actions tried to add a watch. -/
def additions (acts : List (Action σ)) : Nat := acts.countP Action.isAdd

theorem roll_append (acts : List (Action σ)) (a : Action σ) :
    roll (acts ++ [a]) = a.enroll (roll acts) :=
  List.foldl_append

theorem additions_append (acts : List (Action σ)) (a : Action σ) :
    additions (acts ++ [a]) = additions acts + if a.isAdd then 1 else 0 := by
  unfold additions
  rw [List.countP_append, List.countP_singleton]

theorem Action.enroll_remove (keys : List Nat) (t : Token) (answer : Except SystemError Unit) :
    (Action.remove (σ := σ) t (answer.mapError .io)).enroll keys =
      keys.filter fun k => k ≠ t.key := by
  cases answer <;> rfl

/-- A step keeps the roll. -/
theorem Step.enrolled {host : Host σ} {a : Action σ} {c c' : Collector σ} {s s' : σ}
    (hs : Step host a c s c' s') {keys : List Nat} (he : c.registry.Enrolled keys) :
    c'.registry.Enrolled (a.enroll keys) := by
  rcases hs.registry_cases with ⟨fd, mask, rfl, h⟩ | ⟨fd, mask, e, rfl, h⟩ | ⟨t, rfl, -, h⟩ |
    ⟨t, w, answer, rfl, -, h⟩ | ⟨ha, h⟩
  · rw [h]
    exact he.insert fd mask
  · -- The poller refused the watch, whose key leaves the roll again.
    have hforget := (he.insert fd mask).forget c.registry.slots.nextKey
    rw [he.filter_append_nextKey] at hforget
    rw [h]
    exact hforget
  · rw [h]
    exact he
  · rw [h, Action.enroll_remove]
    exact he.forget t.key
  · have hkeys : a.enroll keys = keys := by
      rcases ha with ⟨b, rfl⟩ | ⟨hook, rfl⟩ | ⟨wakeFd, wokeFd, timeout, answer, rfl⟩ <;> rfl
    rw [hkeys]
    exact h.enrolled he

/-- A step keeps the versions in step with the roll, until the counter wraps. -/
theorem Step.versioned {host : Host σ} {a : Action σ} {c c' : Collector σ} {s s' : σ}
    (hs : Step host a c s c' s') {keys : List Nat} {n : Nat} (he : c.registry.Enrolled keys)
    (hv : c.registry.Versioned keys n) (hn : n + (if a.isAdd then 1 else 0) < 2 ^ 32) :
    c'.registry.Versioned (a.enroll keys) (n + if a.isAdd then 1 else 0) := by
  rcases hs.registry_cases with ⟨fd, mask, rfl, h⟩ | ⟨fd, mask, e, rfl, h⟩ | ⟨t, rfl, -, h⟩ |
    ⟨t, w, answer, rfl, -, h⟩ | ⟨ha, h⟩
  · rw [h]
    exact hv.insert he hn fd mask
  · -- A refused watch has taken a version all the same.
    have hforget := (hv.insert he hn fd mask).forget c.registry.slots.nextKey
    rw [he.filter_append_nextKey] at hforget
    rw [h]
    exact hforget
  · rw [h]
    exact hv
  · rw [h, Action.enroll_remove]
    exact hv.forget t.key
  · have hkeys : a.enroll keys = keys ∧ a.isAdd = false := by
      rcases ha with ⟨b, rfl⟩ | ⟨hook, rfl⟩ | ⟨wakeFd, wokeFd, timeout, answer, rfl⟩ <;>
        exact ⟨rfl, rfl⟩
    rw [hkeys.1, hkeys.2]
    exact h.versioned hv

namespace History

variable {host : Host σ} {allowed : Action σ → σ → σ → Prop} {acts : List (Action σ)}
  {c : Collector σ} {s : σ}

/-- **The roll of a history is the roll of its registry.** -/
theorem enrolled (h : History host allowed acts c s) : c.registry.Enrolled (roll acts) := by
  induction h with
  | create hc =>
    rw [(Collector.create_eq hc).1]
    exact Registry.enrolled_empty
  | step _ hs _ ih =>
    rw [roll_append]
    exact hs.enrolled ih

/-- **Versions follow the roll** as long as fewer than `2 ^ 32` watches were tried. -/
theorem versioned (h : History host allowed acts c s) (hn : additions acts < 2 ^ 32) :
    c.registry.Versioned (roll acts) (additions acts) := by
  induction h with
  | create hc =>
    rw [(Collector.create_eq hc).1]
    exact Registry.versioned_empty
  | step hist hs _ ih =>
    rw [additions_append] at hn
    rw [roll_append, additions_append]
    exact hs.versioned hist.enrolled (ih (by omega)) hn

end History

end Readiness
