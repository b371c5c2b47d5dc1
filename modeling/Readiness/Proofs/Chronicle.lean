import Readiness.Proofs.Deposits
import Readiness.Proofs.Tokens

namespace Readiness

/-!
# Chronicles

A chronicle is a history together with all that its runs have deposited, and for whom.  Slots are
reused and versions wrap, so a watch is named by the number of the addition that made it.

* `residents acts` — the live watches with the numbers of their additions, read off the actions
  alone;
* `Chronicle host acts log c s` — the actions led to `c` and `s`, and `log` lists what each of them
  deposited.  `History.exists_chronicle` says that every history has one;
* `Chronicle.reports_at_most_once` — a watch that does not persist reports once at most, and its
  flag says whether it has;
* `Chronicle.silent_once_removed` — a watch that was removed is never reported again.

Both hold for any answers of the poller, and for any number of additions.
-/

variable {σ : Type} {host : Host σ}

/-! ### Residents -/

/-- The residents after an action, which has the number `n` if it is an addition: who was cancelled
    moves out, who was granted moves in. -/
def Action.lodge (n : Nat) (xs : List (Nat × Grant)) (a : Action σ) : List (Nat × Grant) :=
  (xs.filter fun x => a.cancelled? ≠ some x.2.token) ++ a.grant?.toList.map fun g => (n, g)

/-- The residents after these actions, if there were `xs` after `n` additions. -/
def residentsFrom : Nat → List (Nat × Grant) → List (Action σ) → List (Nat × Grant)
  | _, xs, [] => xs
  | n, xs, a :: acts => residentsFrom (n + if a.isAdd then 1 else 0) (a.lodge n xs) acts

/-- The grants that were not cancelled since, each with the number of its addition. -/
def residents (acts : List (Action σ)) : List (Nat × Grant) := residentsFrom 0 [] acts

/-- Who moves in or stays. -/
theorem Action.mem_lodge_iff {n : Nat} {xs : List (Nat × Grant)} {a : Action σ} {x : Nat × Grant} :
    x ∈ a.lodge n xs ↔
      (x ∈ xs ∧ a.cancelled? ≠ some x.2.token) ∨ (x.1 = n ∧ a.grant? = some x.2) := by
  obtain ⟨m, g⟩ := x
  unfold lodge
  rw [List.mem_append, List.mem_filter, decide_eq_true_eq, List.mem_map]
  refine or_congr_right ?_
  constructor
  · rintro ⟨g', hg', heq⟩
    cases heq
    exact ⟨rfl, Option.mem_toList.mp hg'⟩
  · rintro ⟨rfl, hg⟩
    exact ⟨g, Option.mem_toList.mpr hg, rfl⟩

theorem residentsFrom_append (n : Nat) (xs : List (Nat × Grant)) (acts : List (Action σ))
    (a : Action σ) :
    residentsFrom n xs (acts ++ [a]) = a.lodge (n + additions acts) (residentsFrom n xs acts) := by
  induction acts generalizing n xs with
  | nil => rfl
  | cons b acts ih =>
    have hcount : additions (b :: acts) = (if b.isAdd then 1 else 0) + additions acts := by
      unfold additions
      rw [List.countP_cons, Nat.add_comm]
    rw [hcount, ← Nat.add_assoc]
    exact ih _ _

theorem residents_append (acts : List (Action σ)) (a : Action σ) :
    residents (acts ++ [a]) = a.lodge (additions acts) (residents acts) := by
  unfold residents
  rw [residentsFrom_append, Nat.zero_add]

/-- Without their numbers, the residents are the ledger. -/
theorem map_snd_residents (acts : List (Action σ)) :
    (residents acts).map Prod.snd = ledger acts := by
  induction acts using List.reverseRecOn with
  | nil => rfl
  | append_singleton acts a ih =>
    rw [residents_append, ledger_append, ← ih]
    unfold Action.lodge Action.book
    rw [List.map_append, List.filter_map, List.map_map]
    congr 1
    exact List.map_id _

/-- An addition that hands out a token is an attempt that did. -/
theorem Action.attempt?_of_grant? {a : Action σ} {g : Grant} (hg : a.grant? = some g) :
    a.attempt? = some (some g) := by
  cases a with
  | add fd mask answer => exact congrArg some hg
  | _ => cases hg

/-- A resident was granted by the addition with its number. -/
theorem attempt_of_mem_residents {acts : List (Action σ)} {n : Nat} {g : Grant}
    (h : (n, g) ∈ residents acts) : (attempts acts)[n]? = some (some g) := by
  induction acts using List.reverseRecOn with
  | nil => cases h
  | append_singleton acts a ih =>
    rw [residents_append, Action.mem_lodge_iff] at h
    rw [attempts_append]
    rcases h with ⟨h, -⟩ | ⟨rfl, hg⟩
    · have hlt := (List.getElem?_eq_some_iff.mp (ih h)).1
      rw [List.getElem?_append_left hlt]
      exact ih h
    · show (attempts acts ++ _)[additions acts]? = _
      rw [← length_attempts, List.getElem?_append_right (Nat.le_refl _), Nat.sub_self,
        Action.attempt?_of_grant? hg]
      rfl

/-- The additions still to come have no residents. -/
theorem notMem_residents_of_le {acts : List (Action σ)} {n : Nat} (hn : additions acts ≤ n)
    (g : Grant) : (n, g) ∉ residents acts := by
  intro h
  have hlt := (List.getElem?_eq_some_iff.mp (attempt_of_mem_residents h)).1
  rw [length_attempts] at hlt
  omega

/-- Who is not resident, though the addition with this number is over, never is again. -/
theorem notMem_residents_append {pre : List (Action σ)} {n : Nat} (hn : n < additions pre)
    (h : ∀ g, (n, g) ∉ residents pre) (post : List (Action σ)) (g : Grant) :
    (n, g) ∉ residents (pre ++ post) := by
  induction post using List.reverseRecOn with
  | nil =>
    rw [List.append_nil]
    exact h g
  | append_singleton post a ih =>
    have hle : additions pre ≤ additions (pre ++ post) := by
      unfold additions
      rw [List.countP_append]
      exact Nat.le_add_right _ _
    rw [← List.append_assoc, residents_append, Action.mem_lodge_iff]
    rintro (⟨hmem, -⟩ | ⟨heq, -⟩)
    · exact ih hmem
    · have hlt : n < additions (pre ++ post) := Nat.lt_of_lt_of_le hn hle
      omega

/-- Once its token was cancelled, a watch is not resident any more. -/
theorem notMem_residents_of_cancelled {pre : List (Action σ)} {a : Action σ} {n : Nat} {g : Grant}
    (hg : (attempts pre)[n]? = some (some g)) (ha : a.cancelled? = some g.token)
    (post : List (Action σ)) (g' : Grant) : (n, g') ∉ residents (pre ++ a :: post) := by
  have hn : n < additions pre := by
    rw [← length_attempts]
    exact (List.getElem?_eq_some_iff.mp hg).1
  have hgone : ∀ g', (n, g') ∉ residents (pre ++ [a]) := by
    intro g' h
    rw [residents_append, Action.mem_lodge_iff] at h
    rcases h with ⟨hmem, hkeep⟩ | ⟨heq, -⟩
    · -- The number belongs to one grant only.
      have hg' := attempt_of_mem_residents hmem
      rw [hg] at hg'
      cases hg'
      exact hkeep ha
    · have heq' : n = additions pre := heq
      omega
  have hn' : n < additions (pre ++ [a]) := by
    rw [additions_append]
    omega
  rw [List.append_cons]
  exact notMem_residents_append hn' hgone post g'

/-- What is on the ledger was there before, or was granted since. -/
theorem mem_ledger_append {pre post : List (Action σ)} {g : Grant}
    (h : g ∈ ledger (pre ++ post)) : g ∈ ledger pre ∨ g ∈ grants post := by
  induction post using List.reverseRecOn with
  | nil =>
    rw [List.append_nil] at h
    exact Or.inl h
  | append_singleton post a ih =>
    rw [← List.append_assoc, ledger_append, Action.mem_book_iff] at h
    rw [grants_append, List.mem_append, Option.mem_toList]
    rcases h with ⟨h, -⟩ | hg
    · exact (ih h).imp_right Or.inl
    · exact Or.inr (Or.inr hg)

/-! ### Who lives in a slot -/

namespace History

variable {allowed : Action σ → σ → σ → Prop} {acts : List (Action σ)} {c : Collector σ} {s : σ}

/-- The slots of the ledger are the roll. -/
theorem map_key_ledger (h : History host allowed acts c s) :
    (ledger acts).map (fun g => g.token.key) = roll acts := by
  induction h with
  | create _ => rfl
  | step hist hs _ ih =>
    rename_i acts a c _ _ _ _
    rw [ledger_append, roll_append, ← ih]
    unfold Action.book
    rcases hs.registry_cases with ⟨fd, mask, rfl, -⟩ | ⟨fd, mask, e, rfl, -⟩ | ⟨t, rfl, -, -⟩ |
      ⟨t, w, answer, rfl, hf, -⟩ | ⟨⟨b, rfl⟩ | ⟨hook, rfl⟩ | ⟨_, _, _, _, rfl⟩, -⟩
    case inr.inr.inr.inl =>
      -- A resident with the slot of the token has the token.
      have hkey : ∀ g ∈ ledger acts, (g.token = t ↔ g.token.key = t.key) := by
        intro g hg
        refine ⟨fun heq => congrArg Token.key heq, fun hk => ?_⟩
        obtain ⟨armed, hw⟩ := (hist.ledgered g).mp hg
        obtain ⟨armed', hw'⟩ := Registry.holds_of_find? hf
        have hversion : g.token.version = t.version :=
          congrArg Watch.version (Option.some.inj (hw.symm.trans (hk ▸ hw')))
        exact congrArg₂ Token.mk hk hversion
      have hc : (Action.remove (σ := σ) t (answer.mapError .io)).cancelled? = some t ∧
          (Action.remove (σ := σ) t (answer.mapError .io)).grant? = none := by
        cases answer <;> exact ⟨rfl, rfl⟩
      rw [Action.enroll_remove, hc.1, hc.2, List.filter_map]
      simp only [Option.toList_none, List.append_nil]
      congr 1
      apply List.filter_congr
      intro g hg
      simp [← hkey g hg, eq_comm]
    all_goals simp [Action.cancelled?, Action.grant?, Action.enroll]

/-- No two residents share a slot. -/
theorem nodup_keys_residents (h : History host allowed acts c s) :
    ((residents acts).map fun x => x.2.token.key).Nodup := by
  have hmap : (residents acts).map (fun x => x.2.token.key) = roll acts := by
    rw [← h.map_key_ledger, ← map_snd_residents, List.map_map]
    rfl
  rw [hmap]
  exact h.enrolled.nodup

/-- Every live watch has a resident, whose grant it was made for. -/
theorem exists_resident (h : History host allowed acts c s) {key : Nat} {w : Watch}
    (hw : c.registry.watch? key = some w) :
    ∃ n g, (n, g) ∈ residents acts ∧ g.token = ⟨key, w.version⟩ ∧ g.fd = w.fd ∧
      g.mask = w.mask := by
  have hheld : c.registry.Holds ⟨⟨key, w.version⟩, w.fd, w.mask⟩ := ⟨w.armed, hw⟩
  have hmem := (h.ledgered _).mpr hheld
  rw [← map_snd_residents] at hmem
  obtain ⟨⟨n, g⟩, hx, rfl⟩ := List.mem_map.mp hmem
  exact ⟨n, _, hx, rfl, rfl, rfl⟩

end History

/-- The number of the addition whose watch lives in slot `key` after these actions. -/
def tenant? (acts : List (Action σ)) (key : Nat) : Option Nat :=
  ((residents acts).find? fun x => x.2.token.key = key).map Prod.fst

theorem History.tenant?_eq_some_iff {allowed : Action σ → σ → σ → Prop} {acts : List (Action σ)}
    {c : Collector σ} {s : σ} (h : History host allowed acts c s) {key n : Nat} :
    tenant? acts key = some n ↔ ∃ g, (n, g) ∈ residents acts ∧ g.token.key = key := by
  unfold tenant?
  rw [Option.map_eq_some_iff]
  constructor
  · rintro ⟨⟨m, g⟩, hfind, rfl⟩
    have hkey := List.find?_some hfind
    exact ⟨g, List.mem_of_find?_eq_some hfind, of_decide_eq_true hkey⟩
  · rintro ⟨g, hmem, rfl⟩
    refine ⟨(n, g), ?_, rfl⟩
    -- Some resident of the slot is found, and there is only one.
    obtain ⟨y, hy⟩ : ∃ y, (residents acts).find? (fun x => x.2.token.key = g.token.key) = some y :=
      Option.isSome_iff_exists.mp (List.find?_isSome.mpr ⟨(n, g), hmem, decide_eq_true rfl⟩)
    have hkey := List.find?_some hy
    have heq : y = (n, g) := List.inj_on_of_nodup_map h.nodup_keys_residents
      (List.mem_of_find?_eq_some hy) hmem (of_decide_eq_true hkey)
    rw [hy, heq]

/-! ### Chronicles -/

/-- A record that was pushed to the buffer, and the watch it was made for. -/
structure Deposit where
  /-- The number of the addition that made the watch. -/
  addition? : Option Nat
  /-- The record. -/
  record : Record
deriving DecidableEq, Inhabited

/-- Deposits under slots, with the numbers of the watches that live there. -/
def credit (acts : List (Action σ)) (F : List (Nat × Record)) : List Deposit :=
  F.map fun x => ⟨tenant? acts x.1, x.2⟩

/-- Whether an action ran an iteration. -/
def Action.isRun : Action σ → Bool
  | .run _ _ _ _ => true
  | _ => false

/-- A history, with the deposits that each of its actions made. -/
inductive Chronicle (host : Host σ) :
    List (Action σ) → List (List Deposit) → Collector σ → σ → Prop where
  | create {buffer : Buffer} {timeUnit : TimeUnit} {s s' : σ} {c : Collector σ}
      (hc : Collector.create host buffer timeUnit s = (.ok c, s')) : Chronicle host [] [] c s'
  /-- Only runs deposit anything. -/
  | operate {acts : List (Action σ)} {log : List (List Deposit)} {a : Action σ}
      {c c' : Collector σ} {s s' : σ} (h : Chronicle host acts log c s) (hs : Step host a c s c' s')
      (ha : a.isRun = false) : Chronicle host (acts ++ [a]) (log ++ [[]]) c' s'
  | run {acts : List (Action σ)} {log : List (List Deposit)} {c : Collector σ} {s : σ}
      {wakeFd wokeFd : Fd} {timeout : Timeout} {waits : Nat} {o : Outcome σ Nat}
      (h : Chronicle host acts log c s)
      (ho : c.run host wakeFd wokeFd timeout waits s = some o) :
      Chronicle host (acts ++ [.run wakeFd wokeFd timeout o.answer])
        (log ++ [credit acts (c.deposits host wakeFd timeout waits s)]) o.collector o.state

/-- How many records were ever deposited for the watch of the addition with number `n`. -/
def reports (log : List (List Deposit)) (n : Nat) : Nat :=
  log.flatten.countP fun x => x.addition? = some n

/-- Every history has a chronicle. -/
theorem History.exists_chronicle {allowed : Action σ → σ → σ → Prop} {acts : List (Action σ)}
    {c : Collector σ} {s : σ} (h : History host allowed acts c s) :
    ∃ log, Chronicle host acts log c s := by
  induction h with
  | create hc => exact ⟨[], .create hc⟩
  | step _ hs _ ih =>
    obtain ⟨log, h⟩ := ih
    cases hs with
    | run ho => exact ⟨_, h.run ho⟩
    | add fd mask => exact ⟨_, h.operate (.add fd mask _ _) rfl⟩
    | remove t => exact ⟨_, h.operate (.remove t _ _) rfl⟩
    | resize b => exact ⟨_, h.operate (.resize b _ _) rfl⟩
    | setHook hook => exact ⟨_, h.operate (.setHook hook _ _) rfl⟩

theorem reports_append (log : List (List Deposit)) (made : List Deposit) (n : Nat) :
    reports (log ++ [made]) n = reports log n + made.countP fun x => x.addition? = some n := by
  unfold reports
  rw [List.flatten_append, List.countP_append, List.flatten_singleton]

namespace Chronicle

variable {acts : List (Action σ)} {log : List (List Deposit)} {c : Collector σ} {s : σ}

/-- A chronicle is one of a history. -/
theorem history (h : Chronicle host acts log c s) : History host anything acts c s := by
  induction h with
  | create hc => exact .create hc
  | operate _ hs _ ih => exact ih.step hs trivial
  | run _ ho ih => exact ih.step (.run ho) trivial

/-- The deposits credited to a resident are those made under its slot. -/
theorem countP_credit (h : Chronicle host acts log c s) {n : Nat} {g : Grant}
    (hg : (n, g) ∈ residents acts) (F : List (Nat × Record)) :
    (credit acts F).countP (fun x => x.addition? = some n) =
      (F.map Prod.fst).count g.token.key := by
  unfold credit
  rw [List.countP_map, List.count_eq_countP, List.countP_map]
  apply List.countP_congr
  intro x _
  simp only [Function.comp_apply, decide_eq_true_eq, beq_iff_eq]
  rw [h.history.tenant?_eq_some_iff]
  constructor
  · rintro ⟨g', hg', hk⟩
    have heq := attempt_of_mem_residents hg
    rw [attempt_of_mem_residents hg'] at heq
    cases heq
    exact hk.symm
  · intro hk
    exact ⟨g, hg, hk.symm⟩

/-- Nothing is credited to anyone else. -/
theorem countP_credit_eq_zero (h : Chronicle host acts log c s) {n : Nat}
    (hn : ∀ g, (n, g) ∉ residents acts) (F : List (Nat × Record)) :
    (credit acts F).countP (fun x => x.addition? = some n) = 0 := by
  rw [List.countP_eq_zero]
  intro x hx hxn
  obtain ⟨y, -, rfl⟩ := List.mem_map.mp hx
  obtain ⟨g, hg, -⟩ := h.history.tenant?_eq_some_iff.mp (of_decide_eq_true hxn)
  exact hn g hg

end Chronicle

/-! ### Flags and reports -/

namespace Registry

variable {r : Registry} {key : Nat} {w : Watch}

/-- A live watch is not in the slot of the next insertion. -/
theorem ne_nextKey_of_watch? (hw : r.watch? key = some w) : key ≠ r.slots.nextKey := by
  rintro rfl
  have hnone : r.watch? r.slots.nextKey = none := Slots.get?_nextKey _
  rw [hnone] at hw
  cases hw

/-- So an insertion leaves the live watches alone. -/
theorem watch?_insert_of_some (hw : r.watch? key = some w) (fd : Fd) (mask : Mask) :
    (r.insert fd mask).watch? key = some w := by
  rw [watch?_insert, if_neg (ne_nextKey_of_watch? hw), hw]

/-- So does one that is taken back. -/
theorem watch?_forget_insert_of_some (hw : r.watch? key = some w) (fd : Fd) (mask : Mask) :
    ((r.insert fd mask).forget r.slots.nextKey).watch? key = some w := by
  rw [watch?_forget, if_neg (ne_nextKey_of_watch? hw), watch?_insert_of_some hw]

end Registry

namespace Step

variable {a : Action σ} {c c' : Collector σ} {s s' : σ}

/-- A step that runs no iteration leaves a watch alone, unless it cancels its token. -/
theorem watch?_of_isRun_eq_false (hs : Step host a c s c' s') (ha : a.isRun = false) {key : Nat}
    {w : Watch} (hw : c.registry.watch? key = some w) (hc : a.cancelled? ≠ some ⟨key, w.version⟩) :
    c'.registry.watch? key = some w := by
  cases hs with
  | add fd mask =>
    rcases c.add_cases host fd mask s with ⟨e, s', -, h⟩ | ⟨s', -, h⟩
    · rw [h]
      exact Registry.watch?_forget_insert_of_some hw fd mask
    · rw [h]
      exact Registry.watch?_insert_of_some hw fd mask
  | remove t =>
    rcases c.remove_cases host t s with ⟨-, h⟩ | ⟨v, answer, s', hf, -, h⟩
    · rw [h]
      exact hw
    · rw [h] at hc ⊢
      have hcancel : (Action.remove (σ := σ) t (answer.mapError .io)).cancelled? = some t := by
        cases answer <;> rfl
      have hne : key ≠ t.key := by
        rintro rfl
        obtain ⟨armed, hheld⟩ := Registry.holds_of_find? hf
        rw [show _ = _ from hheld] at hw
        cases hw
        exact hc hcancel
      show (c.registry.forget t.key).watch? key = some w
      rw [Registry.watch?_forget, if_neg hne, hw]
  | resize b => exact hw
  | setHook hook => exact hw
  | run ho => cases ha

/-- The watch an addition hands a token out for is armed. -/
theorem watch?_of_grant (hs : Step host a c s c' s') {g : Grant} (hg : a.grant? = some g) :
    c'.registry.watch? g.token.key = some ⟨g.fd, g.mask, g.token.version, true⟩ := by
  rcases hs.registry_cases with ⟨fd, mask, rfl, hr⟩ | ⟨fd, mask, e, rfl, -⟩ | ⟨t, rfl, -, -⟩ |
    ⟨t, w, answer, rfl, -, -⟩ | ⟨⟨b, rfl⟩ | ⟨hook, rfl⟩ | ⟨_, _, _, _, rfl⟩, -⟩
  case inl =>
    cases hg
    rw [hr, Registry.watch?_insert]
    exact if_pos rfl
  all_goals cases hg

/-- **No step arms a watch again.**  A disarmed watch stays as it is until it is removed. -/
theorem watch?_of_disarmed (hs : Step host a c s c' s') {key : Nat} {w : Watch}
    (hw : c.registry.watch? key = some w) (hd : w.armed = false) :
    c'.registry.watch? key = some w ∨ c'.registry.watch? key = none := by
  rcases hs.registry_cases with ⟨fd, mask, -, hr⟩ | ⟨fd, mask, e, -, hr⟩ | ⟨t, -, -, hr⟩ |
    ⟨t, v, answer, -, -, hr⟩ | ⟨-, hr⟩
  · rw [hr]
    exact Or.inl (Registry.watch?_insert_of_some hw fd mask)
  · rw [hr]
    exact Or.inl (Registry.watch?_forget_insert_of_some hw fd mask)
  · rw [hr]
    exact Or.inl hw
  · rw [hr, Registry.watch?_forget]
    by_cases hk : key = t.key
    · exact Or.inr (if_pos hk)
    · rw [if_neg hk]
      exact Or.inl hw
  · rcases hr.watch?_eq key with heq | ⟨v, hv, -, heq⟩
    · rw [heq]
      exact Or.inl hw
    · -- To disarm it once more changes nothing.
      rw [hw] at hv
      cases hv
      rw [heq, ← hd]
      exact Or.inl rfl

end Step

/-- The flags of the live watches say what was deposited for them, and no watch without the option
    to persist has reported twice. -/
structure Balanced (acts : List (Action σ)) (log : List (List Deposit)) (c : Collector σ) :
    Prop where
  /-- A resident is armed if it persists, or has not reported yet. -/
  watch?_eq : ∀ {n g}, (n, g) ∈ residents acts → c.registry.watch? g.token.key =
    some ⟨g.fd, g.mask, g.token.version, g.mask.isPersistent || reports log n = 0⟩
  /-- This holds of all watches there ever were. -/
  reports_le_one : ∀ {n g}, (attempts acts)[n]? = some (some g) → g.mask.isPersistent = false →
    reports log n ≤ 1
  /-- Nothing was deposited for watches that are still to come. -/
  reports_eq_zero : ∀ {n}, additions acts ≤ n → reports log n = 0

namespace Balanced

variable {acts : List (Action σ)} {log : List (List Deposit)} {c : Collector σ} {s : σ}

/-- A step that runs no iteration keeps the balance. -/
theorem operate (hb : Balanced acts log c) {a : Action σ} {c' : Collector σ} {s' : σ}
    (hs : Step host a c s c' s') (ha : a.isRun = false) :
    Balanced (acts ++ [a]) (log ++ [[]]) c' := by
  have hreports : ∀ n, reports (log ++ [[]]) n = reports log n := fun n => reports_append log [] n
  refine ⟨?_, ?_, ?_⟩
  · intro n g hg
    rw [residents_append, Action.mem_lodge_iff] at hg
    rw [hreports]
    rcases hg with ⟨hg, hkeep⟩ | ⟨hn, hg⟩
    · exact hs.watch?_of_isRun_eq_false ha (hb.watch?_eq hg) hkeep
    · have hzero : reports log n = 0 := hb.reports_eq_zero (Nat.le_of_eq hn.symm)
      rw [hs.watch?_of_grant hg, hzero, decide_eq_true rfl, Bool.or_true]
  · intro n g hg hp
    rw [hreports]
    rcases Nat.lt_or_ge n (attempts acts).length with hlt | hge
    · rw [attempts_append, List.getElem?_append_left hlt] at hg
      exact hb.reports_le_one hg hp
    · rw [length_attempts] at hge
      rw [hb.reports_eq_zero hge]
      exact Nat.zero_le 1
  · intro n hn
    rw [additions_append] at hn
    rw [hreports]
    exact hb.reports_eq_zero (Nat.le_trans (Nat.le_add_right _ _) hn)

/-- A run deposits nothing for a watch that does not persist and has reported, and one record at
    most if it has not. -/
theorem reports_add_deposits_le_one (hb : Balanced acts log c) {roll : List Nat}
    (he : c.registry.Enrolled roll) {n : Nat} {g : Grant} (hg : (n, g) ∈ residents acts)
    (hp : g.mask.isPersistent = false) {wakeFd : Fd} {timeout : Timeout} {waits : Nat} :
    reports log n +
      ((c.deposits host wakeFd timeout waits s).map Prod.fst).count g.token.key ≤ 1 := by
  have hw := hb.watch?_eq hg
  by_cases hzero : reports log n = 0
  · rw [hzero, Nat.zero_add]
    exact Collector.count_deposits_le_one he hw hp wakeFd timeout waits s
  · -- The watch is disarmed.
    have hnot : g.token.key ∉ (c.deposits host wakeFd timeout waits s).map Prod.fst := by
      intro hk
      obtain ⟨x, hx, hxk⟩ := List.mem_map.mp hk
      obtain ⟨w, hw', harmed, -⟩ := Collector.exists_watch_of_mem_deposits he hx
      rw [hxk, hw] at hw'
      cases hw'
      rw [hp, decide_eq_false hzero] at harmed
      cases harmed
    rw [List.count_eq_zero_of_not_mem hnot]
    exact hb.reports_le_one (attempt_of_mem_residents hg) hp

/-- A run keeps the balance: it disarms the watches it makes deposits for, unless they persist. -/
theorem run (hb : Balanced acts log c) (h : Chronicle host acts log c s) {wakeFd wokeFd : Fd}
    {timeout : Timeout} {waits : Nat} {o : Outcome σ Nat}
    (ho : c.run host wakeFd wokeFd timeout waits s = some o) :
    Balanced (acts ++ [.run wakeFd wokeFd timeout o.answer])
      (log ++ [credit acts (c.deposits host wakeFd timeout waits s)]) o.collector := by
  have he := h.history.enrolled
  have hresidents : ∀ n g, (n, g) ∈ residents (acts ++ [.run wakeFd wokeFd timeout o.answer]) ↔
      (n, g) ∈ residents acts := by
    intro n g
    rw [residents_append, Action.mem_lodge_iff]
    simp [Action.cancelled?, Action.grant?]
  have hattempts : attempts (acts ++ [Action.run wakeFd wokeFd timeout o.answer]) =
      attempts acts := by
    rw [attempts_append]
    exact List.append_nil _
  have hadditions : additions (acts ++ [Action.run wakeFd wokeFd timeout o.answer]) =
      additions acts := by
    rw [additions_append]
    rfl
  refine ⟨?_, ?_, ?_⟩
  · intro n g hg
    have hg' := (hresidents n g).mp hg
    rw [Collector.watch?_run he ho, hb.watch?_eq hg', Option.map_some, reports_append,
      h.countP_credit hg']
    unfold Watch.after Watch.spend
    by_cases hk : g.token.key ∈ (c.deposits host wakeFd timeout waits s).map Prod.fst
    · have hpos := List.count_pos_iff.mpr hk
      have hne : ¬ reports log n +
          ((c.deposits host wakeFd timeout waits s).map Prod.fst).count g.token.key = 0 := by omega
      rw [if_pos hk, decide_eq_false hne]
      cases g.mask.isPersistent <;> simp
    · rw [if_neg hk, List.count_eq_zero_of_not_mem hk, Nat.add_zero]
  · intro n g hg hp
    rw [hattempts] at hg
    rw [reports_append]
    by_cases hmem : ∃ g', (n, g') ∈ residents acts
    · obtain ⟨g', hmem⟩ := hmem
      have heq := attempt_of_mem_residents hmem
      rw [hg] at heq
      cases heq
      rw [h.countP_credit hmem]
      exact hb.reports_add_deposits_le_one he hmem hp
    · rw [h.countP_credit_eq_zero (fun g' hg' => hmem ⟨g', hg'⟩), Nat.add_zero]
      exact hb.reports_le_one hg hp
  · intro n hn
    rw [hadditions] at hn
    rw [reports_append, h.countP_credit_eq_zero (notMem_residents_of_le hn), Nat.add_zero]
    exact hb.reports_eq_zero hn

end Balanced

namespace Chronicle

variable {acts : List (Action σ)} {log : List (List Deposit)} {c : Collector σ} {s : σ}

/-- **Every chronicle is balanced.** -/
theorem balanced (h : Chronicle host acts log c s) : Balanced acts log c := by
  induction h with
  | create _ =>
    refine ⟨?_, ?_, fun _ => rfl⟩
    · intro n g hg
      cases hg
    · intro n g hg
      cases hg
  | operate _ hs ha ih => exact ih.operate hs ha
  | run h ho ih => exact ih.run h ho

/-- There is one entry for each action. -/
theorem length_log (h : Chronicle host acts log c s) : log.length = acts.length := by
  induction h with
  | create _ => rfl
  | operate _ _ _ ih => rw [List.length_append, List.length_append, ih]; rfl
  | run _ _ ih => rw [List.length_append, List.length_append, ih]; rfl

/-- **Every deposit is made for a resident**, under its descriptor. -/
theorem exists_resident_of_mem (h : Chronicle host acts log c s) {j : Nat} {made : List Deposit}
    (hj : log[j]? = some made) {x : Deposit} (hx : x ∈ made) :
    ∃ n g, (n, g) ∈ residents (acts.take j) ∧ x.addition? = some n ∧ x.record.fd = g.fd := by
  induction h with
  | create _ => cases hj
  | operate h _ _ ih =>
    rw [List.getElem?_append] at hj
    split at hj
    · next hlt =>
      rw [h.length_log] at hlt
      rw [List.take_append_of_le_length (Nat.le_of_lt hlt)]
      exact ih hj
    · -- The new entry is empty.
      have hmem := List.mem_of_getElem? hj
      rw [List.mem_singleton.mp hmem] at hx
      cases hx
  | run h ho ih =>
    rename_i log _ _ _ _ _ _ _
    rw [List.getElem?_append] at hj
    split at hj
    · next hlt =>
      rw [h.length_log] at hlt
      rw [List.take_append_of_le_length (Nat.le_of_lt hlt)]
      exact ih hj
    · next hge =>
      have hlt := (List.getElem?_eq_some_iff.mp hj).1
      rw [List.length_singleton] at hlt
      have hjlen : j = log.length := by omega
      rw [hjlen, h.length_log, List.take_left]
      rw [List.mem_singleton.mp (List.mem_of_getElem? hj)] at hx
      obtain ⟨y, hy, rfl⟩ := List.mem_map.mp hx
      obtain ⟨w, hw, -, hfd⟩ := Collector.exists_watch_of_mem_deposits h.history.enrolled hy
      obtain ⟨n, g, hg, htoken, hgfd, -⟩ := h.history.exists_resident hw
      refine ⟨n, g, hg, h.history.tenant?_eq_some_iff.mpr ⟨g, hg, ?_⟩, ?_⟩
      · rw [htoken]
      · rw [hgfd, hfd]

/-- **A one-shot watch reports at most once, and no watch is armed again.**  In every chronicle,
    with any answers of the poller, any overflows and any refused calls: every record that was ever
    pushed was made for a watch that an addition made, under its descriptor; a watch added without
    the option to persist has reported at most once, whether it is still there or not; while it is
    there it is armed exactly if it has not reported; a watch that persists is armed as long as it
    is there; and whatever operation comes next, a disarmed watch stays as it is or is removed. -/
theorem reports_at_most_once (h : Chronicle host acts log c s) :
    (∀ x ∈ log.flatten, ∃ n g, x.addition? = some n ∧ (attempts acts)[n]? = some (some g) ∧
      x.record.fd = g.fd) ∧
    (∀ n g, (attempts acts)[n]? = some (some g) → g.mask.isPersistent = false →
      reports log n ≤ 1) ∧
    (∀ n g, (n, g) ∈ residents acts → ∃ armed,
      c.registry.watch? g.token.key = some ⟨g.fd, g.mask, g.token.version, armed⟩ ∧
      (g.mask.isPersistent = false → (armed = true ↔ reports log n = 0)) ∧
      (g.mask.isPersistent = true → armed = true)) ∧
    (∀ a c' s', Step host a c s c' s' → ∀ key w, c.registry.watch? key = some w →
      w.armed = false → c'.registry.watch? key = some w ∨ c'.registry.watch? key = none) := by
  have hb := h.balanced
  refine ⟨?_, fun n g => hb.reports_le_one, ?_, fun a c' s' hs key w => hs.watch?_of_disarmed⟩
  · intro x hx
    obtain ⟨made, hmade, hx⟩ := List.mem_flatten.mp hx
    obtain ⟨j, hj⟩ := List.mem_iff_getElem?.mp hmade
    obtain ⟨n, g, hg, hn, hfd⟩ := h.exists_resident_of_mem hj hx
    refine ⟨n, g, hn, ?_, hfd⟩
    -- What was attempted before the entry stays attempted.
    have hold := attempt_of_mem_residents hg
    have hsplit : attempts acts = attempts (acts.take j) ++ attempts (acts.drop j) := by
      unfold attempts
      rw [← List.filterMap_append, List.take_append_drop]
    rw [hsplit, List.getElem?_append_left (List.getElem?_eq_some_iff.mp hold).1]
    exact hold
  · intro n g hg
    refine ⟨_, hb.watch?_eq hg, ?_, ?_⟩
    · intro hp
      rw [hp, Bool.false_or, decide_eq_true_eq]
    · intro hp
      rw [hp, Bool.true_or]

open Scenario in
/-- Descriptor 5 has a one-shot and a persistent watch and is reported twice in each of two waits.
    The first buffer has room for two records, so the run fails; the one-shot watch is in it.  The
    second run reports the persistent watch only. -/
theorem reports_at_most_once_after_overflow :
    ∃ (log : List (List Deposit)) (c : Collector World) (s : World),
      Chronicle (World.host 0)
        [.add 5 .read (.ok ⟨0, 0⟩), .add 5 (.read ∪ .persist) (.ok ⟨1, 1⟩),
          .run 0 1 .poll (.error (.bufferFull ⟨5, 2⟩)), .resize (Buffer.ofCapacity 4),
          .run 0 1 .poll (.ok 2)] log c s ∧
      log = [[], [], [⟨some 0, ⟨5, 2⟩⟩, ⟨some 1, ⟨5, 2⟩⟩], [],
        [⟨some 1, ⟨5, 2⟩⟩, ⟨some 1, ⟨5, 2⟩⟩]] ∧
      reports log 0 ≤ 1 ∧ c.registry.watch? 0 = some ⟨5, .read, 0, false⟩ ∧
      c.registry.watch? 1 = some ⟨5, .read ∪ .persist, 1, true⟩ ∧
      ∀ a c' s', Step (World.host 0) a c s c' s' →
        c'.registry.watch? 0 = some ⟨5, .read, 0, false⟩ ∨ c'.registry.watch? 0 = none := by
  have h₀ : Chronicle (World.host 0) [] [] _ _ :=
    .create (show Collector.create (World.host 0) (Buffer.ofCapacity 2) default
      { Session.scripted.world with
        pollers := .scripted { Poller.Script.empty with
          waits := [.events [⟨5, true, false, false, none⟩, ⟨5, true, false, false, none⟩],
            .events [⟨5, true, false, false, none⟩, ⟨5, true, false, false, none⟩]] } } =
        (.ok _, _) from rfl)
  have h₁ := h₀.operate (.add 5 .read _ _) rfl
  have h₂ := h₁.operate (.add 5 (.read ∪ .persist) _ _) rfl
  have h₃ := h₂.run (show Collector.run _ _ 0 1 .poll 1 _ = some _ from rfl)
  have h₄ := h₃.operate (.resize (Buffer.ofCapacity 4) _ _) rfl
  have h₅ := h₄.run (show Collector.run _ _ 0 1 .poll 1 _ = some _ from rfl)
  have hreports := h₅.reports_at_most_once
  exact ⟨_, _, _, h₅, by decide, hreports.2.1 0 ⟨⟨0, 0⟩, 5, .read⟩ rfl rfl, by decide, by decide,
    fun a c' s' hs => hreports.2.2.2 a c' s' hs 0 ⟨5, .read, 0, false⟩ (by decide) rfl⟩

/-- **A watch that was removed is never reported again.**  Take any entry of a chronicle.  All its
    records are made for watches that were resident then, under their descriptors.  Before it, once
    the token of a watch was accepted for removal, whatever the poller said to it, none of the
    records is made for that watch; and if a descriptor had no watch at some point and no addition
    succeeded on it since, none of the records is of that descriptor. -/
theorem silent_once_removed (h : Chronicle host acts log c s) {j : Nat} {made : List Deposit}
    (hj : log[j]? = some made) :
    (∀ x ∈ made, ∃ n g, (n, g) ∈ residents (acts.take j) ∧ x.addition? = some n ∧
      x.record.fd = g.fd) ∧
    (∀ i n g a, i < j → (attempts (acts.take i))[n]? = some (some g) → acts[i]? = some a →
      a.cancelled? = some g.token → ∀ x ∈ made, x.addition? ≠ some n) ∧
    (∀ i fd, i ≤ j → (∀ g ∈ ledger (acts.take i), g.fd ≠ fd) →
      (∀ k a g, i ≤ k → k < j → acts[k]? = some a → a.grant? = some g → g.fd ≠ fd) →
      ∀ x ∈ made, x.record.fd ≠ fd) := by
  have hresident := fun x hx => h.exists_resident_of_mem (x := x) hj hx
  refine ⟨hresident, ?_, ?_⟩
  · intro i n g a hij hg ha hcancel x hx hn
    obtain ⟨m, g', hmem, hm, -⟩ := hresident x hx
    rw [hn] at hm
    cases hm
    -- The removal lies between the first actions and the entry.
    have hsplit : acts.take j = acts.take i ++ a :: (acts.take j).drop (i + 1) := by
      have hget : (acts.take j)[i]? = some a := by
        rw [List.getElem?_take_of_lt hij, ha]
      have htake : (acts.take j).take i = acts.take i := by
        rw [List.take_take, Nat.min_eq_left (Nat.le_of_lt hij)]
      obtain ⟨hlt, hval⟩ := List.getElem?_eq_some_iff.mp hget
      rw [← htake, ← hval, List.getElem_cons_drop, List.take_append_drop]
    rw [hsplit] at hmem
    exact notMem_residents_of_cancelled hg hcancel _ g' hmem
  · intro i fd hij hnone hno x hx hxfd
    obtain ⟨n, g, hmem, -, hfd⟩ := hresident x hx
    have hledger : g ∈ ledger (acts.take i ++ (acts.take j).drop i) := by
      have hsplit : acts.take i ++ (acts.take j).drop i = acts.take j := by
        have htake : (acts.take j).take i = acts.take i := by
          rw [List.take_take, Nat.min_eq_left hij]
        rw [← htake, List.take_append_drop]
      rw [hsplit, ← map_snd_residents]
      exact List.mem_map_of_mem hmem
    -- Either the watch was there before, or an addition in between made it.
    rcases mem_ledger_append hledger with hold | hnew
    · exact hnone g hold (hfd ▸ hxfd)
    · obtain ⟨a, ha, hgrant⟩ := List.mem_filterMap.mp hnew
      obtain ⟨k, hk⟩ := List.mem_iff_getElem?.mp ha
      rw [List.getElem?_drop] at hk
      have hlt : i + k < j := by
        by_contra hge
        rw [List.getElem?_take_eq_none (Nat.le_of_not_lt hge)] at hk
        cases hk
      rw [List.getElem?_take_of_lt hlt] at hk
      exact hno (i + k) a g (Nat.le_add_right i k) hlt hk hgrant (hfd ▸ hxfd)

open Scenario in
/-- The watch of descriptor 5 is removed, and the poller fails to drop the registration.  Another
    watch takes its slot, for descriptor 6.  Then the poller still reports 5, which nobody hears. -/
theorem silent_once_removed_stale :
    ∃ (log : List (List Deposit)) (c : Collector World) (s : World),
      Chronicle (World.host 0)
        [.add 5 .read (.ok ⟨0, 0⟩), .remove ⟨0, 0⟩ (.error (.io (.os 9))),
          .add 6 .read (.ok ⟨0, 1⟩), .run 0 1 .poll (.ok 1)] log c s ∧
      log = [[], [], [], [⟨some 1, ⟨6, 2⟩⟩]] ∧
      (∀ x ∈ [(⟨some 1, ⟨6, 2⟩⟩ : Deposit)], x.addition? ≠ some 0) ∧
      ∀ x ∈ [(⟨some 1, ⟨6, 2⟩⟩ : Deposit)], x.record.fd ≠ 5 := by
  have h₀ : Chronicle (World.host 0) [] [] _ _ :=
    .create (show Collector.create (World.host 0) (Buffer.ofCapacity 2) default
      { Session.scripted.world with
        pollers := .scripted { Poller.Script.empty with
          failures := [0, 9]
          waits := [.events [⟨5, true, false, false, none⟩, ⟨6, true, false, false, none⟩]] } } =
        (.ok _, _) from rfl)
  have h₁ := h₀.operate (.add 5 .read _ _) rfl
  have h₂ := h₁.operate (.remove ⟨0, 0⟩ _ _) rfl
  have h₃ := h₂.operate (.add 6 .read _ _) rfl
  have h₄ := h₃.run (show Collector.run _ _ 0 1 .poll 1 _ = some _ from rfl)
  obtain ⟨-, hremoved, hsilent⟩ :=
    h₄.silent_once_removed (j := 3) (show _ = some [⟨some 1, ⟨6, 2⟩⟩] by decide)
  refine ⟨_, _, _, h₄, by decide, ?_, ?_⟩
  · exact hremoved 1 0 ⟨⟨0, 0⟩, 5, .read⟩ _ (by decide) rfl rfl rfl
  · refine hsilent 2 5 (by decide) (by decide) ?_
    intro k a g hk hk' ha hg
    obtain rfl : k = 2 := by omega
    cases ha
    cases hg
    decide

end Chronicle

end Readiness
