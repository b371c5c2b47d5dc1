import Mathlib.Data.List.Induction
import Readiness.Proofs.History
import Readiness.Scenario.Session

namespace Readiness

/-!
# Tokens

A token names a watch by its slot and its version.  Slots are handed out again, and every collector
counts its versions from zero, so what a token is worth can only be said of a history.

* `Grant` — a token with the watch it was handed out for, and `grants acts`, those of a history;
* `ledger acts` — the grants that were not cancelled since, read off the actions alone.
  `History.ledgered` says that the registry holds these watches and no others;
* `attempts acts` — all additions, refused ones included.  The version of a token is the number of
  its attempt, up to wrapping (`History.version_eq`);
* `History.token_valid_until_cancelled` — a collector never confuses its own tokens;
* `History.remove_foreign_iff` — it may take the token of another collector for one of its own, and
  when it does.
-/

variable {σ τ : Type} {host : Host σ}

/-! ### Grants -/

/-- A token, and the watch it was handed out for. -/
structure Grant where
  /-- The token. -/
  token : Token
  /-- The descriptor of the watch. -/
  fd : Fd
  /-- The mask of the watch. -/
  mask : Mask
deriving DecidableEq, Inhabited

/-- What an addition hands out, if the poller took the watch. -/
def Action.grant? : Action σ → Option Grant
  | .add fd mask (.ok t) => some ⟨t, fd, mask⟩
  | _ => none

/-- The number of an addition is taken by a refused one as well. -/
def Action.attempt? (a : Action σ) : Option (Option Grant) :=
  if a.isAdd then some a.grant? else none

/-- The token of a removal that passed the check, even if the poller failed then. -/
def Action.cancelled? : Action σ → Option Token
  | .remove _ (.error .invalidToken) => none
  | .remove t _ => some t
  | _ => none

/-- What the additions handed out, in order. -/
def grants (acts : List (Action σ)) : List Grant := acts.filterMap Action.grant?

/-- What each addition handed out, with `none` for a refused one. -/
def attempts (acts : List (Action σ)) : List (Option Grant) := acts.filterMap Action.attempt?

/-- The tokens of the removals that passed the check, in order. -/
def cancelled (acts : List (Action σ)) : List Token := acts.filterMap Action.cancelled?

/-- The ledger after an action: what was cancelled is struck out, what was granted is added. -/
def Action.book (gs : List Grant) (a : Action σ) : List Grant :=
  (gs.filter fun g => a.cancelled? ≠ some g.token) ++ a.grant?.toList

/-- The grants that were not cancelled since. -/
def ledger (acts : List (Action σ)) : List Grant := acts.foldl Action.book []

/-- Selecting from a list that grew by one. -/
private theorem filterMap_concat {α β : Type} (f : α → Option β) (l : List α) (a : α) :
    (l ++ [a]).filterMap f = l.filterMap f ++ (f a).toList := by
  rw [List.filterMap_append]
  cases h : f a <;> simp [h]

theorem grants_append (acts : List (Action σ)) (a : Action σ) :
    grants (acts ++ [a]) = grants acts ++ a.grant?.toList :=
  filterMap_concat _ _ _

theorem attempts_append (acts : List (Action σ)) (a : Action σ) :
    attempts (acts ++ [a]) = attempts acts ++ a.attempt?.toList :=
  filterMap_concat _ _ _

theorem cancelled_append (acts : List (Action σ)) (a : Action σ) :
    cancelled (acts ++ [a]) = cancelled acts ++ a.cancelled?.toList :=
  filterMap_concat _ _ _

theorem ledger_append (acts : List (Action σ)) (a : Action σ) :
    ledger (acts ++ [a]) = a.book (ledger acts) :=
  List.foldl_append

/-- What an action leaves on the ledger. -/
theorem Action.mem_book_iff {gs : List Grant} {a : Action σ} {g : Grant} :
    g ∈ a.book gs ↔ (g ∈ gs ∧ a.cancelled? ≠ some g.token) ∨ a.grant? = some g := by
  unfold book
  rw [List.mem_append, List.mem_filter, Option.mem_toList, decide_eq_true_eq]

/-- There are as many attempts as additions. -/
theorem length_attempts (acts : List (Action σ)) : (attempts acts).length = additions acts := by
  unfold attempts additions
  rw [List.length_filterMap_eq_countP]
  apply List.countP_congr
  intro a _
  unfold Action.attempt?
  split <;> simp_all

/-- What was granted was attempted. -/
theorem mem_grants_iff {acts : List (Action σ)} {g : Grant} :
    g ∈ grants acts ↔ some g ∈ attempts acts := by
  unfold grants attempts
  rw [List.mem_filterMap, List.mem_filterMap]
  refine exists_congr fun a => and_congr_right fun _ => ?_
  cases a <;> simp [Action.attempt?, Action.isAdd, Action.grant?]

/-- The ledger holds nothing but what was granted. -/
theorem mem_grants_of_mem_ledger {acts : List (Action σ)} {g : Grant} (hg : g ∈ ledger acts) :
    g ∈ grants acts := by
  induction acts using List.reverseRecOn with
  | nil => exact hg
  | append_singleton acts a ih =>
    rw [ledger_append, Action.mem_book_iff] at hg
    rw [grants_append, List.mem_append, Option.mem_toList]
    exact hg.imp (fun h => ih h.1) id

/-! ### What a registry holds -/

namespace Registry

/-- The watch of the grant is live.  Whether it is armed does not matter. -/
def Holds (r : Registry) (g : Grant) : Prop :=
  ∃ armed, r.watch? g.token.key = some ⟨g.fd, g.mask, g.token.version, armed⟩

/-- A token is not found exactly if nothing is held that it was handed out for. -/
theorem find?_eq_none_iff {r : Registry} {t : Token} :
    r.find? t = none ↔ ∀ g, r.Holds g → g.token ≠ t := by
  unfold find?
  rw [Option.filter_eq_none_iff]
  constructor
  · rintro hnone g ⟨armed, hw⟩ rfl
    exact hnone _ hw (decide_eq_true rfl)
  · intro hgs w hw hv
    have hversion : w.version = t.version := of_decide_eq_true hv
    refine hgs ⟨t, w.fd, w.mask⟩ ⟨w.armed, ?_⟩ rfl
    rw [hw, ← hversion]

/-- A token that is found was handed out for the watch it finds. -/
theorem holds_of_find? {r : Registry} {t : Token} {w : Watch} (h : r.find? t = some w) :
    r.Holds ⟨t, w.fd, w.mask⟩ := by
  obtain ⟨hw, hv⟩ := Option.filter_eq_some_iff.mp h
  have hversion : w.version = t.version := of_decide_eq_true hv
  refine ⟨w.armed, ?_⟩
  rw [hw, ← hversion]

/-- An insertion holds what it hands out. -/
theorem holds_insert_iff {r : Registry} {fd : Fd} {mask : Mask} {g : Grant} :
    (r.insert fd mask).Holds g ↔ r.Holds g ∨ g = ⟨r.nextToken, fd, mask⟩ := by
  obtain ⟨⟨key, version⟩, fd', mask'⟩ := g
  unfold Holds nextToken
  rw [watch?_insert]
  by_cases hk : key = r.slots.nextKey
  · -- The slot was vacant.
    have hnone : r.watch? key = none := hk ▸ Slots.get?_nextKey _
    simp only [hk, if_true, hk ▸ hnone]
    constructor
    · rintro ⟨armed, hw⟩
      cases hw
      exact Or.inr rfl
    · rintro (⟨armed, hw⟩ | heq)
      · cases hw
      · cases heq
        exact ⟨true, rfl⟩
  · simp [hk]

/-- Forgetting the watch of a token strikes out this token only: the slot holds no other. -/
theorem holds_forget_iff {r : Registry} {t : Token} {w : Watch} (h : r.find? t = some w)
    {g : Grant} : (r.forget t.key).Holds g ↔ r.Holds g ∧ g.token ≠ t := by
  obtain ⟨armed, hheld⟩ := holds_of_find? h
  obtain ⟨⟨key, version⟩, fd, mask⟩ := g
  unfold Holds
  rw [watch?_forget]
  by_cases hk : key = t.key
  · rw [if_pos hk]
    constructor
    · rintro ⟨armed, hw⟩
      cases hw
    · rintro ⟨⟨armed', hw⟩, hne⟩
      dsimp only at hw hheld
      rw [hk, hheld] at hw
      cases hw
      exact absurd (congrArg (Token.mk · t.version) hk) hne
  · rw [if_neg hk]
    exact (and_iff_left fun heq => hk (congrArg Token.key heq)).symm

/-- An insertion that is taken back holds nothing new. -/
theorem holds_forget_insert_iff {r : Registry} {fd : Fd} {mask : Mask} {g : Grant} :
    ((r.insert fd mask).forget r.slots.nextKey).Holds g ↔ r.Holds g := by
  have hnone : r.watch? r.slots.nextKey = none := Slots.get?_nextKey _
  unfold Holds
  rw [watch?_forget, watch?_insert]
  by_cases hk : g.token.key = r.slots.nextKey
  · rw [if_pos hk, hk, hnone]
  · rw [if_neg hk, if_neg hk]

/-- Firing only disarms watches. -/
theorem FiresTo.holds_iff {r r' : Registry} (h : r.FiresTo r') {g : Grant} :
    r'.Holds g ↔ r.Holds g := by
  obtain ⟨⟨key, version⟩, fd, mask⟩ := g
  unfold Holds
  rcases h.watch?_eq key with heq | ⟨w, hw, -, heq⟩
  · rw [heq]
  · rw [heq, hw]
    constructor
    · rintro ⟨armed, hsome⟩
      cases hsome
      exact ⟨w.armed, rfl⟩
    · rintro ⟨armed, hsome⟩
      cases hsome
      exact ⟨false, rfl⟩

end Registry

/-! ### Every history -/

/-- **A step keeps the ledger.** -/
theorem Step.ledgered {a : Action σ} {c c' : Collector σ} {s s' : σ} (hs : Step host a c s c' s')
    {gs : List Grant} (h : ∀ g, g ∈ gs ↔ c.registry.Holds g) :
    ∀ g, g ∈ a.book gs ↔ c'.registry.Holds g := by
  intro g
  rw [Action.mem_book_iff, h]
  rcases hs.registry_cases with ⟨fd, mask, rfl, hr⟩ | ⟨fd, mask, e, rfl, hr⟩ | ⟨t, rfl, -, hr⟩ |
    ⟨t, w, answer, rfl, hf, hr⟩ | ⟨ha, hr⟩
  · rw [hr, Registry.holds_insert_iff]
    simp [Action.cancelled?, Action.grant?, eq_comm]
  · rw [hr, Registry.holds_forget_insert_iff]
    simp [Action.cancelled?, Action.grant?]
  · rw [hr]
    simp [Action.cancelled?, Action.grant?]
  · rw [hr, Registry.holds_forget_iff hf]
    have hc : (Action.remove (σ := σ) t (answer.mapError .io)).cancelled? = some t := by
      cases answer <;> rfl
    simp [hc, Action.grant?, eq_comm]
  · rw [hr.holds_iff]
    rcases ha with ⟨b, rfl⟩ | ⟨hook, rfl⟩ | ⟨wakeFd, wokeFd, timeout, answer, rfl⟩ <;>
      simp [Action.cancelled?, Action.grant?]

/-- What a step grants is the next token. -/
theorem Step.token_of_grant {a : Action σ} {c c' : Collector σ} {s s' : σ}
    (hs : Step host a c s c' s') {g : Grant} (hg : a.grant? = some g) :
    g.token = c.registry.nextToken := by
  rcases hs.registry_cases with ⟨fd, mask, rfl, -⟩ | ⟨fd, mask, e, rfl, -⟩ | ⟨t, rfl, -, -⟩ |
    ⟨t, w, answer, rfl, -, -⟩ | ⟨⟨b, rfl⟩ | ⟨hook, rfl⟩ | ⟨wakeFd, wokeFd, timeout, answer, rfl⟩, -⟩
  case inl => cases hg; rfl
  all_goals cases hg

/-- What a step cancels was held. -/
theorem Step.holds_of_cancelled {a : Action σ} {c c' : Collector σ} {s s' : σ}
    (hs : Step host a c s c' s') {t : Token} (ht : a.cancelled? = some t) :
    ∃ g, c.registry.Holds g ∧ g.token = t := by
  rcases hs.registry_cases with ⟨fd, mask, rfl, -⟩ | ⟨fd, mask, e, rfl, -⟩ | ⟨t', rfl, -, -⟩ |
    ⟨t', w, answer, rfl, hf, -⟩ | ⟨⟨b, rfl⟩ | ⟨hook, rfl⟩ | ⟨wakeFd, wokeFd, timeout, answer, rfl⟩, -⟩
  case inr.inr.inr.inl =>
    have heq : t' = t := by
      cases answer <;> exact Option.some.inj ht
    exact ⟨_, Registry.holds_of_find? hf, heq⟩
  all_goals cases ht

namespace History

variable {allowed : Action σ → σ → σ → Prop} {acts : List (Action σ)} {c : Collector σ} {s : σ}

/-- **The registry holds what is on the ledger**, however often slots were reused and versions
    wrapped. -/
theorem ledgered (h : History host allowed acts c s) (g : Grant) :
    g ∈ ledger acts ↔ c.registry.Holds g := by
  induction h generalizing g with
  | create hc =>
    rw [(Collector.create_eq hc).1]
    constructor
    · intro hg
      cases hg
    · rintro ⟨armed, hw⟩
      cases hw
  | step _ hs _ ih =>
    rw [ledger_append]
    exact hs.ledgered ih g

/-- Every addition takes the next version, also one that is refused. -/
theorem nextVersion_eq (h : History host allowed acts c s) :
    c.registry.nextVersion = UInt32.ofNat (additions acts) := by
  induction h with
  | create hc =>
    rw [(Collector.create_eq hc).1]
    rfl
  | step _ hs _ ih =>
    rw [additions_append]
    rcases hs.registry_cases with ⟨fd, mask, rfl, hr⟩ | ⟨fd, mask, e, rfl, hr⟩ | ⟨t, rfl, -, hr⟩ |
      ⟨t, w, answer, rfl, -, hr⟩ | ⟨ha, hr⟩
    · rw [hr, Registry.nextVersion_insert, ih]
      exact (UInt32.ofNat_add _ _).symm
    · rw [hr, Registry.nextVersion_forget, Registry.nextVersion_insert, ih]
      exact (UInt32.ofNat_add _ _).symm
    · rw [hr, ih]
      rfl
    · rw [hr, Registry.nextVersion_forget, ih]
      rfl
    · have hnext := congrArg Token.version hr.nextToken_eq
      rcases ha with ⟨b, rfl⟩ | ⟨hook, rfl⟩ | ⟨wakeFd, wokeFd, timeout, answer, rfl⟩ <;>
        exact hnext.trans ih

/-- **The version of a token is the number of the addition** that handed it out, up to wrapping. -/
theorem version_eq (h : History host allowed acts c s) {n : Nat} {g : Grant}
    (hg : (attempts acts)[n]? = some (some g)) : g.token.version = UInt32.ofNat n := by
  induction h with
  | create _ => cases hg
  | step hist hs _ ih =>
    rename_i acts a _ _ _ _ _
    rw [attempts_append, List.getElem?_append] at hg
    split at hg
    · exact ih hg
    · -- The last action is the addition in question.
      next hle =>
      have hmem : a.attempt? = some (some g) :=
        Option.mem_toList.mp (List.mem_of_getElem? hg)
      have hgrant : a.grant? = some g := by
        unfold Action.attempt? at hmem
        split at hmem
        · exact Option.some.inj hmem
        · cases hmem
      have hn : n = additions acts := by
        rw [hmem] at hg
        obtain ⟨hlt, -⟩ := List.getElem?_eq_some_iff.mp hg
        rw [length_attempts] at hle hlt
        have hlt' : n - additions acts < 1 := hlt
        omega
      rw [hs.token_of_grant hgrant, hn]
      exact hist.nextVersion_eq

/-- Until the counter wraps, what was granted has a smaller version than what comes next. -/
theorem version_lt (h : History host allowed acts c s) (hn : additions acts < 2 ^ 32) {g : Grant}
    (hg : g ∈ grants acts) : g.token.version.toNat < additions acts := by
  obtain ⟨n, hlt, hattempt⟩ := List.mem_iff_getElem.mp (mem_grants_iff.mp hg)
  have hn' : n < additions acts := by
    rw [← length_attempts]
    exact hlt
  rw [h.version_eq (List.getElem?_eq_some_iff.mpr ⟨hlt, hattempt⟩), UInt32.toNat_ofNat',
    Nat.mod_eq_of_lt (Nat.lt_trans hn' hn)]
  exact hn'

/-- Only tokens that were granted are ever cancelled. -/
theorem exists_grant_of_cancelled (h : History host allowed acts c s) {t : Token}
    (ht : t ∈ cancelled acts) : ∃ g ∈ grants acts, g.token = t := by
  induction h with
  | create _ => cases ht
  | step hist hs _ ih =>
    rw [cancelled_append, List.mem_append, Option.mem_toList] at ht
    rw [grants_append]
    rcases ht with ht | ht
    · obtain ⟨g, hg, heq⟩ := ih ht
      exact ⟨g, List.mem_append_left _ hg, heq⟩
    · obtain ⟨g, hheld, heq⟩ := hs.holds_of_cancelled ht
      exact ⟨g, List.mem_append_left _ (mem_grants_of_mem_ledger ((hist.ledgered g).mpr hheld)), heq⟩

/-- Until the counter wraps, a token that is granted is new. -/
theorem token_ne_of_grant {a : Action σ} {c' : Collector σ} {s' : σ}
    (h : History host allowed acts c s) (hn : additions acts < 2 ^ 32)
    (hs : Step host a c s c' s') {g g' : Grant} (hg : a.grant? = some g) (hg' : g' ∈ grants acts) :
    g'.token ≠ g.token := by
  intro heq
  have hlt := h.version_lt hn hg'
  rw [heq, hs.token_of_grant hg] at hlt
  have hnext : c.registry.nextToken.version.toNat = additions acts :=
    (h.versioned hn).toNat_next
  omega

/-- **A grant is on the ledger until its token is cancelled**, as long as the counter has not
    wrapped. -/
theorem mem_ledger_iff (h : History host allowed acts c s) (hn : additions acts < 2 ^ 32)
    {g : Grant} : g ∈ ledger acts ↔ g ∈ grants acts ∧ g.token ∉ cancelled acts := by
  induction h with
  | create _ =>
    constructor
    · intro hg
      cases hg
    · rintro ⟨hg, -⟩
      cases hg
  | step hist hs _ ih =>
    rename_i acts a _ _ _ _ _
    rw [additions_append] at hn
    have hn' : additions acts < 2 ^ 32 := by omega
    rw [ledger_append, Action.mem_book_iff, ih hn', grants_append, cancelled_append,
      List.mem_append, List.mem_append, Option.mem_toList, Option.mem_toList, not_or, and_assoc]
    constructor
    · rintro (⟨hg, hold, hnew⟩ | hg)
      · exact ⟨Or.inl hg, hold, hnew⟩
      · -- A token that was just granted cannot have been cancelled.
        refine ⟨Or.inr hg, ?_, ?_⟩
        · intro hc
          obtain ⟨g', hg', heq⟩ := hist.exists_grant_of_cancelled hc
          exact hist.token_ne_of_grant hn' hs hg hg' heq
        · intro hc
          obtain ⟨g', hheld, heq⟩ := hs.holds_of_cancelled hc
          have hg' := mem_grants_of_mem_ledger ((hist.ledgered g').mpr hheld)
          exact hist.token_ne_of_grant hn' hs hg hg' heq
    · rintro ⟨hg | hg, hold, hnew⟩
      · exact Or.inl ⟨hg, hold, hnew⟩
      · exact Or.inr hg

/-- No token is granted twice, as long as the counter has not wrapped. -/
theorem nodup_tokens (h : History host allowed acts c s) (hn : additions acts < 2 ^ 32) :
    ((grants acts).map Grant.token).Nodup := by
  induction h with
  | create _ => exact List.nodup_nil
  | step hist hs _ ih =>
    rename_i acts a _ _ _ _ _
    rw [additions_append] at hn
    have hn' : additions acts < 2 ^ 32 := by omega
    rw [grants_append, List.map_append, List.nodup_append]
    refine ⟨ih hn', ?_, ?_⟩
    · cases a.grant? with
      | none => exact List.nodup_nil
      | some g => exact List.nodup_singleton _
    · intro t ht t' ht'
      obtain ⟨g', hg', rfl⟩ := List.mem_map.mp ht
      obtain ⟨g, hg, rfl⟩ := List.mem_map.mp ht'
      exact hist.token_ne_of_grant hn' hs (Option.mem_toList.mp hg) hg'

end History

/-! ### Removals -/

/-- A removal answers that the token is invalid exactly if the token is not found. -/
theorem Collector.remove_answer_iff (host : Host σ) (c : Collector σ) (t : Token) (s : σ) :
    (c.remove host t s).answer = .error .invalidToken ↔ c.registry.find? t = none := by
  rcases c.remove_cases host t s with ⟨hf, h⟩ | ⟨w, a, s', hf, -, h⟩
  · rw [h, hf]
    exact iff_of_true rfl rfl
  · rw [h, hf]
    refine iff_of_false ?_ (Option.some_ne_none w)
    intro (heq : a.mapError Error.io = _)
    cases a <;> cases heq

/-- **A token is good for the watch it was handed out for, once.**  After every history of fewer
    than `2 ^ 32` additions, refused ones included, and whatever the poller answered: no two granted
    tokens are the same, and the removal of a granted token passes the check exactly if none did
    before.  Then it is the watch of the grant that goes, and no other.  A removal that passed the
    check has cancelled the token even if the poller failed. -/
theorem History.token_valid_until_cancelled {allowed : Action σ → σ → σ → Prop}
    {acts : List (Action σ)} {c : Collector σ} {s : σ} (h : History host allowed acts c s)
    (hn : additions acts < 2 ^ 32) :
    ((grants acts).map Grant.token).Nodup ∧
    ∀ g ∈ grants acts,
      ((c.remove host g.token s).answer ≠ .error .invalidToken ↔ g.token ∉ cancelled acts) ∧
      (g.token ∉ cancelled acts →
        ∃ armed, c.registry.watch? g.token.key = some ⟨g.fd, g.mask, g.token.version, armed⟩ ∧
          ∀ key, (c.remove host g.token s).collector.registry.watch? key =
            if key = g.token.key then none else c.registry.watch? key) := by
  refine ⟨h.nodup_tokens hn, fun g hg => ?_⟩
  have hheld : c.registry.Holds g ↔ g.token ∉ cancelled acts := by
    rw [← h.ledgered, h.mem_ledger_iff hn]
    exact and_iff_right hg
  have hfind : c.registry.find? g.token ≠ none ↔ g.token ∉ cancelled acts := by
    rw [Ne, Registry.find?_eq_none_iff]
    constructor
    · intro hsome hc
      apply hsome
      -- Whatever else the token could find was granted under it, and is cancelled with it.
      intro g' hg' heq
      rw [← h.ledgered, h.mem_ledger_iff hn, heq] at hg'
      exact hg'.2 hc
    · intro hc hnone
      exact hnone g (hheld.mpr hc) rfl
  refine ⟨?_, fun hc => ?_⟩
  · rw [Ne, Collector.remove_answer_iff]
    exact hfind
  · obtain ⟨armed, hw⟩ := hheld.mpr hc
    refine ⟨armed, hw, fun key => ?_⟩
    rcases c.remove_cases host g.token s with ⟨hnone, -⟩ | ⟨w, a, s', -, -, ho⟩
    · exact absurd hnone (hfind.mpr hc)
    · rw [ho]
      exact Registry.watch?_forget _ _ _

open Scenario in
/-- A watch is added and removed, an addition is refused, and another watch is added to the slot.
    The second token is for the same slot with a later version; the first one is refused. -/
theorem token_valid_until_cancelled_after_reuse :
    ∃ (c : Collector World) (s : World),
      History (World.host 0) anything
        [.add 5 .read (.ok ⟨0, 0⟩), .remove ⟨0, 0⟩ (.ok ()), .add 6 .read (.error (.io (.os 17))),
          .add 7 .write (.ok ⟨0, 2⟩)] c s ∧
      (c.remove (World.host 0) ⟨0, 0⟩ s).answer = .error .invalidToken ∧
      (c.remove (World.host 0) ⟨0, 2⟩ s).answer ≠ .error .invalidToken ∧
      c.registry.watch? 0 = some ⟨7, .write, 2, true⟩ ∧
      (c.remove (World.host 0) ⟨0, 2⟩ s).collector.registry.watch? 0 = none := by
  have h₀ : History (World.host 0) anything [] _ _ :=
    .create (show Collector.create (World.host 0) (Buffer.ofCapacity 4) default
      (Session.ofMachine Session.wakeMachine
        (.scripted { Poller.Script.empty with failures := [0, 0, 17] })).world = (.ok _, _) from rfl)
  have h₁ := h₀.step (.add 5 .read _ _) trivial
  have h₂ := h₁.step (.remove ⟨0, 0⟩ _ _) trivial
  have h₃ := h₂.step (.add 6 .read _ _) trivial
  have h₄ := h₃.step (.add 7 .write _ _) trivial
  refine ⟨_, _, h₄, ?_⟩
  obtain ⟨-, hgrants⟩ := h₄.token_valid_until_cancelled (by decide)
  obtain ⟨hfirst, -⟩ := hgrants ⟨⟨0, 0⟩, 5, .read⟩ (by decide)
  obtain ⟨hsecond, hlive⟩ := hgrants ⟨⟨0, 2⟩, 7, .write⟩ (by decide)
  obtain ⟨armed, hw, hgone⟩ := hlive (by decide)
  refine ⟨?_, hsecond.mpr (by decide), rfl, hgone 0⟩
  exact not_not.mp fun hne => hfirst.mp hne (by decide)

/-! ### Tokens of other collectors -/

/-- **A foreign token is refused unless it looks like an own one.**  Take two collectors after any
    histories, and the token of the addition with number `n` of the first.  The second refuses it,
    and nothing changes, unless it has made an addition with the same number, up to wrapping, that
    got the same slot, and the watch of that addition is still there. -/
theorem History.remove_foreign_iff {host : Host σ} {host' : Host τ}
    {allowed : Action σ → σ → σ → Prop} {allowed' : Action τ → τ → τ → Prop}
    {acts : List (Action σ)} {acts' : List (Action τ)} {c : Collector σ} {c' : Collector τ} {s : σ}
    {s' : τ} (h : History host allowed acts c s) (h' : History host' allowed' acts' c' s') {n : Nat}
    {g : Grant} (hg : (attempts acts)[n]? = some (some g)) :
    c'.remove host' g.token s' = ⟨.error .invalidToken, c', s'⟩ ↔
      ¬ ∃ m g', m % 2 ^ 32 = n % 2 ^ 32 ∧ (attempts acts')[m]? = some (some g') ∧
        g'.token.key = g.token.key ∧ g' ∈ ledger acts' := by
  have hversion : ∀ {m g'}, (attempts acts')[m]? = some (some g') →
      (g'.token.version = g.token.version ↔ m % 2 ^ 32 = n % 2 ^ 32) := by
    intro m g' hg'
    rw [h'.version_eq hg', h.version_eq hg, ← UInt32.toNat_inj, UInt32.toNat_ofNat',
      UInt32.toNat_ofNat']
  have hnone : c'.remove host' g.token s' = ⟨.error .invalidToken, c', s'⟩ ↔
      c'.registry.find? g.token = none := by
    rw [← Collector.remove_answer_iff host' c' g.token s']
    constructor
    · intro ho
      rw [ho]
    · intro ha
      rcases c'.remove_cases host' g.token s' with ⟨-, ho⟩ | ⟨w, a, s₁, hf, -, -⟩
      · exact ho
      · rw [Collector.remove_answer_iff, hf] at ha
        cases ha
  rw [hnone, Registry.find?_eq_none_iff]
  constructor
  · rintro hne ⟨m, g', hmod, hg', hkey, hledger⟩
    refine hne g' ((h'.ledgered g').mp hledger) ?_
    exact congrArg₂ Token.mk hkey ((hversion hg').mpr hmod)
  · intro hno g' hheld heq
    -- What the token finds was granted by some addition, with this version and this slot.
    have hledger := (h'.ledgered g').mpr hheld
    obtain ⟨m, hm⟩ := List.mem_iff_getElem?.mp
      (mem_grants_iff.mp (mem_grants_of_mem_ledger hledger))
    exact hno ⟨m, g', (hversion hm).mp (congrArg Token.version heq), hm, congrArg Token.key heq,
      hledger⟩

namespace Scenario

/-- The second collector has cancelled the watch of its first addition, so it refuses the token that
    the first collector got for its own. -/
theorem remove_foreign_iff_cancelled :
    ∃ (c c' : Collector World) (s s' : World),
      History (World.host 0) anything [.add 5 .read (.ok ⟨0, 0⟩)] c s ∧
      History (World.host 1) anything
        [.add 6 .write (.ok ⟨0, 0⟩), .add 7 .write (.ok ⟨1, 1⟩), .remove ⟨0, 0⟩ (.ok ())] c' s' ∧
      c'.remove (World.host 1) ⟨0, 0⟩ s' = ⟨.error .invalidToken, c', s'⟩ := by
  have h₀ : History (World.host 0) anything [] _ _ :=
    .create (show Collector.create (World.host 0) (Buffer.ofCapacity 4) default
      Session.scripted.world = (.ok _, _) from rfl)
  have h₁ := h₀.step (.add 5 .read _ _) trivial
  have h₀' : History (World.host 1) anything [] _ _ :=
    .create (show Collector.create (World.host 1) (Buffer.ofCapacity 4) default
      Session.scripted.world = (.ok _, _) from rfl)
  have h₁' := h₀'.step (.add 6 .write _ _) trivial
  have h₂' := h₁'.step (.add 7 .write _ _) trivial
  have h₃' := h₂'.step (.remove ⟨0, 0⟩ _ _) trivial
  refine ⟨_, _, _, _, h₁, h₃', ?_⟩
  refine (History.remove_foreign_iff h₁ h₃' (n := 0) (g := ⟨⟨0, 0⟩, 5, .read⟩) rfl).mpr ?_
  rintro ⟨m, g', -, -, hkey, hledger⟩
  have heq : g' = ⟨⟨1, 1⟩, 7, .write⟩ := List.mem_singleton.mp hledger
  rw [heq] at hkey
  cases hkey

/-- Two collectors that have each added one watch hold equal tokens, so the second takes the token
    of the first for its own, and the watch of descriptor 6 is gone. -/
theorem foreign_token_accepted :
    ∃ (c c' : Collector World) (s s' : World),
      History (World.host 0) anything [.add 5 .read (.ok ⟨0, 0⟩)] c s ∧
      History (World.host 1) anything [.add 6 .write (.ok ⟨0, 0⟩)] c' s' ∧
      (c'.remove (World.host 1) ⟨0, 0⟩ s').answer = .ok () ∧
      c'.registry.watch? 0 = some ⟨6, .write, 0, true⟩ ∧
      (c'.remove (World.host 1) ⟨0, 0⟩ s').collector.registry.watch? 0 = none := by
  have h₀ : History (World.host 0) anything [] _ _ :=
    .create (show Collector.create (World.host 0) (Buffer.ofCapacity 4) default
      Session.scripted.world = (.ok _, _) from rfl)
  have h₁ := h₀.step (.add 5 .read _ _) trivial
  have h₀' : History (World.host 1) anything [] _ _ :=
    .create (show Collector.create (World.host 1) (Buffer.ofCapacity 4) default
      Session.scripted.world = (.ok _, _) from rfl)
  have h₁' := h₀'.step (.add 6 .write _ _) trivial
  exact ⟨_, _, _, _, h₁, h₁', rfl, rfl, rfl⟩

end Scenario

end Readiness
