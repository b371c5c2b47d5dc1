import Mathlib.Data.List.Nodup
import Mathlib.Data.List.Pairwise
import Readiness.Proofs.History
import Readiness.Scenario.Session

namespace Readiness

/-!
# The two structures of a registry agree

A registry keeps its watches in slots and, apart from them, one list of keys for each descriptor.
Whatever happens to a collector, the two belong together.

* `Registry.Consistent` — every live watch is listed once, under its descriptor; the lists hold
  nothing else; versions are distinct and increase along each list;
* `Registry.armedMaskOf?`, `Registry.forget?`, `Collector.deliver?` — the three functions that look
  slots up by key, with no outcome if one of these slots is vacant;
* `Registry.NeverVacant` — these functions always have an outcome, the one of the plain functions;
* `History.registry_consistent` — both hold after every history of fewer than `2 ^ 32` additions,
  and the collector counts as many watches as the lists have keys.

Everything is read off the roll of the history (`Registry.Enrolled`, `Registry.Versioned`).
-/

namespace Registry

/-! ### Consistency -/

/-- The slots and the lists of keys of a registry belong together. -/
structure Consistent (r : Registry) : Prop where
  /-- A live watch occurs exactly once in the list of its descriptor. -/
  listed : ∀ {key w}, r.watch? key = some w →
    ∃ keys, r.chains.find? w.fd = some keys ∧ keys.count key = 1
  /-- A live watch occurs in no other list. -/
  listed_only : ∀ {key w fd keys}, r.watch? key = some w → r.chains.find? fd = some keys →
    key ∈ keys → fd = w.fd
  /-- No list is empty. -/
  ne_nil : ∀ {fd keys}, r.chains.find? fd = some keys → keys ≠ []
  /-- A list holds only occupied slots, whose watches are of its descriptor. -/
  occupied : ∀ {fd keys key}, r.chains.find? fd = some keys → key ∈ keys →
    ∃ w, r.watch? key = some w ∧ w.fd = fd
  /-- The versions increase along a list, so it is in the order of addition. -/
  increasing : ∀ {fd keys}, r.chains.find? fd = some keys →
    (keys.filterMap r.watch?).Pairwise fun v w => v.version < w.version
  /-- No two live watches have the same version. -/
  version_inj : ∀ {j k v w}, r.watch? j = some v → r.watch? k = some w →
    v.version = w.version → j = k
  /-- The versions of live watches have been handed out. -/
  version_lt : ∀ {key w}, r.watch? key = some w → w.version < r.nextVersion
  /-- The lists together are as long as there are watches. -/
  size_eq : r.size = (r.chains.values.map List.length).sum

namespace Enrolled

variable {r : Registry} {roll : List Nat}

/-- The lists of all descriptors together are a permutation of the roll. -/
theorem flatten_values_perm (h : r.Enrolled roll) : r.chains.values.flatten.Perm roll := by
  have hchain : ∀ e ∈ r.chains.entries, e.2 = r.chain e.1 := by
    intro e he
    have hfind : r.chains.find? e.1 = some e.2 := (r.chains.mem_entries_iff e.1 e.2).mp he
    exact (h.find?_eq_some_iff.mp hfind).1.symm
  have hnodup : r.chains.values.flatten.Nodup := by
    rw [List.nodup_flatten]
    constructor
    · intro l hl
      obtain ⟨e, he, rfl⟩ := List.mem_map.mp hl
      rw [hchain e he, h.chain_eq]
      exact h.nodup.filter _
    · -- Two entries are of different descriptors.
      have hkeys := List.pairwise_map.mp r.chains.nodup
      refine List.pairwise_map.mpr (hkeys.imp_of_mem fun {e e'} he he' hne => ?_)
      intro key hk hk'
      rw [hchain e he] at hk
      rw [hchain e' he'] at hk'
      exact hne (h.eq_of_mem_chain hk hk')
  apply (List.perm_ext_iff_of_nodup hnodup h.nodup).mpr
  intro key
  rw [List.mem_flatten]
  constructor
  · rintro ⟨l, hl, hk⟩
    obtain ⟨e, he, rfl⟩ := List.mem_map.mp hl
    rw [hchain e he] at hk
    exact h.mem_roll_of_mem_chain hk
  · intro hk
    obtain ⟨w, hw⟩ := Option.isSome_iff_exists.mp ((h.mem_iff key).mp hk)
    have hmem : key ∈ r.chain w.fd := h.mem_chain_iff.mpr ⟨w, hw, rfl⟩
    have hfind : r.chains.find? w.fd = some (r.chain w.fd) :=
      h.find?_eq_some_iff.mpr ⟨rfl, List.ne_nil_of_mem hmem⟩
    have hentry := (r.chains.mem_entries_iff _ _).mpr hfind
    exact ⟨r.chain w.fd, List.mem_map.mpr ⟨_, hentry, rfl⟩, hmem⟩

/-- A registry with a roll and versions along it is consistent. -/
theorem consistent (h : r.Enrolled roll) {n : Nat} (hv : r.Versioned roll n) : r.Consistent where
  listed := by
    intro key w hw
    have hmem : key ∈ r.chain w.fd := h.mem_chain_iff.mpr ⟨w, hw, rfl⟩
    refine ⟨r.chain w.fd, h.find?_eq_some_iff.mpr ⟨rfl, List.ne_nil_of_mem hmem⟩, ?_⟩
    refine List.count_eq_one_of_mem ?_ hmem
    rw [h.chain_eq]
    exact h.nodup.filter _
  listed_only := by
    intro key w fd keys hw hf hk
    rw [← (h.find?_eq_some_iff.mp hf).1] at hk
    exact (h.fd_eq_of_mem_chain hk hw).symm
  ne_nil := by
    intro fd keys hf
    exact (h.find?_eq_some_iff.mp hf).2
  occupied := by
    intro fd keys key hf hk
    rw [← (h.find?_eq_some_iff.mp hf).1] at hk
    exact h.mem_chain_iff.mp hk
  increasing := by
    intro fd keys hf
    have hkeys : keys = roll.filter (r.isOn fd) := by
      rw [← (h.find?_eq_some_iff.mp hf).1, h.chain_eq]
    rw [hkeys, List.pairwise_filterMap]
    apply (hv.increasing.sublist List.filter_sublist).imp
    intro j k hjk v hjv w hkw
    exact hjk v w hjv hkw
  version_inj := by
    intro j k v w hjv hkw heq
    have hj : j ∈ roll := (h.mem_iff j).mpr (by simp [hjv])
    have hk : k ∈ roll := (h.mem_iff k).mpr (by simp [hkw])
    -- Of two watches on the roll one comes first, and has the smaller version.
    let same (j k : Nat) : Prop := ∀ v w, r.watch? j = some v → r.watch? k = some w →
      v.version = w.version → j = k
    have hsymm : Std.Symm same := ⟨fun _ _ h v w hv hw heq => (h w v hw hv heq.symm).symm⟩
    have hpair : roll.Pairwise same := hv.increasing.imp fun hlt v w hv hw heq =>
      absurd (heq ▸ hlt v w hv hw) (UInt32.lt_irrefl _)
    exact hpair.forall_of_forall (fun _ _ _ _ _ _ _ => rfl) hj hk v w hjv hkw heq
  version_lt := hv.lt_next
  size_eq := by
    rw [← h.length_eq, ← h.flatten_values_perm.length_eq, List.length_flatten]

end Enrolled

/-! ### Look-ups that need an occupied slot -/

/-- `armedMaskOf`, without an outcome if one of the slots is vacant. -/
def armedMaskOf? (r : Registry) (keys : List Nat) : Option Mask :=
  (keys.mapM r.watch?).map fun ws => (ws.filter Watch.armed).foldl (fun a w => a ∪ w.mask) ∅

/-- `forget`, without an outcome if the slot is vacant. -/
def forget? (r : Registry) (key : Nat) : Option Registry :=
  (r.watch? key).map fun _ => r.forget key

/-- If every slot is occupied, looking all of them up gives what skipping vacant ones gives. -/
theorem mapM_watch?_eq_some {r : Registry} {keys : List Nat}
    (h : ∀ key ∈ keys, (r.watch? key).isSome) :
    keys.mapM r.watch? = some (keys.filterMap r.watch?) := by
  induction keys with
  | nil => rfl
  | cons key keys ih =>
    obtain ⟨w, hw⟩ := Option.isSome_iff_exists.mp (h key List.mem_cons_self)
    have ih' := ih fun k hk => h k (List.mem_cons_of_mem _ hk)
    rw [List.mapM_cons, hw, ih', List.filterMap_cons_some hw]
    rfl

/-- The keys of a descriptor are occupied. -/
theorem Enrolled.isSome_watch? {r : Registry} {roll : List Nat} (h : r.Enrolled roll) {fd : Fd}
    {key : Nat} (hk : key ∈ r.chain fd) : (r.watch? key).isSome := by
  obtain ⟨w, hw, -⟩ := h.mem_chain_iff.mp hk
  rw [hw]
  rfl

/-- Summing up the watches of a descriptor meets no vacant slot. -/
theorem Enrolled.armedMaskOf?_chain {r : Registry} {roll : List Nat} (h : r.Enrolled roll)
    (fd : Fd) : r.armedMaskOf? (r.chain fd) = some (r.armedMask fd) := by
  unfold armedMaskOf?
  rw [mapM_watch?_eq_some fun key hk => h.isSome_watch? hk]
  rfl

end Registry

/-- `offer`, without an outcome if the slot is vacant. -/
def Delivery.offer? (fd : Fd) (ready : Mask) (d : Delivery) (key : Nat) : Option Delivery :=
  (d.registry.watch? key).map fun _ => d.offer fd ready key

/-- `fanOut`, without an outcome if one of the slots is vacant. -/
def Delivery.fanOut? (d : Delivery) (e : Event) : Option Delivery :=
  (d.registry.chain e.fd).foldlM (offer? e.fd e.mask) d

/-- `deliver`, without an outcome if one of the slots is vacant that are looked up for the offers
    or for the unions of the armed masks before and after them. -/
def Collector.deliver? {σ : Type} (host : Host σ) (emulated : Bool) :
    List Event → Delivery → σ → Option (Except Error Unit × Delivery × σ)
  | [], d, s => some (d.result, d, s)
  | e :: es, d, s => do
    let keys := d.registry.chain e.fd
    let _ ← d.registry.armedMaskOf? keys
    let d' ← d.fanOut? e
    let _ ← d'.registry.armedMaskOf? keys
    match Delivery.rearm? emulated d d' e with
    | none => deliver? host emulated es d' s
    | some registration =>
      match host.modify e.fd registration s with
      | (.error err, s) => some (.error (.io err), d', s)
      | (.ok (), s) => deliver? host emulated es d' s

namespace Registry.Enrolled

variable {roll : List Nat}

/-- Offers to occupied slots meet no vacant slot: an offer vacates none. -/
theorem foldlM_offer? {d : Delivery} (fd : Fd) (ready : Mask) {keys : List Nat}
    (h : ∀ key ∈ keys, (d.registry.watch? key).isSome) :
    keys.foldlM (Delivery.offer? fd ready) d =
      some (keys.foldl (Delivery.offer fd ready) d) := by
  induction keys generalizing d with
  | nil => rfl
  | cons key keys ih =>
    obtain ⟨w, hw⟩ := Option.isSome_iff_exists.mp (h key List.mem_cons_self)
    have hoffer : Delivery.offer? fd ready d key = some (d.offer fd ready key) := by
      unfold Delivery.offer?
      rw [hw]
      rfl
    -- The induction is over deliveries in which the remaining slots are occupied.
    have ih' : keys.foldlM (Delivery.offer? fd ready) (d.offer fd ready key) =
        some (keys.foldl (Delivery.offer fd ready) (d.offer fd ready key)) := by
      apply ih
      intro k hk
      rw [(d.offer_firesTo fd ready key).isSome_watch?]
      exact h k (List.mem_cons_of_mem _ hk)
    rw [List.foldlM_cons, hoffer, List.foldl_cons]
    exact ih'

/-- A delivery meets no vacant slot. -/
theorem deliver?_eq_some {σ : Type} (host : Host σ) (emulated : Bool) (es : List Event)
    {d : Delivery} (h : d.registry.Enrolled roll) (s : σ) :
    Collector.deliver? host emulated es d s = some (Collector.deliver host emulated es d s) := by
  induction es generalizing d s with
  | nil => rfl
  | cons e es ih =>
    have hfires := d.fanOut_firesTo e
    have hafter := hfires.enrolled h
    have hfan : d.fanOut? e = some (d.fanOut e) :=
      foldlM_offer? _ _ fun key hk => h.isSome_watch? hk
    -- The second union is taken over the keys that were looked up before the offers.
    have hmask : (d.fanOut e).registry.armedMaskOf? (d.registry.chain e.fd) =
        some ((d.fanOut e).registry.armedMask e.fd) := by
      rw [← hfires.chain_eq]
      exact hafter.armedMaskOf?_chain e.fd
    unfold Collector.deliver? Collector.deliver
    dsimp only
    rw [h.armedMaskOf?_chain e.fd, hfan]
    simp only [Option.bind_eq_bind, Option.bind_some, hmask]
    cases Delivery.rearm? emulated d (d.fanOut e) e with
    | none => exact ih hafter s
    | some registration =>
      dsimp only
      rcases host.modify e.fd registration s with ⟨err | u, s'⟩
      · rfl
      · exact ih hafter s'

end Registry.Enrolled

namespace Registry

/-- No function that looks slots up by key, in whatever operation, meets a vacant slot. -/
structure NeverVacant (r : Registry) : Prop where
  /-- The union of the armed masks of a descriptor. -/
  armedMask : ∀ fd, r.armedMaskOf? (r.chain fd) = some (r.armedMask fd)
  /-- The same once a watch was inserted, as an addition needs it. -/
  armedMask_insert : ∀ fd mask fd', (r.insert fd mask).armedMaskOf? ((r.insert fd mask).chain fd') =
    some ((r.insert fd mask).armedMask fd')
  /-- The same once a watch was forgotten, as a removal needs it. -/
  armedMask_forget : ∀ key fd, (r.forget key).armedMaskOf? ((r.forget key).chain fd) =
    some ((r.forget key).armedMask fd)
  /-- Forgetting the watch of a token that was found. -/
  forget : ∀ {t w}, r.find? t = some w → r.forget? t.key = some (r.forget t.key)
  /-- Forgetting the watch of an addition that the poller refused. -/
  forget_insert : ∀ fd mask, (r.insert fd mask).forget? r.slots.nextKey =
    some ((r.insert fd mask).forget r.slots.nextKey)
  /-- Any delivery of an iteration, which starts from what earlier deliveries left. -/
  deliver : ∀ {ρ : Type} (host : Host ρ) (emulated : Bool) (es : List Event) (d : Delivery) (s : ρ),
    r.FiresTo d.registry →
      Collector.deliver? host emulated es d s = some (Collector.deliver host emulated es d s)

/-- A registry with a roll meets no vacant slot. -/
theorem Enrolled.neverVacant {r : Registry} {roll : List Nat} (h : r.Enrolled roll) :
    r.NeverVacant where
  armedMask := h.armedMaskOf?_chain
  armedMask_insert := fun fd mask => (h.insert fd mask).armedMaskOf?_chain
  armedMask_forget := fun key => (h.forget key).armedMaskOf?_chain
  forget := by
    intro t w hf
    obtain ⟨hw, -⟩ := Option.filter_eq_some_iff.mp hf
    unfold forget?
    rw [hw]
    rfl
  forget_insert := by
    intro fd mask
    unfold forget?
    rw [watch?_insert, if_pos rfl]
    rfl
  deliver := fun host emulated es d s hd => (hd.enrolled h).deliver?_eq_some host emulated es s

end Registry

/-! ### Every history -/

/-- **The registry is consistent after every history** of fewer than `2 ^ 32` additions, whatever
    the host answered, and nothing that looks its slots up meets a vacant one.  The collector counts
    as many watches as there are keys in all lists together. -/
theorem History.registry_consistent {σ : Type} {host : Host σ}
    {allowed : Action σ → σ → σ → Prop} {acts : List (Action σ)} {c : Collector σ} {s : σ}
    (h : History host allowed acts c s) (hn : additions acts < 2 ^ 32) :
    c.registry.Consistent ∧ c.registry.NeverVacant ∧
      c.watchCount = (c.registry.chains.values.map List.length).sum := by
  have hconsistent := h.enrolled.consistent (h.versioned hn)
  exact ⟨hconsistent, h.enrolled.neverVacant, hconsistent.size_eq⟩

open Scenario in
/-- Three watches of one descriptor, the last of them in the slot of the first, which was removed:
    its key is the smaller one and still comes behind. -/
theorem registry_consistent_after_reuse :
    ∃ (c : Collector World) (s : World),
      History (World.host 0) anything
        [.add 5 .read (.ok ⟨0, 0⟩), .add 5 .write (.ok ⟨1, 1⟩), .remove ⟨0, 0⟩ (.ok ()),
          .add 5 .closed (.ok ⟨0, 2⟩)] c s ∧
      c.registry.chain 5 = [1, 0] ∧ c.registry.Consistent ∧ c.registry.NeverVacant ∧
      c.watchCount = (c.registry.chains.values.map List.length).sum := by
  have h₀ : History (World.host 0) anything [] _ _ :=
    .create (show Collector.create (World.host 0) (Buffer.ofCapacity 4) default
      Session.scripted.world = (.ok _, _) from rfl)
  have h₁ := h₀.step (.add 5 .read _ _) trivial
  have h₂ := h₁.step (.add 5 .write _ _) trivial
  have h₃ := h₂.step (.remove ⟨0, 0⟩ _ _) trivial
  have h₄ := h₃.step (.add 5 .closed _ _) trivial
  exact ⟨_, _, h₄, by decide, h₄.registry_consistent (by decide)⟩

end Readiness
