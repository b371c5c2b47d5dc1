import Readiness.Delivery
import Readiness.Host

namespace Readiness

/-!
# Collectors

A `Collector` owns a poller of its host, a registry of watches and an event buffer:

* `create` opens the poller;
* `add` and `remove` change the watches and keep the poller's registrations in step;
* `resize` and `setHook` exchange the buffer and the hook;
* `run` waits once and leaves what was reported in the buffer, without the wake descriptor.

Every operation takes the state of the host and gives the next one. An operation that fails still
has an effect: `Outcome` holds the answer, right or wrong, next to the collector and the host it
leaves behind.

A run may wait many times: an interrupted wait is repeated for the time that is left, and a blocking
run goes on until something is reported. `run` takes the largest number of waits it may make and has
no outcome if they do not suffice; a run that has one keeps it under any larger number.
-/

/-- A readiness collector on a host with states in `σ`. -/
structure Collector (σ : Type) where
  /-- The watches. -/
  registry : Registry
  /-- The buffer iterations write into. -/
  buffer : Buffer
  /-- Whether one-shot registrations stand in for level mode, which the poller lacks. -/
  emulated : Bool
  /-- The unit in which `runTicks` is given its timeout. -/
  timeUnit : TimeUnit
  /-- The callbacks around waits that may block. -/
  hook : WaitHook σ

/-- What an operation leaves behind, whether it failed or not. -/
structure Outcome (σ α : Type) where
  /-- The answer of the operation. -/
  answer : Except Error α
  /-- The collector after it. -/
  collector : Collector σ
  /-- The state of the host after it. -/
  state : σ

namespace Collector

variable {σ : Type}

/-! ### Making a collector -/

/-- Opens a poller and makes a collector that writes into `buffer`. -/
def create (host : Host σ) (buffer : Buffer) (timeUnit : TimeUnit) (s : σ) :
    Except Error (Collector σ) × σ :=
  match host.openPoller s with
  | (.error e, s) => (.error (.io e), s)
  | (.ok hasLevel, s) =>
    let s := if hasLevel then s else host.log .emulatingLevel s
    (.ok ⟨∅, buffer, !hasLevel, timeUnit, .none⟩, host.log (.created buffer.capacity) s)

/-! ### Watches -/

/-- The registration of `fd` for what its armed watches ask for. -/
def registrationOf (c : Collector σ) (r : Registry) (fd : Fd) : Registration :=
  .ofMask c.emulated fd.toKey (r.armedMask fd)

/-- Watches `fd` for the conditions in `mask`. A watch the poller refuses is forgotten again; its
    version is not reused. -/
def add (host : Host σ) (c : Collector σ) (fd : Fd) (mask : Mask) (s : σ) : Outcome σ Token :=
  let registry := c.registry.insert fd mask
  let registration := c.registrationOf registry fd
  -- The first watch of a descriptor registers it, the others widen its registration.
  let call := if (registry.chain fd).length = 1 then host.add else host.modify
  match call fd registration s with
  | (.error e, s) =>
    ⟨.error (.io e), { c with registry := registry.forget c.registry.nextToken.key }, s⟩
  | (.ok (), s) =>
    ⟨.ok c.registry.nextToken, { c with registry := registry }, host.log (.watching fd mask) s⟩

/-- Removes the watch a token names. The watch is gone even if the poller then fails. -/
def remove (host : Host σ) (c : Collector σ) (t : Token) (s : σ) : Outcome σ Unit :=
  match c.registry.find? t with
  | none => ⟨.error .invalidToken, c, s⟩
  | some w =>
    let registry := c.registry.forget t.key
    let s := host.log (.unwatching w.fd) s
    -- The last watch of a descriptor ends its registration, the others narrow it.
    let (answer, s) :=
      if registry.chain w.fd = [] then host.delete w.fd s
      else host.modify w.fd (c.registrationOf registry w.fd) s
    ⟨answer.mapError .io, { c with registry := registry }, s⟩

/-! ### Buffer and hook -/

/-- Exchanges the buffer; the old one is handed back as it was left. -/
def resize (host : Host σ) (c : Collector σ) (buffer : Buffer) (s : σ) : Outcome σ Buffer :=
  ⟨.ok c.buffer, { c with buffer := buffer },
    host.log (.resizing c.buffer.capacity buffer.capacity) s⟩

/-- Exchanges the hook. -/
def setHook (c : Collector σ) (hook : WaitHook σ) : Collector σ := { c with hook := hook }

/-! ### Iterations -/

/-- Delivers events in order, and re-arms each descriptor after its event. An overflow is reported
    at the end; a poller that fails ends the delivery at once. -/
def deliver (host : Host σ) (emulated : Bool) :
    List Event → Delivery → σ → Except Error Unit × Delivery × σ
  | [], d, s => (d.result, d, s)
  | e :: es, d, s =>
    let d' := d.fanOut e
    match Delivery.rearm? emulated d d' e with
    | none => deliver host emulated es d' s
    | some registration =>
      match host.modify e.fd registration s with
      -- An overflow that came before is forgotten in favour of this error.
      | (.error err, s) => (.error (.io err), d', s)
      | (.ok (), s) => deliver host emulated es d' s

/-- Waits until an iteration is over, at most `waits` times. `start` is the time at which the run
    began, `limit` the limit of the next wait. -/
def collect (host : Host σ) (emulated : Bool) (timeout : Timeout) (start : Duration) :
    (waits : Nat) → Option Duration → Delivery → σ → Option (Except Error Unit × Delivery × σ)
  | 0, _, _, _ => none
  | waits + 1, limit, d, s =>
    match host.wait limit s with
    | (.error e, s) =>
      if e.kind = .interrupted then
        -- Wait again for what is left of the time, if anything is.
        match timeout.limitAfter (host.now s - start) with
        | none => some (.ok (), d, s)
        | some limit => collect host emulated timeout start waits limit d s
      else some (.error (.io e), d, s)
    | (.ok events, s) =>
      match deliver host emulated events d s with
      | (.error e, d, s) => some (.error e, d, s)
      | (.ok (), d, s) =>
        -- A blocking run only ends once something was reported.
        if timeout = .block ∧ d.buffer.isEmpty then
          collect host emulated timeout start waits limit d s
        else some (.ok (), d, s)

/-- Ends an iteration: takes the records of the wake descriptor out, and drains it if there were
    any. An iteration that failed is left as it is. -/
def finish (host : Host σ) (c : Collector σ) (wokeFd : Fd) (answer : Except Error Unit) (s : σ) :
    Outcome σ Nat :=
  match answer with
  | .error e => ⟨.error e, c, s⟩
  | .ok () =>
    let woken := c.buffer.countFd wokeFd
    let buffer := c.buffer.removeFd wokeFd
    let s :=
      if woken = 0 then s
      else
        let (bytes, s) := host.drain wokeFd s
        host.log (.drained bytes) s
    ⟨.ok buffer.size, { c with buffer := buffer }, host.log (.reported buffer.size) s⟩

/-- Runs one iteration with at most `waits` waits and counts what it reported. `wakeFd` is shown to
    the hook before a wait that may block; `wokeFd` is taken out of the report and drained. -/
def run (host : Host σ) (c : Collector σ) (wakeFd wokeFd : Fd) (timeout : Timeout) (waits : Nat)
    (s : σ) : Option (Outcome σ Nat) :=
  let buffer := c.buffer.clear
  let c := { c with buffer := buffer }
  let collected (s : σ) :=
    collect host c.emulated timeout (host.now s) waits timeout.limit ⟨c.registry, buffer, none⟩ s
  let left (d : Delivery) := { c with registry := d.registry, buffer := d.buffer }
  -- The hook only hears of waits that may block.
  if timeout.mayBlock then
    match c.hook.prepareToWait wakeFd s with
    | (true, s) => some ⟨.ok 0, c, host.log .calledOff s⟩
    | (false, s) =>
      (collected s).map fun (answer, d, s) =>
        finish host (left d) wokeFd answer (c.hook.waitFinished s)
  else
    (collected s).map fun (answer, d, s) => finish host (left d) wokeFd answer s

/-- `run` with a timeout counted in the time unit of the collector. -/
def runTicks (host : Host σ) (c : Collector σ) (wakeFd wokeFd : Fd) (ticks : Int64) (waits : Nat)
    (s : σ) : Option (Outcome σ Nat) :=
  c.run host wakeFd wokeFd (.ofTicks ticks c.timeUnit) waits s

/-- An outcome of `waits` waits is the outcome of any larger number. -/
theorem collect_mono (host : Host σ) (emulated : Bool) (timeout : Timeout) (start : Duration)
    {waits more : Nat} (h : waits ≤ more) {limit : Option Duration} {d : Delivery} {s : σ}
    {r : Except Error Unit × Delivery × σ}
    (hr : collect host emulated timeout start waits limit d s = some r) :
    collect host emulated timeout start more limit d s = some r := by
  induction waits generalizing more limit d s with
  | zero => simp [collect] at hr
  | succ n ih =>
    obtain ⟨m, rfl⟩ : ∃ m, more = m + 1 := ⟨more - 1, by omega⟩
    have hnm : n ≤ m := by omega
    unfold collect at hr ⊢
    split at hr
    · -- The wait failed; only an interruption goes on.
      split at hr
      · next hk =>
        simp only [hk, if_true]
        split at hr
        · next hl => simpa [hl] using hr
        · next hl => simpa [hl] using ih hnm hr
      · next hk => simpa [hk] using hr
    · -- The wait gave events; only a blocking run without records goes on.
      split at hr
      · next hd => simpa [hd] using hr
      · next hd =>
        split at hr
        · next hb => simpa [hd, hb] using ih hnm hr
        · next hb => simpa [hd, hb] using hr

/-! ### What a caller sees -/

/-- The records of the last iteration. -/
def events (c : Collector σ) : List Record := c.buffer.records

/-- The number of registered watches. -/
def watchCount (c : Collector σ) : Nat := c.registry.size

/-- The number of records one iteration can report. -/
def capacity (c : Collector σ) : Nat := c.buffer.capacity

/-- How a collector is written. -/
def text (_ : Collector σ) : String := "EventBase \x7b ... \x7d"

end Collector

end Readiness
