import Constellation.Store.Key
import Constellation.Store.Cache
import Constellation.Dns.Flatten
import Constellation.Dns.Health
import Constellation.Dns.Message
import Constellation.Monad.Local

/-! # The process and what surrounds it

The state the tasks of Constellation share: the store's pools, rate limiter and
cache, the metrics, the flatten registry and bootstrap queue, and the dead
register. Around it: the keyspace of each Redis server, the clock, the
responses sent, and what the outside world will answer to the calls still to
come, in order. A task runs in `TaskM`, a state monad whose errors are panics:
a panic ends the task and keeps what it had done.

The read-only parts (configuration, farmhash, serde_json, hickory's record
parser, the GeoIP database and the country table) are the fields of `Env`.
-/

namespace Constellation

open Dns Store Cache

/-- A Redis server's keyspace. -/
abbrev Keyspace := String → Option RedisHash

/-- `StorePool`: a Redis server and the time until which it is delinquent. -/
structure StorePool where
  delinquentUntil : Option ℕ
  keyspace : Keyspace

/-- `StoreLimitsRate`. -/
structure StoreLimitsRate where
  timeLast : ℕ
  timeSpent : ℕ

/-- The outcome of a Redis command: done, or failed with an I/O or protocol error, after
which the server may or may not have applied it. -/
inductive CommandOutcome
  | done
  | failed (applied : Bool)
  deriving DecidableEq

/-- The answers of the outside world to the calls still to come, in order. An exhausted
list answers with the default: no time passes, a pool is acquired, a command is done, a
response is delivered. -/
structure Io where
  ticks : List ℕ := []
  acquire : List Bool := []
  commands : List CommandOutcome := []
  sends : List Bool := []

structure World (Country : Type) where
  pools : List StorePool
  rate : StoreLimitsRate
  cache : StoreCache Country
  metrics : MetricsStore Country
  registry : DNSFlattenRegistry
  bootstrap : DNSBootstrap
  dead : DeadRegister
  now : ℕ
  io : Io
  sent : List Message

/-- The world as the process starts at time `now`: the statics are empty, the limiter
starts its window then (`StoreLimitsRate::default`), no server is delinquent, nothing has
been sent, and the outside world will answer `io`. -/
def World.init {Country : Type} (keyspaces : List Keyspace) (now : ℕ) (io : Io) :
    World Country where
  pools := keyspaces.map fun keyspace => ⟨none, keyspace⟩
  rate := ⟨now, 0⟩
  cache := fun _ => none
  metrics := fun _ => none
  registry := fun _ => none
  bootstrap := fun _ => none
  dead := ∅
  now := now
  io := io
  sent := []

/-- The read-only surroundings. -/
structure Env (Country Addr : Type) where
  conf : Config
  fingerprint32 : Fingerprint
  serde : Serde Country
  parser : RDataParser
  locate : Addr → Option Country
  regionOf : Country → RegionCode

/-- A task of the process. -/
abbrev TaskM (Country : Type) := EStateM Panic (World Country)

namespace TaskM

variable {Country : Type}

/-- `Instant::now()` and `SystemTime::now()`: the clock after the next tick. -/
def readClock : TaskM Country ℕ :=
  modifyGet fun w =>
    match w.io.ticks with
    | [] => (w.now, w)
    | d :: ticks => (w.now + d, { w with now := w.now + d, io := { w.io with ticks } })

/-- The outcome of the next pool acquisition. -/
def acquire : TaskM Country Bool :=
  modifyGet fun w =>
    match w.io.acquire with
    | [] => (true, w)
    | ok :: acquire => (ok, { w with io := { w.io with acquire } })

/-- The outcome of the next Redis command. -/
def command : TaskM Country CommandOutcome :=
  modifyGet fun w =>
    match w.io.commands with
    | [] => (.done, w)
    | outcome :: commands => (outcome, { w with io := { w.io with commands } })

/-! ## The calls when the outside world has nothing queued, or the next answer -/

section Run

variable {w : World Country}

@[simp] theorem getThe_run : (getThe (World Country) : TaskM Country _).run w = .ok w w := rfl

theorem readClock_run_of_nil (h : w.io.ticks = []) :
    (readClock : TaskM Country ℕ).run w = .ok w.now w := by
  simp [readClock, h, EStateM.run, modifyGet, MonadStateOf.modifyGet, EStateM.modifyGet]

theorem acquire_run_of_nil (h : w.io.acquire = []) :
    (acquire : TaskM Country Bool).run w = .ok true w := by
  simp [acquire, h, EStateM.run, modifyGet, MonadStateOf.modifyGet, EStateM.modifyGet]

theorem acquire_run_cons {ok : Bool} {rest : List Bool} (h : w.io.acquire = ok :: rest) :
    (acquire : TaskM Country Bool).run w = .ok ok { w with io := { w.io with acquire := rest } } := by
  simp [acquire, h, EStateM.run, modifyGet, MonadStateOf.modifyGet, EStateM.modifyGet]

theorem command_run_of_nil (h : w.io.commands = []) :
    (command : TaskM Country CommandOutcome).run w = .ok .done w := by
  simp [command, h, EStateM.run, modifyGet, MonadStateOf.modifyGet, EStateM.modifyGet]

end Run

/-- `responder.send_response`: the message goes out; whether it is delivered is the
world's answer. -/
def sendResponse (message : Message) : TaskM Country (Except Unit Header) :=
  modifyGet fun w =>
    let w := { w with sent := w.sent ++ [message] }
    match w.io.sends with
    | [] => (.ok message.header, w)
    | ok :: sends =>
      (if ok then .ok message.header else .error (), { w with io := { w.io with sends } })

/-! ## Projections that leave the outside world alone -/

/-- `f` leaves the clock and the answers still to come alone, and changing those commutes
with it. -/
structure KeepsIo (f : World Country → World Country) : Prop where
  now : ∀ w, (f w).now = w.now
  io : ∀ w, (f w).io = w.io
  set_clock : ∀ w now io, f { w with now, io } = { f w with now, io }
  set_io : ∀ w io, f { w with io } = { f w with io }

section KeepsIo

variable {f : World Country → World Country} (hf : KeepsIo f)
include hf

theorem commutes_readClock : Commutes f (readClock : TaskM Country ℕ) := by
  unfold readClock
  refine Commutes.modifyGet fun w => ?_
  cases h : w.io.ticks with
  | nil => simp only [hf.now, hf.io, h]
  | cons d ticks =>
    simp only [hf.now, hf.io, h]
    rw [hf.set_clock w (w.now + d) { w.io with ticks }]

theorem commutes_acquire : Commutes f (acquire : TaskM Country Bool) := by
  unfold acquire
  refine Commutes.modifyGet fun w => ?_
  cases h : w.io.acquire with
  | nil => simp only [hf.io, h]
  | cons ok acquire =>
    simp only [hf.io, h]
    rw [hf.set_io w { w.io with acquire }]

theorem commutes_command : Commutes f (command : TaskM Country CommandOutcome) := by
  unfold command
  refine Commutes.modifyGet fun w => ?_
  cases h : w.io.commands with
  | nil => simp only [hf.io, h]
  | cons outcome commands =>
    simp only [hf.io, h]
    rw [hf.set_io w { w.io with commands }]

end KeepsIo

end TaskM

end Constellation
