import Constellation.Dns.Parse
import Constellation.Data.Toggle

/-! # HTTP health checks

`DNSHealthHTTP` probes over HTTP each value of the A, AAAA and CNAME records of
the names configured under `[[dns.health.http]]`. A probe that fails is made
again while the attempt is below `max_attempts`; the last probe settles the
value healthy or dead. `HEALTH_DEAD_REGISTER` holds the dead values, and a value
that enters or leaves it stacks a notification, which `run_checks` dispatches at
the end of each round.

What the probes get comes from outside the process: `HealthIo` says whether a
URL parses and what the `n`-th probe of the process gets back, so that a check is
a function of the state. The store reads of a round are given as what each read
of a configured check returns.
-/

namespace Constellation.Dns

open Data Store

/-- `ConfigDNSHealthHTTP`, with the defaults of `config/defaults.rs`. The method and the
timeout shape only the probe, whose outcome `HealthIo` gives. -/
structure ConfigDNSHealthHTTP where
  zone : ZoneName
  name : RecordName
  host : Option String := none
  path : String := "/"
  port : UInt16 := 443
  secure : Bool := true
  maxAttempts : UInt8 := 3
  expectedStatus : List UInt16 := [200]
  expectedBody : Option (List String) := none

def HEALTH_CHECK_RECORD_TYPES : List RecordType := [.A, .AAAA, .CNAME]

/-- The status a probe that got no response counts as. -/
def HEALTH_CHECK_FAILED_STATUS : UInt16 := 503

/-- What one probe gets: the status of the response, none when the request failed, and the
body written, as text when it is valid UTF-8. -/
structure ProbeResponse where
  statusCode : Option UInt16
  body : Option String

/-- The status `check_domain_record` reads off a probe. -/
def ProbeResponse.status (response : ProbeResponse) : UInt16 :=
  response.statusCode.getD HEALTH_CHECK_FAILED_STATUS

/-- What the checks read from outside the process: whether `Uri::try_from` accepts a URL,
and what the `n`-th probe of the process gets. -/
structure HealthIo where
  uriParses : String → Bool
  responses : ℕ → ProbeResponse

/-- An event of `DNSHealthNotify`: the value, the status it got and why. -/
structure DNSHealthEvent where
  zone : ZoneName
  name : RecordName
  value : RecordValue
  status : DNSHealthStatus
  reason : Option String

/-- What the checks carry from probe to probe: `HEALTH_DEAD_REGISTER`, the events stacked on
the round's `DNSHealthNotify`, and how many probes the process has made. -/
structure DNSHealthState where
  dead : DeadRegister
  events : List DNSHealthEvent
  probes : ℕ

/-- The state of a process that has checked nothing yet. -/
def DNSHealthState.init : DNSHealthState := ⟨∅, [], 0⟩

namespace DNSHealthHTTP

/-- `generate_request_url`: the URL to probe, `[protocol]://[value]:[port][path]` with an
AAAA value in brackets, and the virtual host. -/
def generateRequestUrl (zone : ZoneName) (name : RecordName) (port : UInt16)
    (host : Option String) (path : String) (secure : Bool) (kind : RecordType)
    (value : RecordValue) : String × String :=
  ((if secure then "https:" else "http:") ++ "//" ++ (if kind = .AAAA then "[" else "") ++
      value.val ++ (if kind = .AAAA then "]" else "") ++ ":" ++ toString port ++ path,
    host.getD (name.toSubdomain ++ zone.toStr))

/-- `check_body_matches`: with expected bodies configured, the body is text and holds one of
them. -/
def checkBodyMatches (domain : ConfigDNSHealthHTTP) (body : Option String) : Bool :=
  match domain.expectedBody with
  | some expectedBodyList =>
    if expectedBodyList.length > 0 then
      match body with
      | some body => expectedBodyList.any fun expectedBody =>
          decide (expectedBody.toList <:+: body.toList)
      | none => false
    else true
  | none => true

/-- The `is_success` of `check_domain_record`: an expected status and a matching body. -/
def isSuccess (domain : ConfigDNSHealthHTTP) (response : ProbeResponse) : Bool :=
  domain.expectedStatus.contains response.status && checkBodyMatches domain response.body

/-- `handle_domain_record_status`: a success takes the value out of the register, stacking
`Healthy` if it was in; a failure puts it in, stacking `Dead` if it was out. -/
def handleDomainRecordStatus (domain : ConfigDNSHealthHTTP) (recordValue : RecordValue)
    (statusCode : UInt16) (isSuccess : Bool) (state : DNSHealthState) : DNSHealthState :=
  if isSuccess then
    { state with
      events :=
        if (domain.zone, domain.name, recordValue) ∈ state.dead then
          state.events ++ [⟨domain.zone, domain.name, recordValue, .Healthy, none⟩]
        else state.events
      dead := state.dead.erase (domain.zone, domain.name, recordValue) }
  else
    { state with
      events :=
        if (domain.zone, domain.name, recordValue) ∉ state.dead then
          state.events ++ [⟨domain.zone, domain.name, recordValue, .Dead,
            some ("Got HTTP status: " ++ toString statusCode ++ " or invalid body")⟩]
        else state.events
      dead := insert (domain.zone, domain.name, recordValue) state.dead }

theorem toNat_add_one_of_lt {a b : UInt8} (h : a < b) : (a + 1).toNat = a.toNat + 1 := by
  have hb : b.toNat < 2 ^ 8 := b.toNat_lt
  have hab : a.toNat < b.toNat := UInt8.lt_iff_toNat_lt.mp h
  rw [UInt8.toNat_add, UInt8.toNat_one]
  omega

/-- `check_domain_record`: probe the value, and again from the next attempt while the probe
fails below `max_attempts`. -/
def checkDomainRecord (io : HealthIo) (domain : ConfigDNSHealthHTTP) (recordType : RecordType)
    (recordValue : RecordValue) (attempt : UInt8) (state : DNSHealthState) : DNSHealthState :=
  if io.uriParses (generateRequestUrl domain.zone domain.name domain.port domain.host domain.path
      domain.secure recordType recordValue).1 then
    if isSuccess domain (io.responses state.probes) = false then
      if attempt < domain.maxAttempts then
        checkDomainRecord io domain recordType recordValue (attempt + 1)
          { state with probes := state.probes + 1 }
      else
        handleDomainRecordStatus domain recordValue (io.responses state.probes).status false
          { state with probes := state.probes + 1 }
    else
      handleDomainRecordStatus domain recordValue (io.responses state.probes).status true
        { state with probes := state.probes + 1 }
  else state
termination_by domain.maxAttempts.toNat - attempt.toNat
decreasing_by
  rename_i hlt
  have hstep := toNat_add_one_of_lt hlt
  have hlt' := UInt8.lt_iff_toNat_lt.mp hlt
  omega

variable {Country : Type}

/-- `check_domain`: for each type of `HEALTH_CHECK_RECORD_TYPES` that the store has a record
of, each value of the record checked from the first attempt; `read` is what the store's
reads return, none for an error. -/
def checkDomain (io : HealthIo) (domain : ConfigDNSHealthHTTP)
    (read : RecordType → Option (StoreRecord Country)) (state : DNSHealthState) :
    DNSHealthState :=
  HEALTH_CHECK_RECORD_TYPES.foldl (fun state recordType =>
    match read recordType with
    | some record => record.listRecordValues.foldl (fun state recordValue =>
        checkDomainRecord io domain recordType recordValue 1 state) state
    | none => state) state

/-- `DNSHealthHTTP::run`: the configured checks in order. -/
def run (io : HealthIo) (http : List ConfigDNSHealthHTTP)
    (read : ConfigDNSHealthHTTP → RecordType → Option (StoreRecord Country))
    (state : DNSHealthState) : DNSHealthState :=
  http.foldl (fun state domain => checkDomain io domain (read domain) state) state

/-! ## A check settles on the first probe that succeeds -/

section Settle

variable (io : HealthIo) (domain : ConfigDNSHealthHTTP)

/-- How many probes a check may still make at attempt `attempt`: this one, and one more for
each attempt below `max_attempts`. -/
def attemptsLeft (attempt : UInt8) : ℕ := domain.maxAttempts.toNat - attempt.toNat + 1

/-- The first of `count` probes from the `start`-th that succeeds, counted from `start`. -/
def firstSuccess (start count : ℕ) : Option ℕ :=
  (List.range count).find? fun j => isSuccess domain (io.responses (start + j))

/-- What a check comes to from attempt `attempt`: the first probe that succeeds among the
attempts left settles the value healthy; when none does, the last one settles it dead. -/
def settle (recordValue : RecordValue) (attempt : UInt8) (state : DNSHealthState) :
    DNSHealthState :=
  match firstSuccess io domain state.probes (attemptsLeft domain attempt) with
  | some j =>
    handleDomainRecordStatus domain recordValue (io.responses (state.probes + j)).status true
      { state with probes := state.probes + j + 1 }
  | none =>
    handleDomainRecordStatus domain recordValue
      (io.responses (state.probes + attemptsLeft domain attempt - 1)).status false
      { state with probes := state.probes + attemptsLeft domain attempt }

theorem attemptsLeft_of_lt {attempt : UInt8} (h : attempt < domain.maxAttempts) :
    attemptsLeft domain attempt = attemptsLeft domain (attempt + 1) + 1 := by
  have hstep := toNat_add_one_of_lt h
  have hlt := UInt8.lt_iff_toNat_lt.mp h
  unfold attemptsLeft
  omega

theorem attemptsLeft_of_not_lt {attempt : UInt8} (h : ¬ attempt < domain.maxAttempts) :
    attemptsLeft domain attempt = 1 := by
  have hle : domain.maxAttempts.toNat ≤ attempt.toNat := by
    rw [UInt8.lt_iff_toNat_lt] at h
    omega
  unfold attemptsLeft
  omega

theorem firstSuccess_of_success {start count : ℕ}
    (h : isSuccess domain (io.responses start) = true) :
    firstSuccess io domain start (count + 1) = some 0 := by
  simp [firstSuccess, List.range_succ_eq_map, h]

theorem firstSuccess_of_failure {start count : ℕ}
    (h : isSuccess domain (io.responses start) = false) :
    firstSuccess io domain start (count + 1) =
      (firstSuccess io domain (start + 1) count).map (· + 1) := by
  simp only [firstSuccess, List.range_succ_eq_map, List.find?_cons, Nat.add_zero, h,
    List.find?_map]
  congr 2
  funext j
  simp only [Function.comp_apply]
  congr 2
  omega

@[simp] theorem firstSuccess_zero {start : ℕ} : firstSuccess io domain start 0 = none := rfl

variable {recordType : RecordType} {recordValue : RecordValue}

/-- The recursion on the attempt finds the first probe that succeeds. -/
theorem checkDomainRecord_eq_settle
    (hurl : io.uriParses (generateRequestUrl domain.zone domain.name domain.port domain.host
      domain.path domain.secure recordType recordValue).1 = true) (attempt : UInt8)
    (state : DNSHealthState) :
    checkDomainRecord io domain recordType recordValue attempt state =
      settle io domain recordValue attempt state := by
  fun_induction checkDomainRecord io domain recordType recordValue attempt state with
  | case1 attempt state _ hfail hlt ih =>
    -- a failed probe below max_attempts: the rest of the attempts settle it
    rw [ih, settle, settle, attemptsLeft_of_lt domain hlt, firstSuccess_of_failure io domain hfail]
    cases hfirst : firstSuccess io domain (state.probes + 1) (attemptsLeft domain (attempt + 1)) with
    | some j =>
      have hj : state.probes + (j + 1) = state.probes + 1 + j := by omega
      simp [hj]
    | none =>
      have hleft : state.probes + (attemptsLeft domain (attempt + 1) + 1) =
          state.probes + 1 + attemptsLeft domain (attempt + 1) := by omega
      simp [hleft]
  | case2 attempt state _ hfail hlt =>
    -- the last attempt failed: it settles the value dead
    rw [settle, attemptsLeft_of_not_lt domain hlt, firstSuccess_of_failure io domain hfail]
    simp
  | case3 attempt state _ hsuccess =>
    rw [Bool.not_eq_false] at hsuccess
    rw [settle, attemptsLeft, firstSuccess_of_success io domain hsuccess]
    simp
  | case4 attempt state hparse => exact absurd hurl hparse

@[simp] theorem handleDomainRecordStatus_probes {statusCode : UInt16} {isSuccess : Bool}
    {state : DNSHealthState} :
    (handleDomainRecordStatus domain recordValue statusCode isSuccess state).probes =
      state.probes := by
  unfold handleDomainRecordStatus
  split <;> rfl

/-- The value is dead after it is settled exactly when it is settled as a failure. -/
@[simp] theorem mem_handleDomainRecordStatus_dead {statusCode : UInt16} {isSuccess : Bool}
    {state : DNSHealthState} :
    (domain.zone, domain.name, recordValue) ∈
        (handleDomainRecordStatus domain recordValue statusCode isSuccess state).dead ↔
      isSuccess = false := by
  cases isSuccess <;> simp [handleDomainRecordStatus]

/-- A check from attempt `attempt` makes `n` probes, `n` at most the attempts left: all fail
but the last, which succeeds unless the attempts ran out; the value is dead after the check
exactly when all `n` failed. -/
theorem settle_spec (attempt : UInt8) (state : DNSHealthState) :
    ∃ n, 1 ≤ n ∧ n ≤ attemptsLeft domain attempt ∧
      (settle io domain recordValue attempt state).probes = state.probes + n ∧
      (∀ j < n - 1, isSuccess domain (io.responses (state.probes + j)) = false) ∧
      (isSuccess domain (io.responses (state.probes + n - 1)) = true ∨
        n = attemptsLeft domain attempt) ∧
      ((domain.zone, domain.name, recordValue) ∈ (settle io domain recordValue attempt state).dead ↔
        ∀ j < n, isSuccess domain (io.responses (state.probes + j)) = false) := by
  cases hfirst : firstSuccess io domain state.probes (attemptsLeft domain attempt) with
  | some j =>
    -- the `j`-th probe is the first to succeed
    obtain ⟨hsuccess, hrange, hbefore⟩ := List.find?_range_eq_some.mp hfirst
    have hj : j < attemptsLeft domain attempt := List.mem_range.mp hrange
    have hfailed : ∀ k < j, isSuccess domain (io.responses (state.probes + k)) = false := by
      intro k hk
      simpa using hbefore k hk
    refine ⟨j + 1, by omega, hj, ?_, ?_, ?_, ?_⟩
    · simp [settle, hfirst]
      omega
    · simpa using hfailed
    · left
      simpa using hsuccess
    · simp only [settle, hfirst, mem_handleDomainRecordStatus_dead, Bool.true_eq_false,
        false_iff, not_forall]
      exact ⟨j, by omega, by simp [hsuccess]⟩
  | none =>
    -- every probe fails: the attempts run out
    have hfailed : ∀ k < attemptsLeft domain attempt,
        isSuccess domain (io.responses (state.probes + k)) = false := by
      intro k hk
      simpa using List.find?_range_eq_none.mp hfirst k hk
    have hpos : 1 ≤ attemptsLeft domain attempt := by
      unfold attemptsLeft
      omega
    refine ⟨attemptsLeft domain attempt, hpos, le_rfl, ?_, ?_, Or.inr rfl, ?_⟩
    · simp [settle, hfirst]
    · intro k hk
      exact hfailed k (by omega)
    · simpa [settle, hfirst] using hfailed

end Settle

end DNSHealthHTTP

namespace DNSHealth

variable {Country : Type}

/-- `DNSHealth::run_checks`: a round of HTTP checks on a new notifier; the events it
dispatches, and the state after. -/
def runChecks (io : HealthIo) (http : List ConfigDNSHealthHTTP)
    (read : ConfigDNSHealthHTTP → RecordType → Option (StoreRecord Country))
    (state : DNSHealthState) : List DNSHealthEvent × DNSHealthState :=
  let state := DNSHealthHTTP.run io http read { state with events := [] }
  (state.events, state)

/-- The rounds of `DNSHealth::run`, one for each of `reads`: all the events dispatched, and
the state after. -/
def runRounds (io : HealthIo) (http : List ConfigDNSHealthHTTP) :
    List (ConfigDNSHealthHTTP → RecordType → Option (StoreRecord Country)) → DNSHealthState →
      List DNSHealthEvent × DNSHealthState
  | [], state => ([], state)
  | read :: reads, state =>
    let round := runChecks io http read state
    let later := runRounds io http reads round.2
    (round.1 ++ later.1, later.2)

end DNSHealth

/-! ## Notifications follow the register

As changes of a logged register, a `Dead` event is an entry and a `Healthy` one an
exit: settling a value is `enter` or `leave` of its key, so the invariant of the
register library carries over every check and every round. -/

section Notifications

/-- The change of the register an event stands for: its key, and whether the key entered. -/
def DNSHealthEvent.change (event : DNSHealthEvent) :
    (ZoneName × RecordName × RecordValue) × Bool :=
  ((event.zone, event.name, event.value), decide (event.status = .Dead))

/-- The statuses of the events about a key, in order. -/
def DNSHealthEvent.statusesOf (events : List DNSHealthEvent)
    (key : ZoneName × RecordName × RecordValue) : List DNSHealthStatus :=
  (events.filter fun event => (event.zone, event.name, event.value) = key).map
    DNSHealthEvent.status

/-- `Dead`, `Healthy`, `Dead`, ...: the first `n` notifications of a key that starts healthy. -/
def deadHealthy (n : ℕ) : List DNSHealthStatus :=
  (alternating n).map fun entered => if entered then .Dead else .Healthy

/-- The register, logged with the events dispatched and those stacked since. -/
def DNSHealthState.logged (dispatched : List DNSHealthEvent) (state : DNSHealthState) :
    LoggedRegister (ZoneName × RecordName × RecordValue) :=
  ⟨state.dead, (dispatched ++ state.events).map DNSHealthEvent.change⟩

/-- The health invariant: the register and the events so far alternate as a logged register,
and every event is `Dead` or `Healthy`. -/
structure DNSHealthState.Tracks (dispatched : List DNSHealthEvent) (state : DNSHealthState) :
    Prop where
  alternates : (state.logged dispatched).Alternates
  checked : ∀ event ∈ dispatched ++ state.events, event.status ≠ .Unchecked

variable {dispatched : List DNSHealthEvent} {state : DNSHealthState}

theorem changes_logged (key : ZoneName × RecordName × RecordValue) :
    (state.logged dispatched).changes key =
      (DNSHealthEvent.statusesOf (dispatched ++ state.events) key).map
        fun status => decide (status = .Dead) := by
  simp [LoggedRegister.changes, DNSHealthState.logged, DNSHealthEvent.statusesOf,
    List.filter_map, Function.comp_def, DNSHealthEvent.change]
  rfl

namespace DNSHealthState.Tracks

variable (h : state.Tracks dispatched) (key : ZoneName × RecordName × RecordValue)
include h

/-- The notifications of every key alternate `Dead`, `Healthy`, ..., from `Dead`. -/
theorem statusesOf_eq_deadHealthy :
    DNSHealthEvent.statusesOf (dispatched ++ state.events) key =
      deadHealthy (DNSHealthEvent.statusesOf (dispatched ++ state.events) key).length := by
  -- each status is `Dead` or `Healthy`, so it is read back from its change
  have hback : DNSHealthEvent.statusesOf (dispatched ++ state.events) key =
      ((state.logged dispatched).changes key).map
        fun entered => if entered then .Dead else .Healthy := by
    rw [changes_logged, List.map_map]
    refine (List.map_congr_left fun status hstatus => ?_).trans (List.map_id _) |>.symm
    obtain ⟨event, hevent, rfl⟩ := List.mem_map.mp hstatus
    have hchecked := h.checked event (List.mem_filter.mp hevent).1
    cases hs : event.status <;> simp_all
  rw [hback, List.length_map, deadHealthy]
  exact congrArg _ (h.alternates key).1

/-- A key is dead exactly when it has an odd number of notifications: the last is `Dead`. -/
theorem mem_dead_iff :
    key ∈ state.dead ↔ (DNSHealthEvent.statusesOf (dispatched ++ state.events) key).length % 2 = 1 := by
  have hmem := (h.alternates key).2
  rwa [changes_logged, List.length_map] at hmem

/-- A round dispatches its events: they join those dispatched before. -/
theorem dispatch : ({ state with events := [] } : DNSHealthState).Tracks (dispatched ++ state.events) := by
  have hlogged : ({ state with events := [] } : DNSHealthState).logged
      (dispatched ++ state.events) = state.logged dispatched := by
    simp [DNSHealthState.logged]
  exact ⟨hlogged ▸ h.alternates, by simpa using h.checked⟩

end DNSHealthState.Tracks

theorem tracks_init : (DNSHealthState.init).Tracks [] := by
  have hlogged : DNSHealthState.init.logged [] = ⟨∅, []⟩ := rfl
  exact ⟨hlogged ▸ LoggedRegister.alternates_empty, by simp [DNSHealthState.init]⟩

namespace DNSHealthHTTP

variable {domain : ConfigDNSHealthHTTP} {recordValue : RecordValue} {statusCode : UInt16}

/-- Settling a value as a success is its key leaving the register, as a failure its key
entering it: a notification is stacked exactly when the register changes. -/
theorem logged_handleDomainRecordStatus (isSuccess : Bool) :
    (handleDomainRecordStatus domain recordValue statusCode isSuccess state).logged dispatched =
      if isSuccess then (state.logged dispatched).leave (domain.zone, domain.name, recordValue)
      else (state.logged dispatched).enter (domain.zone, domain.name, recordValue) := by
  by_cases hin : (domain.zone, domain.name, recordValue) ∈ state.dead <;> cases isSuccess <;>
    simp [handleDomainRecordStatus, DNSHealthState.logged, LoggedRegister.enter,
      LoggedRegister.leave, DNSHealthEvent.change, hin]

/-- The events stacked on settling a value are `Dead` or `Healthy`. -/
theorem status_of_mem_handleDomainRecordStatus {event : DNSHealthEvent} {isSuccess : Bool}
    (hevent : event ∈ (handleDomainRecordStatus domain recordValue statusCode isSuccess state).events) :
    event ∈ state.events ∨ event.status ≠ .Unchecked := by
  by_cases hin : (domain.zone, domain.name, recordValue) ∈ state.dead <;> cases isSuccess <;>
    grind [handleDomainRecordStatus]

end DNSHealthHTTP

theorem DNSHealthState.Tracks.handleDomainRecordStatus (h : state.Tracks dispatched)
    (domain : ConfigDNSHealthHTTP) (recordValue : RecordValue) (statusCode : UInt16)
    (isSuccess : Bool) :
    (DNSHealthHTTP.handleDomainRecordStatus domain recordValue statusCode isSuccess state).Tracks
      dispatched := by
  constructor
  · rw [DNSHealthHTTP.logged_handleDomainRecordStatus]
    split
    · exact h.alternates.leave _
    · exact h.alternates.enter _
  · intro event hevent
    rcases List.mem_append.mp hevent with hbefore | hstacked
    · exact h.checked event (List.mem_append_left _ hbefore)
    · rcases DNSHealthHTTP.status_of_mem_handleDomainRecordStatus hstacked with hold | hnew
      · exact h.checked event (List.mem_append_right _ hold)
      · exact hnew

/-- A property of the state that settling a value keeps, and that the probe count does not
bear on: every check keeps it. -/
structure SettleKeeps (P : DNSHealthState → Prop) : Prop where
  handle : ∀ domain recordValue statusCode isSuccess state, P state →
    P (DNSHealthHTTP.handleDomainRecordStatus domain recordValue statusCode isSuccess state)
  probes : ∀ (state : DNSHealthState) probes, P state → P { state with probes }

namespace SettleKeeps

variable {P : DNSHealthState → Prop} (hP : SettleKeeps P) (io : HealthIo)
include hP

theorem checkDomainRecord (domain : ConfigDNSHealthHTTP) (recordType : RecordType)
    (recordValue : RecordValue) (attempt : UInt8) (state : DNSHealthState) (h : P state) :
    P (DNSHealthHTTP.checkDomainRecord io domain recordType recordValue attempt state) := by
  fun_induction DNSHealthHTTP.checkDomainRecord io domain recordType recordValue attempt state with
  | case1 attempt state _ _ _ ih => exact ih (hP.probes _ _ h)
  | case2 attempt state _ _ _ => exact hP.handle _ _ _ _ _ (hP.probes _ _ h)
  | case3 attempt state _ _ => exact hP.handle _ _ _ _ _ (hP.probes _ _ h)
  | case4 attempt state _ => exact h

theorem checkDomain {Country : Type} (domain : ConfigDNSHealthHTTP)
    (read : RecordType → Option (StoreRecord Country)) (state : DNSHealthState) (h : P state) :
    P (DNSHealthHTTP.checkDomain io domain read state) := by
  unfold DNSHealthHTTP.checkDomain
  refine List.foldlRecOn _ _ h fun state hstate recordType _ => ?_
  -- a record type the store has no record of checks nothing
  split
  · exact List.foldlRecOn _ _ hstate fun state hstate recordValue _ =>
      hP.checkDomainRecord io domain recordType recordValue 1 state hstate
  · exact hstate

theorem run {Country : Type} (http : List ConfigDNSHealthHTTP)
    (read : ConfigDNSHealthHTTP → RecordType → Option (StoreRecord Country))
    (state : DNSHealthState) (h : P state) : P (DNSHealthHTTP.run io http read state) :=
  List.foldlRecOn _ _ h fun state hstate domain _ => hP.checkDomain io domain (read domain) state hstate

end SettleKeeps

theorem settleKeeps_tracks (dispatched : List DNSHealthEvent) :
    SettleKeeps (DNSHealthState.Tracks dispatched) :=
  ⟨fun domain recordValue statusCode isSuccess _ h =>
      h.handleDomainRecordStatus domain recordValue statusCode isSuccess,
    -- the register and the events do not see the probe count
    fun _ _ h => ⟨h.alternates, h.checked⟩⟩

namespace DNSHealth

variable {Country : Type} (io : HealthIo) (http : List ConfigDNSHealthHTTP)

/-- A round keeps the invariant, with its events joining those dispatched. -/
theorem tracks_runChecks (read : ConfigDNSHealthHTTP → RecordType → Option (StoreRecord Country))
    (h : ({ state with events := [] } : DNSHealthState).Tracks dispatched) :
    ({ (runChecks io http read state).2 with events := [] } : DNSHealthState).Tracks
      (dispatched ++ (runChecks io http read state).1) :=
  ((settleKeeps_tracks dispatched).run io http read _ h).dispatch

/-- Every run of rounds keeps the invariant, by induction on the rounds. -/
theorem tracks_runRounds
    (reads : List (ConfigDNSHealthHTTP → RecordType → Option (StoreRecord Country))) :
    ∀ (state : DNSHealthState) (dispatched : List DNSHealthEvent),
      ({ state with events := [] } : DNSHealthState).Tracks dispatched →
      ({ (runRounds io http reads state).2 with events := [] } : DNSHealthState).Tracks
        (dispatched ++ (runRounds io http reads state).1) := by
  induction reads with
  | nil =>
    intro state dispatched h
    simpa [runRounds] using h
  | cons read reads ih =>
    intro state dispatched h
    have hround := tracks_runChecks io http read h
    have hlater := ih _ _ hround
    simpa [runRounds] using hlater

end DNSHealth

end Notifications

/-! ## The health-check state machine -/

theorem DNSHealthHTTP.attemptsLeft_one (domain : ConfigDNSHealthHTTP) :
    DNSHealthHTTP.attemptsLeft domain 1 = max domain.maxAttempts.toNat 1 := by
  unfold DNSHealthHTTP.attemptsLeft
  rw [UInt8.toNat_one]
  omega

/-- A check of `client.@` in `example.com`, with the defaults: three attempts, status 200. -/
def clientCheck : ConfigDNSHealthHTTP :=
  { zone := servedZone, name := ⟨"client.@", by decide, by decide⟩ }

/-- Every URL parses; the first probe gets no response, and the later ones status 200. -/
def recoveringIo : HealthIo :=
  ⟨fun _ => true, fun n => if n = 0 then ⟨none, none⟩ else ⟨some 200, none⟩⟩

section Answers

variable {Country Addr : Type} (env : Env Country Addr) [DecidableEq Country]

/-- A CNAME record's only target, dead in the register, is dropped from the answers of an A
query and served in those of an MX query that reaches the same record. -/
theorem cname_target_health_follows_query_type {w : World Country}
    {queryNameClient : LowerName} {source : Addr} {zoneName : ZoneName}
    {record : StoreRecord Country} {value : RecordValue}
    (hcheck : env.conf.dns.health.checkEnable = true) (hkind : record.kind = .CNAME)
    (hflat : record.flatten ≠ some true) (hrescue : record.rescue = none)
    (hblackhole : record.blackhole = none) (hregions : record.regions = none)
    (hvalues : record.values = [value]) (hdead : (zoneName, record.name, value) ∈ w.dead)
    {data : RData} (hdata : value.toHickory env.parser .CNAME = .ok (.ok data)) :
    outcome ((parseFromRecords env queryNameClient .A .A source zoneName record []).run w) =
        .ok [] ∧
      outcome ((parseFromRecords env queryNameClient .MX .MX source zoneName record []).run w) =
        .ok [⟨queryNameClient.toName, record.ttl.getD env.conf.dns.recordTtl, .CNAME, data⟩] := by
  have hip : ipCountryOf env record source = none := by
    simp [ipCountryOf, hblackhole, hregions]
  have hblack : isBlackholed record none = false := by
    simp [isBlackholed, hblackhole]
  have hpick : pickValues env record none = [value] := by
    simp [pickValues, hregions, hvalues]
  -- the register is read for an A query, and not for an MX query
  have hA : DNSHealth.status env.conf.dns.health w.dead zoneName .A record.name value = .Dead :=
    DNSHealth.status_eq_dead_iff.mpr ⟨hcheck, rfl, hdead⟩
  have hMX : DNSHealth.status env.conf.dns.health w.dead zoneName .MX record.name value =
      .Unchecked := by
    simp [DNSHealth.status, DNSHealth.shouldCheckRecord]
  rw [outcome_parseFromRecords, outcome_parseFromRecords, hip, hblack, hpick]
  constructor
  · simp [pushValues, World.forgetMetrics, hA, hrescue, hkind, hflat, appendValues, outcome]
  · simp [pushValues, World.forgetMetrics, hMX, hkind, hflat, appendValues, outcome, hdata,
      RecordType.toHickory]

/-- `parsedEnv` with health checks enabled. -/
def healthEnv : Env Unit Unit :=
  { parsedEnv with
    conf := { parsedEnv.conf with
      dns := { parsedEnv.conf.dns with health := { checkEnable := true } } } }

def cnameName : RecordName := wwwRecordName

/-- A CNAME at `www` to one target, neither flattened nor with a rescue. -/
def cnameRecord : StoreRecord Unit :=
  ⟨.CNAME, cnameName, none, none, none, none, none, [⟨"target.example.net."⟩]⟩

/-- A world whose register holds the target of `cnameRecord` as dead. -/
def cnameDeadWorld : World Unit :=
  { World.init [] 0 {} with dead := {(servedZone, cnameName, ⟨"target.example.net."⟩)} }

theorem cname_target_health_follows_query_type_deadTarget :
    healthEnv.conf.dns.health.checkEnable = true ∧ cnameRecord.kind = .CNAME ∧
      cnameRecord.flatten ≠ some true ∧ cnameRecord.rescue = none ∧
      cnameRecord.blackhole = none ∧ cnameRecord.regions = none ∧
      cnameRecord.values = [⟨"target.example.net."⟩] ∧
      (servedZone, cnameRecord.name, ⟨"target.example.net."⟩) ∈ cnameDeadWorld.dead ∧
      RecordValue.toHickory healthEnv.parser ⟨"target.example.net."⟩ .CNAME =
        .ok (.ok (.Parsed .CNAME "target.example.net.")) ∧
      outcome ((parseFromRecords healthEnv rootLowerName .A .A () servedZone cnameRecord
        []).run cnameDeadWorld) = .ok [] ∧
      outcome ((parseFromRecords healthEnv rootLowerName .MX .MX () servedZone cnameRecord
        []).run cnameDeadWorld) =
        .ok [⟨rootLowerName.toName, cnameRecord.ttl.getD healthEnv.conf.dns.recordTtl, .CNAME,
          .Parsed .CNAME "target.example.net."⟩] :=
  ⟨rfl, rfl, by decide, rfl, rfl, rfl, rfl, by decide, rfl,
    cname_target_health_follows_query_type healthEnv rfl rfl (by decide) rfl rfl rfl rfl
      (by decide) rfl⟩

end Answers

end Constellation.Dns
