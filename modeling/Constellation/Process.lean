import Constellation.Dns.Flattener
import Constellation.Dns.Address
import Constellation.Dns.HealthCheck
import Constellation.Store.Coherence

/-! # The process

`main` spawns a managed thread for each service, and sets up again a thread that crashes: the
DNS server, which answers queries through `DNSHandler`; the HTTP API, whose routes call the
store; the store flusher; the metrics tick; the health checker; the flatten bootstrap and
maintain threads; and the GeoIP updater. They share the store, its cache, and the statics of
the DNS side: the metrics, the flatten registry and queue, and the dead register.

A run of the process is modelled as the tasks of its threads run whole, one after another, in
any order. The GeoIP updater, which swaps the database sources are located in, is left out. A
task does not run whole when steps of another task fall between two of its own: `Store.Race`
shows what that does to the cache.

What a query does to the world is said once, by `QueryKeeps`: it reads the store, passes values
through the flatten registry, counts metrics and sends its response. The other threads each
touch their own part of the world. So what the store's steps and the flattener's steps keep is
kept by every run of the whole process.
-/

namespace Constellation.Dns

open Store Cache TaskM

variable {Country Addr : Type}

/-! ## What a query does to the world -/

section Reads

variable {storeGet : StoreGet Country} {I : World Country → Prop}

/-- The reads of `check_name_exists` keep what each read of the store keeps. -/
theorem keeps_checkNameExists
    (hread : ∀ zoneName recordName recordType origin,
      Keeps I (storeGet zoneName recordName recordType origin))
    (zoneName : ZoneName) (recordName : RecordName) (origin : StoreAccessOrigin)
    (recordTypes : List RecordType) :
    Keeps I (checkNameExists storeGet zoneName recordName origin recordTypes) := by
  induction recordTypes with
  | nil => exact Ensures.pure trivial
  | cons recordType rest ih =>
    unfold checkNameExists
    refine (hread zoneName recordName recordType origin).bind fun result _ => ?_
    split
    · exact Ensures.pure trivial
    · exact Ensures.pure trivial
    · exact ih

theorem keeps_stackZone [DecidableEq Country]
    (hmetrics : ∀ w (metrics : MetricsStore Country), I w → I { w with metrics })
    (zoneName : Option ZoneName) (metricsValue : MetricsValue Country) :
    Keeps I (stackZone zoneName metricsValue) := by
  unfold stackZone
  cases zoneName with
  | some zoneName => exact Keeps.modify fun w hw => hmetrics w _ hw
  | none => exact Ensures.pure trivial

end Reads

/-- `I` is kept by each thing a query does to the world: a read of the store through
`storeGet`, a pass through the flatten registry, a count in the metrics, and the response it
sends. -/
structure QueryKeeps (storeGet : StoreGet Country) (I : World Country → Prop) : Prop where
  read : ∀ zoneName recordName recordType origin,
    Keeps I (storeGet zoneName recordName recordType origin)
  pass : ∀ recordType recordValue recordTtl,
    Keeps I (flattenPass recordType recordValue recordTtl : TaskM Country _)
  metrics : ∀ w (metrics : MetricsStore Country), I w → I { w with metrics }
  send : ∀ w (sent : List Message) (io : Io), I w → I { w with sent, io }

namespace QueryKeeps

variable {storeGet : StoreGet Country} {I : World Country → Prop} (hI : QueryKeeps storeGet I)
include hI

theorem keeps_flattenValues (recordType : RecordType) (recordTtl : UInt32)
    (preparedValues : List RecordValue) :
    ∀ (flatValuesList : List RecordValue) (hasFlattened : Bool),
      Keeps I (flattenValues recordType recordTtl preparedValues flatValuesList hasFlattened :
        TaskM Country _) := by
  induction preparedValues with
  | nil => exact fun _ _ => Ensures.pure trivial
  | cons preparedValue rest ih =>
    intro flatValuesList hasFlattened
    unfold flattenValues
    refine (hI.pass recordType preparedValue recordTtl).bind fun result _ => ?_
    cases result with
    | ok flatPass => exact ih _ true
    | error _ => exact ih flatValuesList hasFlattened

theorem keeps_pushValues (env : Env Country Addr) (queryNameClient : LowerName)
    (queryType : HickoryRecordType) (recordType : RecordType) (zoneName : ZoneName)
    (record : StoreRecord Country) (values : RecordValues) (records : List Record) :
    Keeps I (pushValues env queryNameClient queryType recordType zoneName record values records) := by
  unfold pushValues
  refine Ensures.get_bind fun w _ => ?_
  dsimp only
  refine Ensures.ite (fun _ => Ensures.ite (fun _ => ?_) fun _ => ?_) fun _ => ?_
  · refine (Ensures.pure (Q := fun _ => True) trivial).bind fun flatValues _ => ?_
    split <;> exact keeps_appendValues env _ _ _ _ _ _
  · refine (hI.keeps_flattenValues _ _ _ _ _).bind fun _ _ =>
      (Ensures.pure (Q := fun _ => True) trivial).bind fun flatValues _ => ?_
    split <;> exact keeps_appendValues env _ _ _ _ _ _
  · refine (Ensures.pure (Q := fun _ => True) trivial).bind fun flatValues _ => ?_
    split <;> exact keeps_appendValues env _ _ _ _ _ _

variable [DecidableEq Country]

theorem keeps_parseFromRecords (env : Env Country Addr) (queryNameClient : LowerName)
    (queryType : HickoryRecordType) (recordType : RecordType) (source : Addr) (zoneName : ZoneName)
    (record : StoreRecord Country) (records : List Record) :
    Keeps I (parseFromRecords env queryNameClient queryType recordType source zoneName record
      records) := by
  unfold parseFromRecords
  dsimp only
  refine (Keeps.modify fun w hw => hI.metrics w _ hw).bind fun _ _ => ?_
  exact Ensures.ite (fun _ => hI.keeps_pushValues env _ _ _ _ _ _ _) fun _ => Ensures.pure trivial

variable (env : Env Country Addr)

theorem keeps_appendFromStore (queryNameClient : LowerName) (queryType : HickoryRecordType)
    (recordType : RecordType) (source : Addr) (zoneName : ZoneName) (recordName : RecordName)
    (readType : RecordType) (records : List Record) :
    Keeps I (appendFromStore env storeGet queryNameClient queryType recordType source zoneName
      recordName readType records) := by
  unfold appendFromStore
  refine (hI.read zoneName recordName readType .External).bind fun result _ => ?_
  split
  · exact (hI.keeps_parseFromRecords env _ _ _ _ _ _ _).bind fun _ _ => Ensures.pure trivial
  · exact Ensures.pure trivial
  · exact Ensures.pure trivial

theorem keeps_recordsOfType (queryNameClient : LowerName) (queryType : HickoryRecordType)
    (source : Addr) (zoneName : ZoneName) (recordName : RecordName) (recordType : RecordType) :
    Keeps I (recordsOfType env storeGet queryNameClient queryType source zoneName recordName
      recordType) := by
  unfold recordsOfType
  refine (hI.keeps_appendFromStore env _ _ _ _ _ _ _ _).bind fun found _ => ?_
  split
  · exact Ensures.pure trivial
  · exact Ensures.ite (fun _ => hI.keeps_appendFromStore env _ _ _ _ _ _ _ _) fun _ =>
      Ensures.pure trivial

theorem keeps_recordsFromStoreAttempt (origin : LowerName) (source : Addr)
    (zoneName : Option ZoneName) (queryNameClient queryNameEffective : LowerName)
    (queryType : HickoryRecordType) (recordType : Option RecordType) :
    Keeps I (recordsFromStoreAttempt env storeGet origin source zoneName queryNameClient
      queryNameEffective queryType recordType) := by
  unfold recordsFromStoreAttempt
  split
  · refine Ensures.bind (Q := fun _ => True) ?_ fun found _ => ?_
    · split
      · exact hI.keeps_recordsOfType env _ _ _ _ _ _
      · exact Ensures.pure trivial
    · split
      · exact Ensures.pure trivial
      · refine Ensures.ite (fun _ => Ensures.pure trivial) fun _ => ?_
        refine (keeps_checkNameExists hI.read _ _ _ _).bind fun nameExists _ => ?_
        split <;> exact Ensures.pure trivial
  · exact Ensures.pure trivial

theorem keeps_recordsFromStore (authority : DNSAuthority) (zoneName : Option ZoneName)
    (source : Addr) (query : LowerQuery) :
    Keeps I (recordsFromStore env storeGet authority zoneName source query) := by
  unfold recordsFromStore
  refine (keeps_stackZone hI.metrics _ _).bind fun _ _ => ?_
  refine (hI.keeps_recordsFromStoreAttempt env _ _ _ _ _ _ _).bind fun found _ => ?_
  split
  · exact Ensures.pure trivial
  · dsimp only
    refine Ensures.ite (fun _ => ?_) fun _ => Ensures.pure trivial
    split
    · refine Ensures.ite (fun _ => ?_) fun _ => Ensures.pure trivial
      refine (hI.keeps_recordsFromStoreAttempt env _ _ _ _ _ _ _).bind fun found _ => ?_
      split <;> exact Ensures.pure trivial
    · exact Ensures.pure trivial

omit [DecidableEq Country] env in
theorem keeps_dispatchResponse (header : Header) (records soaRecords : Option (List Record)) :
    Keeps I (dispatchResponse header records soaRecords : TaskM Country _) := by
  unfold dispatchResponse sendResponse
  refine Ensures.modifyGet fun w hw => ⟨?_, trivial⟩
  dsimp only
  -- the response is recorded, and the outside world's answer to the send is used up
  split
  · exact hI.send w _ w.io hw
  · exact hI.send w _ _ hw

omit env in
theorem keeps_respond (request : Request Addr) (header : Header) (code : ResponseCode)
    (zoneName : Option ZoneName) (records soaRecords : Option (List Record)) :
    Keeps I (do
      let header ← stampHeader request header code zoneName
      dispatchResponse header records soaRecords : TaskM Country _) := by
  unfold stampHeader
  refine ((keeps_stackZone hI.metrics _ _).bind fun _ _ => Ensures.pure (Q := fun _ => True) trivial).bind
    fun header _ => ?_
  exact hI.keeps_dispatchResponse _ _ _

theorem keeps_lookup (handler : DNSHandler) (request : Request Addr) :
    Keeps I (lookup env storeGet handler request) := by
  unfold lookup lookupNoAuthority serveResponseRecords lookupRemoteNone lookupRemoteFail
  dsimp only
  split
  · exact hI.keeps_dispatchResponse _ _ _
  · refine Ensures.ite (fun _ => hI.keeps_respond _ _ _ _ _ _) fun _ => ?_
    refine (hI.keeps_recordsFromStore env _ _ _ _).bind fun result _ => ?_
    split
    · exact hI.keeps_respond _ _ _ _ _ _
    · -- the code of an empty local lookup; a local lookup with records panics
      split <;>
        refine Ensures.bind (Q := fun _ => True) ?_ fun code _ => hI.keeps_respond _ _ _ _ _ _
      · exact Ensures.pure trivial
      · exact Ensures.pure trivial
      · exact Ensures.throw _
    · exact hI.keeps_respond _ _ _ _ _ _

/-- A task of the DNS server, answering one request, keeps `I`. -/
theorem keeps_handleRequestInfo (handler : DNSHandler) (request : Request Addr) :
    Keeps I (handleRequestInfo env storeGet handler request) := by
  unfold handleRequestInfo handleRequest
  refine Ensures.bind (Q := fun _ => True) ?_ fun result _ => ?_
  · split
    · exact hI.keeps_lookup env handler request
    · exact Ensures.pure trivial
    · exact Ensures.pure trivial
  · split <;> exact Ensures.pure trivial

end QueryKeeps

end Constellation.Dns

namespace Constellation

open Store Dns Cache TaskM

variable {Country Addr : Type}

/-! ## The flattener's threads leave the store alone -/

theorem Store.OnStore.answersKeep {I : World Country → Prop} (hI : OnStore I) : AnswersKeep I where
  readClock := keeps_readClock hI.stepsKeep
  flatten w _ _ hw := hI w _ rfl rfl hw
  metrics w _ hw := hI w _ rfl rfl hw

/-- A part of the world the flattener's threads leave alone: they set the registry and the
queue, read the clock and ask the resolver. -/
theorem Store.OnStore.flattener {I : World Country → Prop} (hI : OnStore I) :
    ∀ w registry bootstrap now io, I w → I { w with registry, bootstrap, now, io } :=
  fun w _ _ _ _ hw => hI w _ rfl rfl hw

section Flattener

variable {I : World Country → Prop}
  (hI : ∀ w registry bootstrap now io, I w → I { w with registry, bootstrap, now, io })
include hI

theorem keeps_readClock_of_flattener : Keeps I (readClock : TaskM Country ℕ) :=
  Ensures.of_run fun w hw => by
    obtain ⟨now, io, -, hrun⟩ := readClock_run w
    exact ⟨now, _, hrun, hI w w.registry w.bootstrap now io hw, trivial⟩

theorem DNSFlattenBootstrap.keeps_tick_of_frame (keys : List DNSFlattenRegistryKey)
    (resolve : DNSFlattenRegistryKey → ResolveOutcome) :
    Keeps I (DNSFlattenBootstrap.tick keys resolve : TaskM Country Unit) := by
  unfold DNSFlattenBootstrap.tick
  refine Ensures.get_bind fun w₀ _ => Keeps.forM (fun register => ?_) _
  obtain ⟨bootstrapKey, bootstrapTtl⟩ := register
  exact (DNSFlatten.keeps_flattenTask _ _ _ _ _ fun w now io hw => hI w _ w.bootstrap now io hw).bind
    fun _ _ => Keeps.modify fun w hw => hI w w.registry _ w.now w.io hw

theorem DNSFlattenMaintain.keeps_perform_of_frame (keys : List DNSFlattenRegistryKey)
    (resolve : DNSFlattenRegistryKey → ResolveOutcome) :
    Keeps I (DNSFlattenMaintain.perform keys resolve : TaskM Country Unit) := by
  unfold DNSFlattenMaintain.perform DNSFlattenMaintain.refresh
  refine (keeps_readClock_of_flattener hI).bind fun now _ => Ensures.bind (Q := fun _ => True) ?_
    fun _ _ => ?_
  · exact Keeps.modify fun w hw => hI w _ w.bootstrap w.now w.io hw
  refine (keeps_readClock_of_flattener hI).bind fun now _ =>
    Ensures.get_bind fun w₀ _ => Keeps.forM (fun register => ?_) _
  obtain ⟨registryKey, registryTtl, registryAccessedAt⟩ := register
  exact DNSFlatten.keeps_flattenTask _ _ _ _ _ fun w now io hw => hI w _ w.bootstrap now io hw

end Flattener

/-! ## What a query keeps -/

/-- Through a query the store serves what it served: the reads are `Store::get`'s, and the
rest of the query leaves the store alone. -/
theorem queryKeeps_serves (env : Env Country Addr) (keyspaces : List Keyspace) :
    QueryKeeps (Store.get env) (Serves env keyspaces) where
  read zoneName recordName recordType origin :=
    (ensures_get_serves keyspaces zoneName recordName recordType origin).mono fun _ _ => trivial
  pass := keeps_flattenPass (onStore_serves keyspaces).answersKeep
  metrics w _ hw := onStore_serves keyspaces w _ rfl rfl hw
  send w _ _ hw := onStore_serves keyspaces w _ rfl rfl hw

/-- Through a query an invariant of the flatten registry and queue holds when each pass keeps
it: the reads of the store leave both alone. -/
theorem queryKeeps_registry (env : Env Country Addr)
    {J : DNSFlattenRegistry → DNSBootstrap → Prop}
    (hpass : ∀ recordType recordValue recordTtl, Keeps (fun w : World Country => J w.registry w.bootstrap)
      (flattenPass recordType recordValue recordTtl)) :
    QueryKeeps (Store.get env) fun w => J w.registry w.bootstrap where
  read := keeps_get (fun _ _ _ _ _ _ hw => hw) env
  pass := hpass
  metrics _ _ hw := hw
  send _ _ _ hw := hw

/-! ## The threads' tasks -/

/-- A task of one of the threads `main` spawns: a request the DNS server answers, a call of
the store from the HTTP API or a run of the store flusher, a tick of the flatten bootstrap, a
run of the flatten maintainer, a tick of the metrics, or a round of the health checks. The
flattener's tasks come with the iteration order of their scans and what the resolver answers;
a round of health checks with the outside world it probes, the checks configured, what its
reads of the store return, and the number of probes made before it. -/
inductive ProcessStep (Country Addr : Type)
  | query (request : Request Addr)
  | store (step : StoreStep Country)
  | bootstrap (keys : List DNSFlattenRegistryKey) (resolve : DNSFlattenRegistryKey → ResolveOutcome)
  | maintain (keys : List DNSFlattenRegistryKey) (resolve : DNSFlattenRegistryKey → ResolveOutcome)
  | metricsTick
  | health (io : HealthIo) (http : List ConfigDNSHealthHTTP)
      (read : ConfigDNSHealthHTTP → RecordType → Option (StoreRecord Country)) (probes : ℕ)

namespace ProcessStep

/-- Every answer with records the resolver gives in the task is `answered`. -/
def Answers (answered : DNSFlattenRegistryKey → RecordValues → Prop) :
    ProcessStep Country Addr → Prop
  | .bootstrap _ resolve | .maintain _ resolve =>
    ∀ registryKey values, resolve registryKey = .records values → answered registryKey values
  | _ => True

variable [DecidableEq Country] (env : Env Country Addr) (handler : DNSHandler)

/-- The task, run on the world; the DNS server's handler reads the store through
`Store::get`. -/
def run : ProcessStep Country Addr → TaskM Country Unit
  | .query request => do
    let _ ← handleRequestInfo env (Store.get env) handler request
  | .store step => step.run env
  | .bootstrap keys resolve => DNSFlattenBootstrap.tick keys resolve
  | .maintain keys resolve => DNSFlattenMaintain.perform keys resolve
  | .metricsTick => modify fun w => { w with metrics := DNSMetricsTick.perform w.metrics }
  | .health io http read probes => modify fun w =>
    { w with dead := (DNSHealth.runChecks io http read ⟨w.dead, [], probes⟩).2.dead }

/-- The key the task writes on the servers: only the store's writes write. -/
def writes : ProcessStep Country Addr → Option String
  | .store step => step.writes env
  | _ => none

omit [DecidableEq Country] in
theorem eq_store_of_writes {step : ProcessStep Country Addr} (h : step.writes env ≠ none) :
    ∃ storeStep, step = .store storeStep := by
  cases step with
  | store storeStep => exact ⟨storeStep, rfl⟩
  | _ => exact absurd rfl h

/-- A task that writes nothing on the servers keeps what the store serves. -/
theorem serves_run (keyspaces : List Keyspace) (step : ProcessStep Country Addr)
    (hstep : step.writes env = none) : Keeps (Serves env keyspaces) (step.run env handler) := by
  have hS := @onStore_serves Country Addr env keyspaces
  cases step with
  | query request =>
    exact ((queryKeeps_serves env keyspaces).keeps_handleRequestInfo env handler request).bind
      fun _ _ => Ensures.pure trivial
  | store storeStep =>
    -- a task of the store that writes nothing is a read or a run of the flusher
    cases storeStep with
    | call storeCall =>
      cases storeCall with
      | get zoneName recordName recordType origin =>
        exact (ensures_get_serves keyspaces zoneName recordName recordType origin).bind fun _ _ =>
          Ensures.pure trivial
      | set zoneName record => cases hstep
      | remove zoneName recordName recordType => cases hstep
    | flush keys => exact serves_perform keyspaces keys
  | bootstrap keys resolve => exact DNSFlattenBootstrap.keeps_tick_of_frame hS.flattener keys resolve
  | maintain keys resolve =>
    exact DNSFlattenMaintain.keeps_perform_of_frame hS.flattener keys resolve
  | metricsTick => exact Keeps.modify fun w hw => hS w _ rfl rfl hw
  | health io http read probes => exact Keeps.modify fun w hw => hS w _ rfl rfl hw

/-- Every task keeps the store's cache agreeing with its server. -/
theorem coherent_run (step : ProcessStep Country Addr) :
    Keeps (Coherent env) (step.run env handler) := by
  by_cases hw : step.writes env = none
  · exact keeps_coherent_of_serves fun keyspaces => serves_run env handler keyspaces step hw
  · obtain ⟨storeStep, rfl⟩ := eq_store_of_writes env hw
    exact Store.coherent_run storeStep

/-- A task that writes nothing at a key keeps what the server holds there. -/
theorem holds_run {storeKey : String} {value : Option (StoreRecord Country)}
    (step : ProcessStep Country Addr) (hk : step.writes env ≠ some storeKey) :
    Keeps (Holds env storeKey value) (step.run env handler) := by
  by_cases hw : step.writes env = none
  · exact holds_of_serves fun keyspaces => serves_run env handler keyspaces step hw
  · obtain ⟨storeStep, rfl⟩ := eq_store_of_writes env hw
    exact Store.holds_run storeStep hk

/-- Every task keeps each entry of the flatten registry holding an answer of the resolver. -/
theorem registrySound_run (answered : DNSFlattenRegistryKey → RecordValues → Prop)
    (step : ProcessStep Country Addr) (hstep : step.Answers answered) :
    Keeps (fun w : World Country => RegistrySound answered w.registry) (step.run env handler) := by
  cases step with
  | query request =>
    have hquery := queryKeeps_registry env (J := fun registry _ => RegistrySound answered registry)
      fun recordType recordValue recordTtl =>
        (ensures_flattenPass_sound recordType recordValue recordTtl).mono fun _ _ => trivial
    exact (hquery.keeps_handleRequestInfo env handler request).bind fun _ _ => Ensures.pure trivial
  | store step => exact StoreStep.keeps_run (fun _ _ _ _ _ _ hw => hw) step
  | bootstrap keys resolve => exact keeps_run_sound (.tick keys resolve) hstep
  | maintain keys resolve => exact keeps_run_sound (.maintain keys resolve) hstep
  | metricsTick => exact Keeps.modify fun _ hw => hw
  | health io http read probes => exact Keeps.modify fun _ hw => hw

/-- Every task keeps the queued keys out of the registry. -/
theorem queuedUnregistered_run (step : ProcessStep Country Addr) :
    Keeps (fun w : World Country => QueuedUnregistered w.registry w.bootstrap)
      (step.run env handler) := by
  cases step with
  | query request =>
    have hquery := queryKeeps_registry env (J := QueuedUnregistered)
      fun recordType recordValue recordTtl =>
        ensures_flattenPass (I := QueuedUnregistered) (Q := fun _ => True) recordType recordValue
          recordTtl fun _ _ now h => ⟨queuedUnregistered_pass h _ _ _ now, trivial⟩
    exact (hquery.keeps_handleRequestInfo env handler request).bind fun _ _ => Ensures.pure trivial
  | store step => exact StoreStep.keeps_run (fun _ _ _ _ _ _ hw => hw) step
  | bootstrap keys resolve => exact keeps_run_queuedUnregistered (.tick keys resolve)
  | maintain keys resolve => exact keeps_run_queuedUnregistered (.maintain keys resolve)
  | metricsTick => exact Keeps.modify fun _ hw => hw
  | health io http read probes => exact Keeps.modify fun _ hw => hw

end ProcessStep

/-- With one Redis server, in every run of the process from its start, whatever the order in
which its threads' tasks run, each entry of the store cache holds what the server's hash at its
key reads as; each entry of the flatten registry holds no value or values the resolver answered
for its key; and no key queued for the bootstrap thread is registered. -/
theorem process_keeps_store_and_registry [DecidableEq Country] (env : Env Country Addr)
    {keyspaces : List Keyspace} (hlen : keyspaces.length = 1) (now : ℕ) (io : Io)
    (handler : DNSHandler) (answered : DNSFlattenRegistryKey → RecordValues → Prop)
    (steps : List (ProcessStep Country Addr)) (hsteps : ∀ step ∈ steps, step.Answers answered) :
    let reached := finalState ((steps.forM (ProcessStep.run env handler)).run
      (World.init keyspaces now io))
    (∀ pool ∈ reached.pools, ∀ storeKey entry, reached.cache storeKey = some entry →
        readsAs env (pool.keyspace storeKey) = some entry.value) ∧
      RegistrySound answered reached.registry ∧
      QueuedUnregistered reached.registry reached.bootstrap := by
  intro reached
  have hcoherent : Coherent env reached :=
    (Keeps.forM (ProcessStep.coherent_run env handler) steps _ (coherent_init hlen now io)).1
  have hsound : RegistrySound answered reached.registry :=
    (Keeps.forM_of_mem steps (fun step hstep => ProcessStep.registrySound_run env handler answered
      step (hsteps step hstep)) _ fun _ _ h => by cases h).1
  have hqueued : QueuedUnregistered reached.registry reached.bootstrap :=
    (Keeps.forM (ProcessStep.queuedUnregistered_run env handler) steps _ fun _ _ => rfl).1
  exact ⟨hcoherent.cache, hsound, hqueued⟩

/-- A run with a task of each thread: a write of the API, a query of the zone, the flattener's
tick and refresh, a metrics tick, a health round that checks nothing, and a run of the
flusher. -/
def mixedRun : List (ProcessStep Unit Unit) :=
  [.store (.call (.set servedZone recordA)), .query wwwRequest, .bootstrap [targetKey] answerAll,
    .maintain [targetKey] answerAll, .metricsTick,
    .health ⟨fun _ => true, fun _ => ⟨some 200, none⟩⟩ [] (fun _ _ => none) 0, .store (.flush [])]

/-- In the run, the resolver answers `answerAll`. -/
theorem mixedRun_answers :
    ∀ step ∈ mixedRun, step.Answers fun registryKey values => answerAll registryKey = .records values := by
  intro step hstep
  simp only [mixedRun, List.mem_cons, List.not_mem_nil, or_false] at hstep
  rcases hstep with rfl | rfl | rfl | rfl | rfl | rfl | rfl
  · trivial
  · trivial
  · exact fun _ _ h => h
  · exact fun _ _ h => h
  · trivial
  · trivial
  · trivial

theorem process_keeps_store_and_registry_mixedRun :
    let answered := fun registryKey values => answerAll registryKey = .records values
    let reached := finalState ((mixedRun.forM (ProcessStep.run exampleEnv exampleHandler)).run
      (World.init [fun _ => none] 0 {}))
    ([fun _ => none] : List Keyspace).length = 1 ∧
      (∀ step ∈ mixedRun, step.Answers answered) ∧
      (∀ pool ∈ reached.pools, ∀ storeKey entry, reached.cache storeKey = some entry →
          readsAs exampleEnv (pool.keyspace storeKey) = some entry.value) ∧
      RegistrySound answered reached.registry ∧
      QueuedUnregistered reached.registry reached.bootstrap := by
  intro answered
  exact ⟨rfl, mixedRun_answers, process_keeps_store_and_registry exampleEnv rfl 0 {} exampleHandler
    answered mixedRun mixedRun_answers⟩

/-! ## What the store's readers see of the last write -/

/-- A read of a key returns only what the server holds there. -/
theorem Store.Holds.get_eq {env : Env Country Addr} {zoneName : ZoneName} {recordName : RecordName}
    {recordType : RecordType} {value : Option (StoreRecord Country)} {w : World Country}
    (hw : Holds env (StoreKey.toKey env.fingerprint32 zoneName recordName recordType) value w)
    {origin : StoreAccessOrigin} {r : StoreRecord Country}
    (hr : outcome ((get env zoneName recordName recordType origin).run w) = .ok (.ok r)) :
    value = some r := by
  obtain ⟨pool, hpool⟩ := List.length_eq_one_iff.mp hw.1.single
  have hmem : pool ∈ w.pools := by
    rw [hpool]
    exact List.mem_singleton_self pool
  have hget := (ensures_get_serves (w.pools.map StorePool.keyspace) zoneName recordName recordType
    origin w ⟨hw.1, rfl⟩).2 _ _ (outcome_eq_ok.mp hr) r rfl pool.keyspace (List.mem_map_of_mem hmem)
  rw [hw.2 pool hmem] at hget
  exact Option.some.inj hget

/-- A query and a metrics tick after writing the record `recordA`. -/
def queryAfterWrite : List (ProcessStep Unit Unit) := [.query wwwRequest, .metricsTick]

end Constellation
