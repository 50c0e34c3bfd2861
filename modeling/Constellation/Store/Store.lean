import Constellation.World

/-! # The store

`Store::get` reads through the local cache; on a miss it reads Redis, through
the rate limiter when the read comes from outside. `Store::set` and
`Store::remove` drop the cached entry and write. Each of them runs on the first
pool that is not delinquent and can be acquired (`get_cache_store_client!`); a
pool that cannot be acquired is delinquent for `delinquency_seconds`, unless
that deadline overflows `Instant`. The master and the rescue pools are tried
alike, by reads and by writes.
-/

namespace Constellation.Store

open Dns Cache TaskM

def LIMITS_GET_REMOTE_TIMESPAN_TOTAL : ℕ := 10 * SECOND

def LIMITS_GET_REMOTE_ALLOWANCE_THRESHOLD : ℕ := 8 * SECOND

/-- The last instant: an `Instant` is a `timespec`, whose seconds are an `i64`. -/
def INSTANT_MAX : ℕ := 2 ^ 63 * SECOND - 1

/-- `Instant::checked_add`: none past the last instant. -/
def instantCheckedAdd (instant duration : ℕ) : Option ℕ :=
  if instant + duration ≤ INSTANT_MAX then some (instant + duration) else none

variable {Country Addr : Type} [DecidableEq Country] (env : Env Country Addr)

/-- The loop of `get_cache_store_client!`, over the pools left. A pool that cannot be acquired
is delinquent until the clock's next reading plus `delinquency_seconds`, or, when that instant
does not exist, not delinquent at all. -/
def getCacheStoreClientFrom {α : Type} (error : StoreError)
    (body : ℕ → TaskM Country (Except StoreError α)) : List ℕ → TaskM Country (Except StoreError α)
  | [] => pure (.error error)
  | i :: rest => do
    let now ← readClock
    let poolDelinquentUntil := (((← getThe (World Country)).pools[i]?).bind StorePool.delinquentUntil).getD now
    if poolDelinquentUntil ≤ now then
      if ← acquire then
        body i
      else
        let failedAt ← readClock
        modify fun w => { w with
          pools := w.pools.modify i fun pool => { pool with
            delinquentUntil :=
              instantCheckedAdd failedAt (env.conf.redis.delinquencySeconds * SECOND) } }
        getCacheStoreClientFrom error body rest
    else
      getCacheStoreClientFrom error body rest

/-- `get_cache_store_client!`: run the body on the first pool that is not delinquent and can
be acquired, or fail with the given error. -/
def getCacheStoreClient {α : Type} (error : StoreError)
    (body : ℕ → TaskM Country (Except StoreError α)) : TaskM Country (Except StoreError α) := do
  getCacheStoreClientFrom env error body (List.range (← getThe (World Country)).pools.length)

/-- `STORE_CACHE.get`; the clock is read on a hit only. -/
def cacheGet (storeKey : String) : TaskM Country (Except Unit (Option (StoreRecord Country))) := do
  if ((← getThe (World Country)).cache storeKey).isSome then
    let now ← readClock
    modifyGet fun w =>
      let (cached, cache) := w.cache.get storeKey now
      (cached, { w with cache })
  else
    pure (.error ())

/-- `STORE_CACHE.push`. -/
def cachePush (storeKey : String) (record : Option (StoreRecord Country))
    (accessedAt : Option ℕ) : TaskM Country Unit := do
  let now ← readClock
  modify fun w => { w with cache := w.cache.push storeKey record accessedAt now }

/-- `STORE_CACHE.pop`. -/
def cachePop (storeKey : String) : TaskM Country Unit :=
  modify fun w => { w with cache := w.cache.pop storeKey }

/-- A write to the keyspace of a pool's server. -/
def writeKeyspace (i : ℕ) (storeKey : String) (hash : Option RedisHash) : TaskM Country Unit :=
  modify fun w => { w with
    pools := w.pools.modify i fun pool => { pool with
      keyspace := Function.update pool.keyspace storeKey hash } }

/-- `Store::raw_get_remote`. -/
def rawGetRemote (storeKey : String) (cacheAccessedAt : Option ℕ) :
    TaskM Country (Except StoreError (StoreRecord Country)) :=
  getCacheStoreClient env .Disconnected fun i => do
    match ← command with
    | .failed _ => pure (.error .NotFound)
    | .done =>
      let hash := ((← getThe (World Country)).pools[i]?).bind fun pool => pool.keyspace storeKey
      match StoreGetType.fromRedis hash with
      | none =>
        cachePush storeKey none cacheAccessedAt
        pure (.error .NotFound)
      | some values =>
        match StoreRecord.decode env.serde values with
        | some record =>
          cachePush storeKey (some record) cacheAccessedAt
          pure (.ok record)
        | none => pure (.error .Corrupted)

/-- `Store::get`. -/
def get (zoneName : ZoneName) (recordName : RecordName) (recordType : RecordType)
    (origin : StoreAccessOrigin) : TaskM Country (Except StoreError (StoreRecord Country)) := do
  let storeKey := StoreKey.toKey env.fingerprint32 zoneName recordName recordType
  match ← cacheGet storeKey with
  | .ok cachedRecords =>
    pure (match cachedRecords with
      | some cachedRecords => .ok cachedRecords
      | none => .error .NotFound)
  | .error () =>
    if origin = .Internal then
      rawGetRemote env storeKey none
    else
      let nowInstant ← readClock
      let rate := (← getThe (World Country)).rate
      let rate :=
        if LIMITS_GET_REMOTE_TIMESPAN_TOTAL ≤ nowInstant - rate.timeLast then ⟨nowInstant, 0⟩ else rate
      modify fun w => { w with rate }
      if LIMITS_GET_REMOTE_ALLOWANCE_THRESHOLD ≤ rate.timeSpent then
        pure (.error .Disconnected)
      else
        let resultRemote ← rawGetRemote env storeKey none
        let finishedAt ← readClock
        modify fun w => { w with
          rate := { w.rate with timeSpent := w.rate.timeSpent + (finishedAt - nowInstant) } }
        pure resultRemote

/-- `Store::set`. -/
def set (zoneName : ZoneName) (record : StoreRecord Country) : TaskM Country (Except StoreError Unit) :=
  getCacheStoreClient env .Disconnected fun i => do
    match record.encode env.serde with
    | none => pure (.error .Encoding)
    | some fields =>
      let storeKey := StoreKey.toKey env.fingerprint32 zoneName record.name record.kind
      cachePop storeKey
      let outcome ← command
      if outcome ≠ .failed false then
        let pool := (← getThe (World Country)).pools[i]?
        writeKeyspace i storeKey (some (hsetMultiple (pool.bind fun p => p.keyspace storeKey) fields))
      pure (if outcome = .done then .ok () else .error .Connector)

/-- `Store::remove`. -/
def remove (zoneName : ZoneName) (recordName : RecordName) (recordType : RecordType) :
    TaskM Country (Except StoreError Unit) :=
  getCacheStoreClient env .Disconnected fun i => do
    let storeKey := StoreKey.toKey env.fingerprint32 zoneName recordName recordType
    cachePop storeKey
    let outcome ← command
    if outcome ≠ .failed false then
      writeKeyspace i storeKey none
    pure (if outcome = .done then .ok () else .error .Connector)

end Constellation.Store
