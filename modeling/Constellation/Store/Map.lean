import Constellation.Monad.Keeps
import Constellation.Data.Update
import Constellation.Store.Store

/-! # The store as a map

The store holds a record under `to_key(zone, name, type)`. A key is made of
fingerprints, so what the store hands out for a key was set under a name with
the same fingerprint and under the same type. This invariant holds of the
Redis servers and of the cache in every run of the store's operations.

The steps that do not touch the stored data (the clock, a pool acquisition, a
command's outcome, a pool's delinquency) keep every invariant of the stored
data; they are proved once, for all such invariants.
-/

namespace Constellation.Store

open Dns Cache TaskM

variable {Country Addr : Type}

/-! ## Invariants kept by the steps that write no data -/

/-- The steps of the store that write no data keep `I`: a tick of the clock, an answer of the
outside world, a change of a pool's delinquency. -/
structure StepsKeep (I : World Country → Prop) : Prop where
  io : ∀ w now io, I w → I { w with now, io }
  delinquency : ∀ w i d, I w →
    I { w with pools := w.pools.modify i fun pool => { pool with delinquentUntil := d } }

section StepsKeep

variable {I : World Country → Prop} (hI : StepsKeep I)
include hI

theorem keeps_readClock : Keeps I (readClock : TaskM Country ℕ) := by
  unfold readClock
  refine Ensures.modifyGet fun w hw => ⟨?_, trivial⟩
  split
  · exact hw
  · exact hI.io w _ _ hw

theorem keeps_acquire : Keeps I (acquire : TaskM Country Bool) := by
  unfold acquire
  refine Ensures.modifyGet fun w hw => ⟨?_, trivial⟩
  split
  · exact hw
  · exact hI.io w w.now _ hw

theorem keeps_command : Keeps I (command : TaskM Country CommandOutcome) := by
  unfold command
  refine Ensures.modifyGet fun w hw => ⟨?_, trivial⟩
  split
  · exact hw
  · exact hI.io w w.now _ hw

variable {env : Env Country Addr}

/-- The failover loop keeps what each attempt keeps. -/
theorem ensures_getCacheStoreClientFrom {α : Type} {Q : Except StoreError α → Prop}
    {error : StoreError} (he : Q (.error error)) {body : ℕ → TaskM Country (Except StoreError α)}
    (hbody : ∀ i, Ensures I Q (body i)) :
    ∀ is, Ensures I Q (getCacheStoreClientFrom env error body is)
  | [] => Ensures.pure he
  | i :: rest => by
    unfold getCacheStoreClientFrom
    refine ((keeps_readClock hI).bind fun now _ => Ensures.get_bind fun w _ => ?_)
    refine Ensures.ite (fun _ => (keeps_acquire hI).bind fun ok _ => ?_)
      (fun _ => ensures_getCacheStoreClientFrom he hbody rest)
    refine Ensures.ite (fun _ => hbody i) (fun _ => ?_)
    refine (keeps_readClock hI).bind fun failedAt _ => ?_
    exact (Keeps.modify fun w hw => hI.delinquency w i _ hw).bind fun _ _ =>
      ensures_getCacheStoreClientFrom he hbody rest

theorem ensures_getCacheStoreClient {α : Type} {Q : Except StoreError α → Prop}
    {error : StoreError} (he : Q (.error error)) {body : ℕ → TaskM Country (Except StoreError α)}
    (hbody : ∀ i, Ensures I Q (body i)) :
    Ensures I Q (getCacheStoreClient env error body) := by
  unfold getCacheStoreClient
  exact Ensures.get_bind fun w _ => ensures_getCacheStoreClientFrom hI he hbody _

end StepsKeep

/-! ## Invariants of the stored data -/

/-- `I` looks at nothing but the cache and the servers' keyspaces. -/
def OnStore (I : World Country → Prop) : Prop :=
  ∀ w w', w'.cache = w.cache → w'.pools.map StorePool.keyspace = w.pools.map StorePool.keyspace →
    I w → I w'

section OnStore

variable {I : World Country → Prop} (hI : OnStore I)
include hI

theorem OnStore.stepsKeep : StepsKeep I where
  io w _ _ hw := hI w _ rfl rfl hw
  delinquency w _ d hw :=
    hI w _ rfl (map_modify_of_comp (f := fun pool : StorePool => { pool with delinquentUntil := d })
      (fun _ => rfl) _ _) hw

/-- A change of the world that leaves the cache and the pools alone. -/
theorem keeps_modify {f : World Country → World Country} (hc : ∀ w, (f w).cache = w.cache)
    (hp : ∀ w, (f w).pools = w.pools) :
    Keeps I (MonadStateOf.modifyGet fun w => (PUnit.unit, f w) : TaskM Country PUnit) :=
  Keeps.modify fun w hw => hI w _ (hc w) (by rw [hp w]) hw

end OnStore

/-! ## Invariants of the rest of the world

The store reads and writes its pools, its rate limiter, its cache, the clock and the
answers of the outside world, and nothing else: what the metrics count, what has been
sent, the flatten registry and the dead register are as they were after any read. -/

/-- `I` looks at nothing the store reads or writes. -/
def OffStore (I : World Country → Prop) : Prop :=
  ∀ w (pools : List StorePool) (rate : StoreLimitsRate) (cache : StoreCache Country) (now : ℕ)
    (io : Io), I w → I { w with pools, rate, cache, now, io }

section OffStore

variable {I : World Country → Prop} (hI : OffStore I)
include hI

theorem OffStore.stepsKeep : StepsKeep I where
  io w now io hw := hI w w.pools w.rate w.cache now io hw
  delinquency w _ _ hw := hI w _ w.rate w.cache w.now w.io hw

theorem keeps_cacheGet (storeKey : String) : Keeps I (cacheGet storeKey : TaskM Country _) := by
  unfold cacheGet
  refine Ensures.get_bind fun w _ => Ensures.ite (fun _ => ?_) fun _ => Ensures.pure trivial
  exact (keeps_readClock hI.stepsKeep).bind fun now _ =>
    Ensures.modifyGet fun w hw => ⟨hI w w.pools w.rate _ w.now w.io hw, trivial⟩

theorem keeps_cachePush (storeKey : String) (record : Option (StoreRecord Country))
    (accessedAt : Option ℕ) : Keeps I (cachePush storeKey record accessedAt) :=
  (keeps_readClock hI.stepsKeep).bind fun _ _ =>
    Keeps.modify fun w hw => hI w w.pools w.rate _ w.now w.io hw

variable (env : Env Country Addr)

theorem keeps_rawGetRemote (storeKey : String) (cacheAccessedAt : Option ℕ) :
    Keeps I (rawGetRemote env storeKey cacheAccessedAt) := by
  unfold rawGetRemote
  refine ensures_getCacheStoreClient hI.stepsKeep trivial fun i =>
    (keeps_command hI.stepsKeep).bind fun outcome _ => ?_
  cases outcome with
  | failed _ => exact Ensures.pure trivial
  | done =>
    refine Ensures.get_bind fun w _ => ?_
    dsimp only
    split
    · exact (keeps_cachePush hI _ _ _).bind fun _ _ => Ensures.pure trivial
    · split
      · exact (keeps_cachePush hI _ _ _).bind fun _ _ => Ensures.pure trivial
      · exact Ensures.pure trivial

/-- `Store::get` keeps every invariant of what the store does not touch. -/
theorem keeps_get (zoneName : ZoneName) (recordName : RecordName) (recordType : RecordType)
    (origin : StoreAccessOrigin) : Keeps I (get env zoneName recordName recordType origin) := by
  unfold get
  refine (keeps_cacheGet hI _).bind fun cached _ => ?_
  cases cached with
  | ok cachedRecords => exact Ensures.pure trivial
  | error _ =>
    refine Ensures.ite (fun _ => keeps_rawGetRemote hI env _ _) fun _ => ?_
    refine (keeps_readClock hI.stepsKeep).bind fun nowInstant _ => Ensures.get_bind fun w _ => ?_
    refine (Keeps.modify fun w hw => hI w w.pools _ w.cache w.now w.io hw).bind fun _ _ => ?_
    refine Ensures.ite (fun _ => Ensures.pure trivial) fun _ => ?_
    refine (keeps_rawGetRemote hI env _ _).bind fun resultRemote _ => ?_
    exact (keeps_readClock hI.stepsKeep).bind fun finishedAt _ =>
      (Keeps.modify fun w hw => hI w w.pools _ w.cache w.now w.io hw).bind fun _ _ =>
        Ensures.pure trivial

theorem keeps_cachePop (storeKey : String) : Keeps I (cachePop storeKey : TaskM Country Unit) := by
  unfold cachePop
  exact Keeps.modify fun w hw => hI w w.pools w.rate _ w.now w.io hw

theorem keeps_writeKeyspace (i : ℕ) (storeKey : String) (hash : Option RedisHash) :
    Keeps I (writeKeyspace i storeKey hash : TaskM Country Unit) := by
  unfold writeKeyspace
  exact Keeps.modify fun w hw => hI w _ w.rate w.cache w.now w.io hw

/-- `Store::set` keeps every invariant of what the store does not touch. -/
theorem keeps_set [DecidableEq Country] (zoneName : ZoneName) (record : StoreRecord Country) :
    Keeps I (set env zoneName record) := by
  unfold set
  refine ensures_getCacheStoreClient hI.stepsKeep trivial fun i => ?_
  split
  · exact Ensures.pure trivial
  · refine (keeps_cachePop hI _).bind fun _ _ => (keeps_command hI.stepsKeep).bind fun outcome _ => ?_
    refine Ensures.ite (fun _ => Ensures.get_bind fun w _ => ?_) fun _ => Ensures.pure trivial
    exact (keeps_writeKeyspace hI i _ _).bind fun _ _ => Ensures.pure trivial

/-- `Store::remove` keeps every invariant of what the store does not touch. -/
theorem keeps_remove (zoneName : ZoneName) (recordName : RecordName) (recordType : RecordType) :
    Keeps I (remove env zoneName recordName recordType) := by
  unfold remove
  refine ensures_getCacheStoreClient hI.stepsKeep trivial fun i => ?_
  refine (keeps_cachePop hI _).bind fun _ _ => (keeps_command hI.stepsKeep).bind fun outcome _ => ?_
  refine Ensures.ite (fun _ => ?_) fun _ => Ensures.pure trivial
  exact (keeps_writeKeyspace hI i _ _).bind fun _ _ => Ensures.pure trivial

end OffStore

/-! ## Keys name what they hold -/

variable (env : Env Country Addr)

/-- The key is that of the record's name and type, in some zone. -/
def NamedBy (storeKey : String) (record : StoreRecord Country) : Prop :=
  ∃ zoneName, storeKey = StoreKey.toKey env.fingerprint32 zoneName record.name record.kind

/-- Every record the store can hand out for a key is named by the key: what the hashes of
the servers decode to, and what the cache holds. -/
structure KeysName (w : World Country) : Prop where
  pools : ∀ pool ∈ w.pools, ∀ storeKey values record,
    StoreGetType.fromRedis (pool.keyspace storeKey) = some values →
      StoreRecord.decode env.serde values = some record → NamedBy env storeKey record
  cache : ∀ storeKey entry record, w.cache storeKey = some entry → entry.value = some record →
    NamedBy env storeKey record

variable {env}

theorem onStore_keysName : OnStore (KeysName env) := by
  intro w w' hc hp hw
  refine ⟨fun pool hpool => ?_, hc ▸ hw.cache⟩
  have hmem : pool.keyspace ∈ w.pools.map StorePool.keyspace := hp ▸ List.mem_map_of_mem hpool
  obtain ⟨p, hp', he⟩ := List.mem_map.mp hmem
  rw [← he]
  exact hw.pools p hp'

theorem ensures_cacheGet (storeKey : String) :
    Ensures (KeysName env) (fun cached => ∀ r, cached = .ok (some r) → NamedBy env storeKey r)
      (cacheGet storeKey : TaskM Country _) := by
  unfold cacheGet
  refine Ensures.get_bind fun w hw => Ensures.ite (fun _ => ?_) (fun _ => Ensures.pure (by simp))
  refine (keeps_readClock onStore_keysName.stepsKeep).bind fun now _ => Ensures.modifyGet fun w' hw' => ?_
  cases hc : w'.cache storeKey with
  | none =>
    simp only [StoreCache.get_of_none hc]
    exact ⟨hw', by simp⟩
  | some entry =>
    simp only [StoreCache.get_of_some hc]
    refine ⟨⟨hw'.pools, fun k e r he hr => ?_⟩, fun r hr => ?_⟩
    · dsimp only at he
      by_cases hk : k = storeKey
      · subst hk
        rw [Map.insert_self] at he
        cases he
        exact hw'.cache k entry r hc hr
      · rw [Map.insert_of_ne _ hk] at he
        exact hw'.cache k e r he hr
    · simp only [Except.ok.injEq] at hr
      exact hw'.cache storeKey entry r hc hr

theorem keysName_cachePush {storeKey : String} {record : Option (StoreRecord Country)}
    (hr : ∀ r, record = some r → NamedBy env storeKey r) (accessedAt : Option ℕ) :
    Keeps (KeysName env) (cachePush storeKey record accessedAt : TaskM Country Unit) := by
  unfold cachePush
  refine (keeps_readClock onStore_keysName.stepsKeep).bind fun now _ => Keeps.modify fun w hw => ⟨hw.pools, ?_⟩
  intro k e r he hre
  by_cases hk : k = storeKey
  · subst hk
    simp only [StoreCache.push, Map.insert_self, Option.some.injEq] at he
    subst he
    exact hr r hre
  · simp only [StoreCache.push, Map.insert_of_ne _ hk] at he
    exact hw.cache k e r he hre

theorem keysName_cachePop (storeKey : String) :
    Keeps (KeysName env) (cachePop storeKey : TaskM Country Unit) := by
  unfold cachePop
  refine Keeps.modify fun w hw => ⟨hw.pools, fun k e r he hre => ?_⟩
  by_cases hk : k = storeKey
  · subst hk
    simp [StoreCache.pop] at he
  · simp only [StoreCache.pop, Map.erase_of_ne _ hk] at he
    exact hw.cache k e r he hre

theorem keysName_writeKeyspace (i : ℕ) {storeKey : String} {hash : Option RedisHash}
    (hh : ∀ values record, StoreGetType.fromRedis hash = some values →
      StoreRecord.decode env.serde values = some record → NamedBy env storeKey record) :
    Keeps (KeysName env) (writeKeyspace i storeKey hash : TaskM Country Unit) := by
  unfold writeKeyspace
  refine Keeps.modify fun w hw => ⟨fun pool hp => ?_, hw.cache⟩
  rcases mem_of_mem_modify hp with hp | ⟨p, hp', rfl⟩
  · exact hw.pools pool hp
  · intro k values r hv hd
    by_cases hk : k = storeKey
    · subst hk
      simp only [Function.update_self] at hv
      exact hh values r hv hd
    · simp only [Function.update_of_ne hk] at hv
      exact hw.pools p hp' k values r hv hd

/-- What `raw_get_remote` returns for a key is named by the key. -/
theorem ensures_rawGetRemote (storeKey : String) (cacheAccessedAt : Option ℕ) :
    Ensures (KeysName env) (fun res => ∀ r, res = .ok r → NamedBy env storeKey r)
      (rawGetRemote env storeKey cacheAccessedAt) := by
  unfold rawGetRemote
  refine ensures_getCacheStoreClient onStore_keysName.stepsKeep (by simp) fun i => (keeps_command onStore_keysName.stepsKeep).bind fun outcome _ => ?_
  cases outcome with
  | failed _ => exact Ensures.pure (by simp)
  | done =>
    refine Ensures.get_bind fun w hw => ?_
    dsimp only
    split
    · exact (keysName_cachePush (by simp) _).bind fun _ _ => Ensures.pure (by simp)
    · rename_i values hv
      split
      · rename_i record hd
        have hn : NamedBy env storeKey record := by
          cases hp : w.pools[i]? with
          | none => simp [hp, StoreGetType.fromRedis] at hv
          | some pool =>
            rw [hp, Option.bind_some] at hv
            exact hw.pools pool (List.mem_of_getElem? hp) storeKey values record hv hd
        refine (keysName_cachePush (fun r hr => ?_) _).bind fun _ _ => Ensures.pure ?_
        · cases hr
          exact hn
        · simpa using hn
      · exact Ensures.pure (by simp)

/-- What `Store::get` returns is named by the key of the triple asked for. -/
theorem ensures_get (zoneName : ZoneName) (recordName : RecordName) (recordType : RecordType)
    (origin : StoreAccessOrigin) :
    Ensures (KeysName env)
      (fun res => ∀ r, res = .ok r →
        NamedBy env (StoreKey.toKey env.fingerprint32 zoneName recordName recordType) r)
      (get env zoneName recordName recordType origin) := by
  unfold get
  refine (ensures_cacheGet _).bind fun cached hc => ?_
  cases cached with
  | ok cachedRecords =>
    cases cachedRecords with
    | some r => exact Ensures.pure fun r' hr' => by cases hr'; exact hc r rfl
    | none => exact Ensures.pure (by simp)
  | error _ =>
    refine Ensures.ite (fun _ => ensures_rawGetRemote _ _) (fun _ => ?_)
    refine (keeps_readClock onStore_keysName.stepsKeep).bind fun nowInstant _ => Ensures.get_bind fun w _ => ?_
    refine (keeps_modify onStore_keysName (by intro; rfl) (by intro; rfl)).bind fun _ _ => ?_
    refine Ensures.ite (fun _ => Ensures.pure (by simp)) (fun _ => ?_)
    refine (ensures_rawGetRemote _ _).bind fun resultRemote hr => ?_
    refine (keeps_readClock onStore_keysName.stepsKeep).bind fun finishedAt _ => ?_
    exact (keeps_modify onStore_keysName (by intro; rfl) (by intro; rfl)).bind fun _ _ => Ensures.pure hr

section Write

variable [DecidableEq Country]

/-- A hash written by `Store::set` is named by the key of the record's name and type. -/
theorem namedBy_hsetMultiple {zoneName : ZoneName} {record : StoreRecord Country}
    {fields : List (String × String)} (he : record.encode env.serde = some fields)
    (old : Option RedisHash) (values : StoreGetType) (r : StoreRecord Country)
    (hv : StoreGetType.fromRedis (some (hsetMultiple old fields)) = some values)
    (hd : StoreRecord.decode env.serde values = some r) :
    NamedBy env (StoreKey.toKey env.fingerprint32 zoneName record.name record.kind) r := by
  obtain ⟨v, b, rg, rs, -, -, -, -, rfl⟩ := encode_eq_some he
  rw [fromRedis_hsetMultiple _ _ _ _ _ _ _ _ (UInt32.toNat_lt _), Option.some.injEq] at hv
  subst hv
  obtain ⟨hk, hn⟩ := decode_kind_name hd
  rw [RecordType.fromStr_toStr, Option.some.injEq] at hk
  rw [RecordName.fromStr_toStr, Option.some.injEq] at hn
  exact ⟨zoneName, by rw [hk, hn]⟩

theorem keysName_set (zoneName : ZoneName) (record : StoreRecord Country) :
    Keeps (KeysName env) (set env zoneName record) := by
  unfold set
  refine ensures_getCacheStoreClient onStore_keysName.stepsKeep trivial fun i => ?_
  split
  · exact Ensures.pure trivial
  · rename_i fields he
    refine (keysName_cachePop _).bind fun _ _ => (keeps_command onStore_keysName.stepsKeep).bind fun outcome _ => ?_
    dsimp only
    refine Ensures.ite (fun _ => ?_) fun _ => Ensures.pure trivial
    refine Ensures.get_bind fun w _ => ?_
    exact (keysName_writeKeyspace i (namedBy_hsetMultiple he _)).bind fun _ _ => Ensures.pure trivial

end Write

theorem keysName_remove (zoneName : ZoneName) (recordName : RecordName) (recordType : RecordType) :
    Keeps (KeysName env) (remove env zoneName recordName recordType) := by
  unfold remove
  refine ensures_getCacheStoreClient onStore_keysName.stepsKeep trivial fun i => ?_
  refine (keysName_cachePop _).bind fun _ _ => (keeps_command onStore_keysName.stepsKeep).bind fun outcome _ => ?_
  dsimp only
  refine Ensures.ite (fun _ => ?_) fun _ => Ensures.pure trivial
  exact (keysName_writeKeyspace i (by simp [StoreGetType.fromRedis])).bind
    fun _ _ => Ensures.pure trivial

/-! ## Runs of the store's calls -/

/-- A call of the store's API, as the HTTP API, the DNS handler and the health checks
make them. -/
inductive StoreCall (Country : Type)
  | get (zoneName : ZoneName) (recordName : RecordName) (recordType : RecordType)
      (origin : StoreAccessOrigin)
  | set (zoneName : ZoneName) (record : StoreRecord Country)
  | remove (zoneName : ZoneName) (recordName : RecordName) (recordType : RecordType)

variable [DecidableEq Country] (env)

def StoreCall.run : StoreCall Country → TaskM Country Unit
  | .get zoneName recordName recordType origin => do
    let _ ← Store.get env zoneName recordName recordType origin
  | .set zoneName record => do
    let _ ← Store.set env zoneName record
  | .remove zoneName recordName recordType => do
    let _ ← Store.remove env zoneName recordName recordType

/-- No server holds a hash and the cache is empty. -/
def StoreEmpty (w : World Country) : Prop :=
  (∀ storeKey, w.cache storeKey = none) ∧ ∀ pool ∈ w.pools, ∀ storeKey, pool.keyspace storeKey = none

variable {env}

omit [DecidableEq Country] in
/-- The process started on empty servers starts with an empty store. -/
theorem storeEmpty_init {keyspaces : List Keyspace}
    (h : ∀ keyspace ∈ keyspaces, ∀ storeKey, keyspace storeKey = none) (now : ℕ) (io : Io) :
    StoreEmpty (World.init keyspaces now io : World Country) := by
  refine ⟨fun _ => rfl, fun pool hp storeKey => ?_⟩
  obtain ⟨keyspace, hk, rfl⟩ := List.mem_map.mp hp
  exact h keyspace hk storeKey

omit [DecidableEq Country] in
theorem keysName_of_storeEmpty {w : World Country} (h : StoreEmpty w) : KeysName env w := by
  refine ⟨fun pool hp k values r hv _ => ?_, fun k e r he _ => ?_⟩
  · rw [h.2 pool hp k] at hv
    cases hv
  · rw [h.1 k] at he
    cases he

theorem keysName_run (call : StoreCall Country) : Keeps (KeysName env) (call.run env) := by
  cases call with
  | get zoneName recordName recordType origin =>
    exact (ensures_get zoneName recordName recordType origin).bind fun _ _ => Ensures.pure trivial
  | set zoneName record =>
    exact (keysName_set zoneName record).bind fun _ _ => Ensures.pure trivial
  | remove zoneName recordName recordType =>
    exact (keysName_remove zoneName recordName recordType).bind fun _ _ => Ensures.pure trivial

/-- After any calls from an empty store, what `Store::get` returns has the type asked for
and a name of the same fingerprint as the name asked for. -/
theorem get_ok_named {w : World Country} (h : StoreEmpty w) (calls : List (StoreCall Country))
    {zoneName : ZoneName} {recordName : RecordName} {recordType : RecordType}
    {origin : StoreAccessOrigin} {r : StoreRecord Country} {w' : World Country}
    (hr : (get env zoneName recordName recordType origin).run
      (finalState ((calls.forM (StoreCall.run env)).run w)) = .ok (.ok r) w') :
    r.kind = recordType ∧ env.fingerprint32 r.name.toStr = env.fingerprint32 recordName.toStr := by
  have hw : KeysName env (finalState ((calls.forM (StoreCall.run env)).run w)) :=
    (Keeps.forM keysName_run calls w (keysName_of_storeEmpty h)).1
  obtain ⟨zoneName', hk⟩ :=
    (ensures_get zoneName recordName recordType origin _ hw).2 _ _ hr r rfl
  obtain ⟨-, hn, ht⟩ := (StoreKey.toKey_eq_toKey_iff _).mp hk
  exact ⟨ht.symm, hn.symm⟩

end Constellation.Store
