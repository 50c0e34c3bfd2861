import Constellation.Monad.Local
import Constellation.Store.Map

/-! # Isolation of the keys

A write touches the store at its own key only: `Store::set` and `Store::remove`
leave the cache entry and every server's hash at any other key as they were.
And `Store::get` reads the store at its own key only: two worlds that agree
everywhere but in what the store holds at other keys give the same answer.
Together: a write changes what a read returns only when the two share a key,
that is when their zones and names have the same fingerprints and their types
are the same.
-/

namespace Constellation

open Dns Store Cache TaskM

variable {Country Addr : Type}

/-- What the store holds at a key: the cache entry and the hash of each server. -/
def World.storeAt (storeKey : String) (w : World Country) :
    Option (Entry (Option (StoreRecord Country))) × List (Option RedisHash) :=
  (w.cache storeKey, w.pools.map fun pool => pool.keyspace storeKey)

/-- The world `w` with the store of `src`: its cache, and the keyspace of each of its servers. -/
def World.withStoreOf (w src : World Country) : World Country :=
  { w with
    cache := src.cache
    pools := List.zipWith (fun pool old => { pool with keyspace := old.keyspace }) w.pools src.pools }

/-- The world with the store emptied at every key but `storeKey`. -/
def World.onlyKey (storeKey : String) (w : World Country) : World Country :=
  { w with
    cache := onlyAt storeKey w.cache
    pools := w.pools.map fun pool => { pool with keyspace := onlyAt storeKey pool.keyspace } }

namespace Store

/-! ## Writes touch their own key -/

theorem onStore_storeAt (storeKey : String)
    (v : Option (Entry (Option (StoreRecord Country))) × List (Option RedisHash)) :
    OnStore (fun w : World Country => w.storeAt storeKey = v) := by
  intro w w' hc hp hw
  have hk := congrArg (List.map fun keyspace : Keyspace => keyspace storeKey) hp
  simp only [List.map_map, Function.comp_def] at hk
  rw [← hw, World.storeAt, World.storeAt, hc, hk]

section Frame

variable {storeKey other : String} (hk : storeKey ≠ other)
  {v : Option (Entry (Option (StoreRecord Country))) × List (Option RedisHash)}
include hk

theorem frame_cachePop :
    Keeps (fun w : World Country => w.storeAt other = v) (cachePop storeKey) := by
  unfold cachePop
  refine Keeps.modify fun w hw => ?_
  rw [← hw]
  simp [World.storeAt, StoreCache.pop, Map.erase_of_ne _ hk.symm]

theorem frame_cachePush (record : Option (StoreRecord Country)) (accessedAt : Option ℕ) :
    Keeps (fun w : World Country => w.storeAt other = v) (cachePush storeKey record accessedAt) := by
  unfold cachePush
  refine (keeps_readClock (onStore_storeAt other v).stepsKeep).bind fun now _ => Keeps.modify fun w hw => ?_
  rw [← hw]
  simp [World.storeAt, StoreCache.push, Map.insert_of_ne _ hk.symm]

theorem frame_writeKeyspace (i : ℕ) (hash : Option RedisHash) :
    Keeps (fun w : World Country => w.storeAt other = v) (writeKeyspace i storeKey hash) := by
  unfold writeKeyspace
  refine Keeps.modify fun w hw => ?_
  rw [← hw, World.storeAt, World.storeAt,
    map_modify_of_comp (fun pool => Function.update_of_ne hk.symm hash pool.keyspace)]

end Frame

variable (env : Env Country Addr)

/-- `Store::remove` leaves the store as it was at every key but its own. -/
theorem frame_remove {zoneName : ZoneName} {recordName : RecordName} {recordType : RecordType}
    {other : String} (hk : StoreKey.toKey env.fingerprint32 zoneName recordName recordType ≠ other)
    (v : Option (Entry (Option (StoreRecord Country))) × List (Option RedisHash)) :
    Keeps (fun w : World Country => w.storeAt other = v) (remove env zoneName recordName recordType) := by
  unfold remove
  refine ensures_getCacheStoreClient (onStore_storeAt other v).stepsKeep trivial fun i => ?_
  refine (frame_cachePop hk).bind fun _ _ =>
    (keeps_command (onStore_storeAt other v).stepsKeep).bind fun outcome _ => ?_
  dsimp only
  refine Ensures.ite (fun _ => ?_) fun _ => Ensures.pure trivial
  exact (frame_writeKeyspace hk i _).bind fun _ _ => Ensures.pure trivial

variable [DecidableEq Country] in
/-- `Store::set` leaves the store as it was at every key but the record's. -/
theorem frame_set {zoneName : ZoneName} {record : StoreRecord Country} {other : String}
    (hk : StoreKey.toKey env.fingerprint32 zoneName record.name record.kind ≠ other)
    (v : Option (Entry (Option (StoreRecord Country))) × List (Option RedisHash)) :
    Keeps (fun w : World Country => w.storeAt other = v) (set env zoneName record) := by
  unfold set
  refine ensures_getCacheStoreClient (onStore_storeAt other v).stepsKeep trivial fun i => ?_
  split
  · exact Ensures.pure trivial
  · refine (frame_cachePop hk).bind fun _ _ =>
      (keeps_command (onStore_storeAt other v).stepsKeep).bind fun outcome _ => ?_
    dsimp only
    refine Ensures.ite (fun _ => ?_) fun _ => Ensures.pure trivial
    exact Ensures.get_bind fun w _ =>
      (frame_writeKeyspace hk i _).bind fun _ _ => Ensures.pure trivial

/-! ## Reads see their own key -/

section Local

variable {storeKey : String}

theorem keepsIo_onlyKey : KeepsIo (World.onlyKey storeKey : World Country → World Country) :=
  ⟨fun _ => rfl, fun _ => rfl, fun _ _ _ => rfl, fun _ _ => rfl⟩

theorem commutes_cacheGet :
    Commutes (World.onlyKey storeKey) (cacheGet storeKey : TaskM Country _) := by
  unfold cacheGet
  refine Commutes.get_bind (fun w => by simp [World.onlyKey]) fun w =>
    Commutes.ite (fun _ => ?_) fun _ => Commutes.pure _
  refine (commutes_readClock keepsIo_onlyKey).bind fun now => Commutes.modifyGet fun w => ?_
  rcases h : w.cache.get storeKey now with ⟨cached, cache⟩
  simp [World.onlyKey, StoreCache.get_onlyAt, h]

theorem commutes_cachePush (record : Option (StoreRecord Country)) (accessedAt : Option ℕ) :
    Commutes (World.onlyKey storeKey) (cachePush storeKey record accessedAt : TaskM Country Unit) := by
  unfold cachePush
  refine (commutes_readClock keepsIo_onlyKey).bind fun now => Commutes.modify fun w => ?_
  simp [World.onlyKey, StoreCache.push, Map.insert]

theorem commutes_writeKeyspace (i : ℕ) (hash : Option RedisHash) :
    Commutes (World.onlyKey storeKey) (writeKeyspace i storeKey hash : TaskM Country Unit) := by
  unfold writeKeyspace
  refine Commutes.modify fun w => ?_
  simp only [World.onlyKey]
  congr 1
  exact (map_modify (by intro; simp) _ _).symm

variable {env}

theorem commutes_getCacheStoreClientFrom {α : Type} {error : StoreError}
    {body : ℕ → TaskM Country (Except StoreError α)}
    (hbody : ∀ i, Commutes (World.onlyKey storeKey) (body i)) :
    ∀ is, Commutes (World.onlyKey storeKey) (getCacheStoreClientFrom env error body is)
  | [] => Commutes.pure _
  | i :: rest => by
    unfold getCacheStoreClientFrom
    refine (commutes_readClock keepsIo_onlyKey).bind fun now => Commutes.get_bind (fun w => ?_) fun w => ?_
    · simp [World.onlyKey, Option.bind_map]
    refine Commutes.ite (fun _ => (commutes_acquire keepsIo_onlyKey).bind fun ok => ?_)
      fun _ => commutes_getCacheStoreClientFrom hbody rest
    refine Commutes.ite (fun _ => hbody i) fun _ => ?_
    refine (commutes_readClock keepsIo_onlyKey).bind fun failedAt => (Commutes.modify fun w => ?_).bind fun _ =>
      commutes_getCacheStoreClientFrom hbody rest
    simp only [World.onlyKey]
    congr 1
    exact (map_modify (by intro; rfl) _ _).symm

theorem commutes_getCacheStoreClient {α : Type} {error : StoreError}
    {body : ℕ → TaskM Country (Except StoreError α)}
    (hbody : ∀ i, Commutes (World.onlyKey storeKey) (body i)) :
    Commutes (World.onlyKey storeKey) (getCacheStoreClient env error body) := by
  unfold getCacheStoreClient
  exact Commutes.get_bind (fun w => by simp [World.onlyKey]) fun w =>
    commutes_getCacheStoreClientFrom hbody _

theorem commutes_rawGetRemote (cacheAccessedAt : Option ℕ) :
    Commutes (World.onlyKey storeKey) (rawGetRemote env storeKey cacheAccessedAt) := by
  unfold rawGetRemote
  refine commutes_getCacheStoreClient fun i => (commutes_command keepsIo_onlyKey).bind fun outcome => ?_
  cases outcome with
  | failed _ => exact Commutes.pure _
  | done =>
    refine Commutes.get_bind (fun w => ?_) fun w => ?_
    · simp [World.onlyKey, Option.bind_map]
    dsimp only
    split
    · exact (commutes_cachePush _ _).bind fun _ => Commutes.pure _
    · split
      · exact (commutes_cachePush _ _).bind fun _ => Commutes.pure _
      · exact Commutes.pure _

end Local

/-- `Store::get` reads the store at its own key only. -/
theorem commutes_get (zoneName : ZoneName) (recordName : RecordName) (recordType : RecordType)
    (origin : StoreAccessOrigin) :
    Commutes (World.onlyKey (StoreKey.toKey env.fingerprint32 zoneName recordName recordType))
      (get env zoneName recordName recordType origin) := by
  unfold get
  refine commutes_cacheGet.bind fun cached => ?_
  cases cached with
  | ok cachedRecords => exact Commutes.pure _
  | error _ =>
    refine Commutes.ite (fun _ => commutes_rawGetRemote _) fun _ => ?_
    refine (commutes_readClock keepsIo_onlyKey).bind fun nowInstant => Commutes.get_bind (fun w => rfl) fun w => ?_
    refine (Commutes.modify (by intro; rfl)).bind fun _ => ?_
    refine Commutes.ite (fun _ => Commutes.pure _) fun _ => ?_
    refine (commutes_rawGetRemote _).bind fun resultRemote => ?_
    exact (commutes_readClock keepsIo_onlyKey).bind fun finishedAt =>
      (Commutes.modify (by intro; rfl)).bind fun _ => Commutes.pure _

/-- Two worlds that agree but in what the store holds at other keys get the same answer. -/
theorem get_outcome_eq {zoneName : ZoneName} {recordName : RecordName} {recordType : RecordType}
    (origin : StoreAccessOrigin) {w w' : World Country}
    (h : w.onlyKey (StoreKey.toKey env.fingerprint32 zoneName recordName recordType) =
      w'.onlyKey (StoreKey.toKey env.fingerprint32 zoneName recordName recordType)) :
    outcome ((get env zoneName recordName recordType origin).run w) =
      outcome ((get env zoneName recordName recordType origin).run w') :=
  (commutes_get env zoneName recordName recordType origin).outcome_eq h

theorem map_onlyAt_zipWith (storeKey : String) :
    ∀ pools olds : List StorePool,
      pools.map (fun pool => pool.keyspace storeKey) = olds.map (fun pool => pool.keyspace storeKey) →
      (List.zipWith (fun pool old => { pool with keyspace := old.keyspace }) pools olds).map
          (fun pool => { pool with keyspace := onlyAt storeKey pool.keyspace }) =
        pools.map fun pool => { pool with keyspace := onlyAt storeKey pool.keyspace }
  | [], [], _ => rfl
  | [], _ :: _, h => by simp at h
  | _ :: _, [], h => by simp at h
  | pool :: pools, old :: olds, h => by
    simp only [List.map_cons, List.cons.injEq] at h
    simp only [List.zipWith_cons_cons, List.map_cons, onlyAt_congr h.1.symm,
      map_onlyAt_zipWith storeKey pools olds h.2]

/-- Giving a world the store of another changes nothing at a key where the two stores agree. -/
theorem onlyKey_withStoreOf {storeKey : String} {w src : World Country}
    (h : w.storeAt storeKey = src.storeAt storeKey) :
    (w.withStoreOf src).onlyKey storeKey = w.onlyKey storeKey := by
  simp only [World.storeAt, Prod.mk.injEq] at h
  simp only [World.onlyKey, World.withStoreOf, onlyAt_congr h.1.symm,
    map_onlyAt_zipWith storeKey w.pools src.pools h.2]

/-! ## Writes and reads at different keys -/

variable [DecidableEq Country] in
/-- After `Store::set`, a read at another key returns what it returns in the same world with
the store as it was before the write. -/
theorem get_after_set {zoneName zoneName' : ZoneName} {record : StoreRecord Country}
    {recordName' : RecordName} {recordType' : RecordType}
    (hk : StoreKey.toKey env.fingerprint32 zoneName record.name record.kind ≠
      StoreKey.toKey env.fingerprint32 zoneName' recordName' recordType')
    (origin : StoreAccessOrigin) (w : World Country) :
    outcome ((get env zoneName' recordName' recordType' origin).run
        (finalState ((set env zoneName record).run w))) =
      outcome ((get env zoneName' recordName' recordType' origin).run
        ((finalState ((set env zoneName record).run w)).withStoreOf w)) := by
  have hf := (frame_set env hk (w.storeAt _) w rfl).1
  exact get_outcome_eq env origin (onlyKey_withStoreOf hf).symm

/-- After `Store::remove`, a read at another key returns what it returns in the same world
with the store as it was before the write. -/
theorem get_after_remove {zoneName zoneName' : ZoneName} {recordName recordName' : RecordName}
    {recordType recordType' : RecordType}
    (hk : StoreKey.toKey env.fingerprint32 zoneName recordName recordType ≠
      StoreKey.toKey env.fingerprint32 zoneName' recordName' recordType')
    (origin : StoreAccessOrigin) (w : World Country) :
    outcome ((get env zoneName' recordName' recordType' origin).run
        (finalState ((remove env zoneName recordName recordType).run w))) =
      outcome ((get env zoneName' recordName' recordType' origin).run
        ((finalState ((remove env zoneName recordName recordType).run w)).withStoreOf w)) := by
  have hf := (frame_remove env hk (w.storeAt _) w rfl).1
  exact get_outcome_eq env origin (onlyKey_withStoreOf hf).symm

/-! ## The store as a map keyed by fingerprints -/

variable [DecidableEq Country] in
/-- After any calls from an empty store, what `Store::get` returns has the type asked for and
a name of the fingerprint asked for; and a write changes what a read returns only if the two
agree on the fingerprints of zone and name and on the type. -/
theorem store_keyed_by_fingerprints {w : World Country} (h : StoreEmpty w)
    (calls : List (StoreCall Country)) (zoneName : ZoneName) (recordName : RecordName)
    (recordType : RecordType) (origin : StoreAccessOrigin) :
    let reached := finalState ((calls.forM (StoreCall.run env)).run w)
    let read := get env zoneName recordName recordType origin
    (∀ r w', read.run reached = .ok (.ok r) w' →
        r.kind = recordType ∧ env.fingerprint32 r.name.toStr = env.fingerprint32 recordName.toStr) ∧
    (∀ (zoneName' : ZoneName) (record : StoreRecord Country),
        ¬ (env.fingerprint32 zoneName'.toStr = env.fingerprint32 zoneName.toStr ∧
          env.fingerprint32 record.name.toStr = env.fingerprint32 recordName.toStr ∧
          record.kind = recordType) →
        let written := finalState ((set env zoneName' record).run reached)
        outcome (read.run written) = outcome (read.run (written.withStoreOf reached))) ∧
    (∀ (zoneName' : ZoneName) (recordName' : RecordName) (recordType' : RecordType),
        ¬ (env.fingerprint32 zoneName'.toStr = env.fingerprint32 zoneName.toStr ∧
          env.fingerprint32 recordName'.toStr = env.fingerprint32 recordName.toStr ∧
          recordType' = recordType) →
        let written := finalState ((remove env zoneName' recordName' recordType').run reached)
        outcome (read.run written) = outcome (read.run (written.withStoreOf reached))) := by
  intro reached read
  refine ⟨fun r w' hr => get_ok_named h calls hr, fun zoneName' record hne => ?_,
    fun zoneName' recordName' recordType' hne => ?_⟩
  · exact get_after_set env (fun hk => hne ((StoreKey.toKey_eq_toKey_iff _).mp hk)) origin reached
  · exact get_after_remove env (fun hk => hne ((StoreKey.toKey_eq_toKey_iff _).mp hk)) origin
      reached

/-- Surroundings in which every text has the fingerprint 0. -/
def constantFingerprintEnv : Env Unit Unit where
  conf :=
    { dns :=
      { nameservers := ["ns.example.net"]
        soaMaster := "ns.example.net"
        soaResponsible := "hostmaster.example.net" } }
  fingerprint32 := fun _ => 0
  serde := smallSerde
  parser := fun _ _ => none
  locate := fun _ => none
  regionOf := fun _ => .WEU

/-- The process started on one empty Redis server. -/
def onePoolWorld : World Unit := World.init [fun _ => none] 0 {}

def exampleZone : ZoneName := exampleZoneName

def nameA : RecordName := exampleRecordName

def nameB : RecordName := ⟨"b.@", by decide, by decide⟩

def recordA : StoreRecord Unit := ⟨.A, nameA, none, none, none, none, none, []⟩

theorem onePoolWorld_storeEmpty : StoreEmpty onePoolWorld :=
  storeEmpty_init (by simp) 0 {}

theorem store_keyed_by_fingerprints_onePool :
    StoreEmpty onePoolWorld ∧
    let reached := finalState (([] : List (StoreCall Unit)).forM
      (StoreCall.run constantFingerprintEnv) |>.run onePoolWorld)
    let read := get constantFingerprintEnv exampleZone nameB .A .Internal
    (∀ r w', read.run reached = .ok (.ok r) w' →
        r.kind = .A ∧ constantFingerprintEnv.fingerprint32 r.name.toStr =
          constantFingerprintEnv.fingerprint32 nameB.toStr) ∧
    (∀ (zoneName' : ZoneName) (record : StoreRecord Unit),
        ¬ (constantFingerprintEnv.fingerprint32 zoneName'.toStr =
            constantFingerprintEnv.fingerprint32 exampleZone.toStr ∧
          constantFingerprintEnv.fingerprint32 record.name.toStr =
            constantFingerprintEnv.fingerprint32 nameB.toStr ∧
          record.kind = .A) →
        let written := finalState ((set constantFingerprintEnv zoneName' record).run reached)
        outcome (read.run written) = outcome (read.run (written.withStoreOf reached))) ∧
    (∀ (zoneName' : ZoneName) (recordName' : RecordName) (recordType' : RecordType),
        ¬ (constantFingerprintEnv.fingerprint32 zoneName'.toStr =
            constantFingerprintEnv.fingerprint32 exampleZone.toStr ∧
          constantFingerprintEnv.fingerprint32 recordName'.toStr =
            constantFingerprintEnv.fingerprint32 nameB.toStr ∧
          recordType' = .A) →
        let written := finalState
          ((remove constantFingerprintEnv zoneName' recordName' recordType').run reached)
        outcome (read.run written) = outcome (read.run (written.withStoreOf reached))) :=
  ⟨onePoolWorld_storeEmpty, store_keyed_by_fingerprints constantFingerprintEnv
    onePoolWorld_storeEmpty [] exampleZone nameB .A .Internal⟩

/-- When the fingerprints of two names collide, setting a record under one makes `Store::get`
of the other return it. -/
theorem get_returns_record_of_other_name :
    ∃ r w', (get constantFingerprintEnv exampleZone nameB .A .Internal).run
      (finalState (([StoreCall.set exampleZone recordA].forM
        (StoreCall.run constantFingerprintEnv)).run onePoolWorld)) = .ok (.ok r) w' ∧
      r.name ≠ nameB := by
  refine ⟨_, _, rfl, ?_⟩
  decide

end Store

end Constellation
