import Constellation.Store.Isolation

/-! # Failing over between pools

`get_cache_store_client!` examines the pools in configuration order, the master
first and then the rescue pools. It skips a pool while it is delinquent, tries to
acquire it otherwise, and runs the operation on the first pool it acquires; a
pool that cannot be acquired is delinquent from the clock's next reading on, for
`delinquency_seconds`. Reads and writes share the loop, so a write goes to a
rescue pool whenever the master is skipped or fails; and a deadline past the
last `Instant` is no deadline at all.

The steps of the loop are stated for a clock that does not tick, with the answer
of the next acquisition given.
-/

namespace Constellation.Store

open Dns Cache TaskM

variable {Country Addr : Type} (env : Env Country Addr)

/-- The deadline of pool `i`, as the loop reads it. -/
def poolDelinquentUntil (w : World Country) (i : ℕ) : Option ℕ :=
  (w.pools[i]?).bind StorePool.delinquentUntil

/-! ## The steps of the loop -/

section Loop

variable {α : Type} {error : StoreError} {body : ℕ → TaskM Country (Except StoreError α)}
  {i : ℕ} {rest : List ℕ} {w : World Country}

/-- A pool delinquent at the time it is examined is skipped. -/
theorem getCacheStoreClientFrom_skip (ht : w.io.ticks = [])
    (hd : w.now < (poolDelinquentUntil w i).getD w.now) :
    (getCacheStoreClientFrom env error body (i :: rest)).run w =
      (getCacheStoreClientFrom env error body rest).run w := by
  have hskip : ¬ ((w.pools[i]?).bind StorePool.delinquentUntil).getD w.now ≤ w.now :=
    not_le.mpr hd
  rw [getCacheStoreClientFrom, EStateM.run_bind, readClock_run_of_nil ht]
  simp only [EStateM.run_bind, getThe_run]
  rw [if_neg hskip]

/-- A pool that is not delinquent and is acquired runs the body. -/
theorem getCacheStoreClientFrom_acquired (ht : w.io.ticks = []) (ha : w.io.acquire = [])
    (hd : (poolDelinquentUntil w i).getD w.now ≤ w.now) :
    (getCacheStoreClientFrom env error body (i :: rest)).run w = (body i).run w := by
  have htry : ((w.pools[i]?).bind StorePool.delinquentUntil).getD w.now ≤ w.now := hd
  rw [getCacheStoreClientFrom, EStateM.run_bind, readClock_run_of_nil ht]
  simp only [EStateM.run_bind, getThe_run]
  rw [if_pos htry, EStateM.run_bind, acquire_run_of_nil ha]
  rfl

/-- A pool that is not delinquent and cannot be acquired is delinquent until the instant
`delinquency_seconds` after the clock's reading, if there is one, and the loop goes on. -/
theorem getCacheStoreClientFrom_failed (ht : w.io.ticks = []) {acquire : List Bool}
    (ha : w.io.acquire = false :: acquire) (hd : (poolDelinquentUntil w i).getD w.now ≤ w.now) :
    (getCacheStoreClientFrom env error body (i :: rest)).run w =
      (getCacheStoreClientFrom env error body rest).run
        { w with
          io := { w.io with acquire }
          pools := w.pools.modify i fun pool => { pool with
            delinquentUntil :=
              instantCheckedAdd w.now (env.conf.redis.delinquencySeconds * SECOND) } } := by
  have htry : ((w.pools[i]?).bind StorePool.delinquentUntil).getD w.now ≤ w.now := hd
  have ht' : ({ w with io := { w.io with acquire } } : World Country).io.ticks = [] := ht
  rw [getCacheStoreClientFrom, EStateM.run_bind, readClock_run_of_nil ht]
  simp only [EStateM.run_bind, getThe_run]
  rw [if_pos htry, EStateM.run_bind, acquire_run_cons ha]
  simp only [Bool.false_eq_true, if_false, EStateM.run_bind, readClock_run_of_nil ht']
  rfl

theorem getCacheStoreClient_run :
    (getCacheStoreClient env error body).run w =
      (getCacheStoreClientFrom env error body (List.range w.pools.length)).run w := rfl

end Loop

/-! ## Deadlines past the last instant -/

/-- When the deadline of a pool that cannot be acquired would fall past the last `Instant`,
the pool is left with no deadline: a pass at the same time already tries it again, and runs
its body on it if it is acquired. -/
theorem failed_pool_tried_again {w : World Country} {i : ℕ} (hi : i < w.pools.length)
    (ht : w.io.ticks = []) {acquire : List Bool} (ha : w.io.acquire = false :: acquire)
    (hd : (poolDelinquentUntil w i).getD w.now ≤ w.now)
    (hov : INSTANT_MAX < w.now + env.conf.redis.delinquencySeconds * SECOND) :
    ∃ failed : World Country, failed.now = w.now ∧
      (∀ {α : Type} (error : StoreError) (body : ℕ → TaskM Country (Except StoreError α))
        (rest : List ℕ), (getCacheStoreClientFrom env error body (i :: rest)).run w =
          (getCacheStoreClientFrom env error body rest).run failed) ∧
      poolDelinquentUntil failed i = none ∧
      (∀ {α : Type} (error : StoreError) (body : ℕ → TaskM Country (Except StoreError α))
        (rest : List ℕ), failed.io.acquire = [] →
          (getCacheStoreClientFrom env error body (i :: rest)).run failed = (body i).run failed) := by
  have hnone : instantCheckedAdd w.now (env.conf.redis.delinquencySeconds * SECOND) = none := by
    simp [instantCheckedAdd, not_le.mpr hov]
  refine ⟨{ w with
      io := { w.io with acquire }
      pools := w.pools.modify i fun pool => { pool with
        delinquentUntil :=
          instantCheckedAdd w.now (env.conf.redis.delinquencySeconds * SECOND) } },
    rfl, fun error body rest => getCacheStoreClientFrom_failed env ht ha hd, ?_, ?_⟩
  · -- the deadline written is the overflowed one
    obtain ⟨pool, hpool⟩ : ∃ pool, w.pools[i]? = some pool := ⟨_, List.getElem?_eq_getElem hi⟩
    simp [poolDelinquentUntil, hpool, hnone]
  · intro α error body rest hacquire
    refine getCacheStoreClientFrom_acquired env ht hacquire ?_
    obtain ⟨pool, hpool⟩ : ∃ pool, w.pools[i]? = some pool := ⟨_, List.getElem?_eq_getElem hi⟩
    simp [poolDelinquentUntil, hpool, hnone]

/-- The surroundings of `constantFingerprintEnv`, with `delinquency_seconds` = 2^63. -/
def overflowEnv : Env Unit Unit :=
  { constantFingerprintEnv with
    conf := { constantFingerprintEnv.conf with redis := { delinquencySeconds := 2 ^ 63 } } }

/-- Two empty servers, the first of which fails to be acquired once. -/
def failingMasterWorld : World Unit :=
  World.init [fun _ => none, fun _ => none] 0 { acquire := [false] }

theorem failed_pool_tried_again_overflow :
    0 < failingMasterWorld.pools.length ∧ failingMasterWorld.io.ticks = [] ∧
      failingMasterWorld.io.acquire = [false] ∧
      (poolDelinquentUntil failingMasterWorld 0).getD failingMasterWorld.now ≤
        failingMasterWorld.now ∧
      INSTANT_MAX < failingMasterWorld.now + overflowEnv.conf.redis.delinquencySeconds * SECOND ∧
      ∃ failed : World Unit, failed.now = failingMasterWorld.now ∧
        (∀ {α : Type} (error : StoreError) (body : ℕ → TaskM Unit (Except StoreError α))
          (rest : List ℕ), (getCacheStoreClientFrom overflowEnv error body (0 :: rest)).run
            failingMasterWorld = (getCacheStoreClientFrom overflowEnv error body rest).run failed) ∧
        poolDelinquentUntil failed 0 = none ∧
        (∀ {α : Type} (error : StoreError) (body : ℕ → TaskM Unit (Except StoreError α))
          (rest : List ℕ), failed.io.acquire = [] →
            (getCacheStoreClientFrom overflowEnv error body (0 :: rest)).run failed =
              (body 0).run failed) :=
  ⟨by decide, rfl, rfl, by decide, by decide,
    failed_pool_tried_again overflowEnv (w := failingMasterWorld) (by decide) rfl rfl (by decide)
      (by decide)⟩

/-! ## Writes -/

variable [DecidableEq Country]

/-- With the master delinquent and the first rescue pool not, and nothing queued from the
outside world, `Store::set` runs on the rescue pool: its HSET lands on the rescue's
keyspace, and the master's is left as it was. -/
theorem set_writes_rescue {w : World Country} {master rescue : StorePool} {rest : List StorePool}
    (hpools : w.pools = master :: rescue :: rest) (hio : w.io = {})
    (hmaster : w.now < master.delinquentUntil.getD w.now)
    (hrescue : rescue.delinquentUntil.getD w.now ≤ w.now)
    {zoneName : ZoneName} {record : StoreRecord Country} {fields : List (String × String)}
    (he : record.encode env.serde = some fields) :
    (set env zoneName record).run w = .ok (.ok ()) { w with
      cache := w.cache.pop (StoreKey.toKey env.fingerprint32 zoneName record.name record.kind)
      pools := master :: { rescue with
        keyspace := Function.update rescue.keyspace
          (StoreKey.toKey env.fingerprint32 zoneName record.name record.kind)
          (some (hsetMultiple
            (rescue.keyspace (StoreKey.toKey env.fingerprint32 zoneName record.name record.kind))
            fields)) } :: rest } := by
  have ht : w.io.ticks = [] := by rw [hio]
  have hrange : List.range w.pools.length = 0 :: 1 :: (List.range rest.length).map (· + 2) := by
    simp [hpools, List.range_succ_eq_map, Function.comp_def]
  -- the loop skips the master and acquires the rescue pool
  rw [set, getCacheStoreClient_run, hrange,
    getCacheStoreClientFrom_skip env ht (by simpa [poolDelinquentUntil, hpools] using hmaster),
    getCacheStoreClientFrom_acquired env ht (by rw [hio])
      (by simpa [poolDelinquentUntil, hpools] using hrescue)]
  -- the body on pool 1: the cache entry dropped, the command done, the hash written
  simp only [he, cachePop, ne_eq, monadStateOf_get_eq_get, writeKeyspace, bind_pure_comp,
    ite_not, EStateM.run_bind, EStateM.run_modify, hpools, hio, command_run_of_nil, reduceCtorEq,
    ↓reduceIte, EStateM.run_get, List.length_cons, Nat.lt_add_left_iff_pos, Nat.zero_lt_succ,
    getElem?_pos, List.getElem_cons_succ, List.getElem_cons_zero, Option.bind_some]
  rfl

/-- The master, delinquent for one more second, and an empty rescue pool. -/
def masterDelinquentWorld : World Unit :=
  { World.init [fun _ => none, fun _ => none] 0 {} with
    pools := [⟨some SECOND, fun _ => none⟩, ⟨none, fun _ => none⟩] }

theorem set_writes_rescue_masterDelinquent :
    ∃ fields, recordA.encode constantFingerprintEnv.serde = some fields ∧
      (set constantFingerprintEnv exampleZone recordA).run masterDelinquentWorld =
        .ok (.ok ()) { masterDelinquentWorld with
          cache := masterDelinquentWorld.cache.pop
            (StoreKey.toKey constantFingerprintEnv.fingerprint32 exampleZone nameA .A)
          pools := [⟨some SECOND, fun _ => none⟩,
            ⟨none, Function.update (fun _ => none)
              (StoreKey.toKey constantFingerprintEnv.fingerprint32 exampleZone nameA .A)
              (some (hsetMultiple none fields))⟩] } :=
  ⟨_, rfl, set_writes_rescue constantFingerprintEnv (w := masterDelinquentWorld) rfl rfl
    (by decide) (by decide) rfl⟩

end Constellation.Store
