import Constellation.Store.Map

/-! # The store flusher

`StoreFlush::perform` runs every `FLUSH_PERFORM_INTERVAL`: `StoreCacheFlush::expire`
drops the cache entries idle for `cache_expire_seconds`, then
`StoreCacheFlush::refresh` reads again, through `raw_get_remote`, the entries
refreshed `cache_refresh_seconds` ago, restoring their access time. Each pass scans
the cache at one reading of the clock. The scan of `refresh` visits the keys in the
iteration order of the `HashMap`, which the model is given.

The store's tasks are its calls and the flusher's runs; run one after another, they
are the steps of `StoreStep`.
-/

namespace Constellation.Store

open Dns Cache TaskM

variable {Country Addr : Type} [DecidableEq Country] (env : Env Country Addr)

/-- `StoreCacheFlush::refresh`: the scan, at one reading of the clock, registers the entries
refreshed `cache_refresh_seconds` ago with their access times, in the order `keys` visits the
cache; then each is read again from Redis, restoring its access time. What a read returns is
dropped. -/
def StoreCacheFlush.refresh (keys : List String) : TaskM Country Unit := do
  let now ← readClock
  let cache := (← getThe (World Country)).cache
  let register := keys.filterMap fun storeKey =>
    (StoreCacheFlush.refreshRegister env.conf.redis cache now storeKey).map (storeKey, ·)
  register.forM fun (storeKey, storeAccessedAt) => do
    let _ ← rawGetRemote env storeKey (some storeAccessedAt)

/-- `StoreFlush::perform`: `StoreCacheFlush::expire` at one reading of the clock, then
`StoreCacheFlush::refresh`. -/
def StoreFlush.perform (keys : List String) : TaskM Country Unit := do
  let now ← readClock
  modify fun w => { w with cache := StoreCacheFlush.expire env.conf.redis w.cache now }
  StoreCacheFlush.refresh env keys

/-- A task of the process on the store: a call of the store's API, or a run of the flusher. -/
inductive StoreStep (Country : Type)
  | call (storeCall : StoreCall Country)
  | flush (keys : List String)

def StoreStep.run : StoreStep Country → TaskM Country Unit
  | .call storeCall => storeCall.run env
  | .flush keys => StoreFlush.perform env keys

/-- The key a step writes on the servers: `set` and `remove` write the key of their triple;
reads and the flusher write none. -/
def StoreStep.writes : StoreStep Country → Option String
  | .call (.set zoneName record) =>
    some (StoreKey.toKey env.fingerprint32 zoneName record.name record.kind)
  | .call (.remove zoneName recordName recordType) =>
    some (StoreKey.toKey env.fingerprint32 zoneName recordName recordType)
  | .call (.get ..) => none
  | .flush _ => none

section OffStore

variable {env} {I : World Country → Prop} (hI : OffStore I)
include hI

omit [DecidableEq Country] in
/-- The flusher keeps every invariant of what the store does not touch. -/
theorem StoreFlush.keeps_perform (keys : List String) : Keeps I (StoreFlush.perform env keys) := by
  unfold StoreFlush.perform StoreCacheFlush.refresh
  refine (keeps_readClock hI.stepsKeep).bind fun now _ => ?_
  refine (Keeps.modify fun w hw => hI w w.pools w.rate _ w.now w.io hw).bind fun _ _ => ?_
  refine (keeps_readClock hI.stepsKeep).bind fun now _ =>
    Ensures.get_bind fun w _ => Keeps.forM (fun register => ?_) _
  obtain ⟨storeKey, storeAccessedAt⟩ := register
  exact (keeps_rawGetRemote hI env storeKey _).bind fun _ _ => Ensures.pure trivial

theorem StoreStep.keeps_run (step : StoreStep Country) : Keeps I (step.run env) := by
  cases step with
  | call storeCall =>
    cases storeCall with
    | get zoneName recordName recordType origin =>
      exact (keeps_get hI env zoneName recordName recordType origin).bind fun _ _ =>
        Ensures.pure trivial
    | set zoneName record =>
      exact (keeps_set hI env zoneName record).bind fun _ _ => Ensures.pure trivial
    | remove zoneName recordName recordType =>
      exact (keeps_remove hI env zoneName recordName recordType).bind fun _ _ =>
        Ensures.pure trivial
  | flush keys => exact StoreFlush.keeps_perform hI keys

end OffStore

end Constellation.Store
