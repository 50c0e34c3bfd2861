import Constellation.Store.Isolation

/-! # A read racing a write

`Store::set` drops the cached entry and then awaits the server's reply to its
HSET. A read of the same key by another task in between misses the cache, reads
the hash that the write is about to replace, and caches what it read. The write
then succeeds, and the reads that start after it are served the replaced record
from the cache, until the entry expires or is refreshed.
-/

namespace Constellation.Store

open Dns Cache TaskM

variable {Country Addr : Type} [DecidableEq Country] (env : Env Country Addr)

/-- `Store::set`, with the steps of another task run while it awaits the HSET. -/
def setAwaiting (other : TaskM Country Unit) (zoneName : ZoneName) (record : StoreRecord Country) :
    TaskM Country (Except StoreError Unit) :=
  getCacheStoreClient env .Disconnected fun i => do
    match record.encode env.serde with
    | none => pure (.error .Encoding)
    | some fields =>
      let storeKey := StoreKey.toKey env.fingerprint32 zoneName record.name record.kind
      cachePop storeKey
      other
      let outcome ← command
      if outcome ≠ .failed false then
        let pool := (← getThe (World Country)).pools[i]?
        writeKeyspace i storeKey (some (hsetMultiple (pool.bind fun p => p.keyspace storeKey) fields))
      pure (if outcome = .done then .ok () else .error .Connector)

/-- With nothing in between, it is `Store::set`. -/
theorem setAwaiting_pure (zoneName : ZoneName) (record : StoreRecord Country) :
    setAwaiting env (pure ()) zoneName record = set env zoneName record := rfl

/-- The record `recordA` with a value. -/
def recordA' : StoreRecord Unit := { recordA with values := [⟨"192.0.2.1"⟩] }

/-- On one server holding `recordA`, a health check reading the key while `Store::set` of
`recordA'` awaits its HSET: the write succeeds, and a read that starts after it returns
`recordA`. -/
theorem get_after_set_returns_replaced :
    ∃ written w', (setAwaiting constantFingerprintEnv
        (StoreCall.run constantFingerprintEnv (.get exampleZone nameA .A .Internal))
        exampleZone recordA').run (finalState (([StoreCall.set exampleZone recordA].forM
          (StoreCall.run constantFingerprintEnv)).run onePoolWorld)) = .ok (.ok ()) written ∧
      (get constantFingerprintEnv exampleZone nameA .A .Internal).run written =
        .ok (.ok recordA) w' ∧ recordA ≠ recordA'.normalize := by
  refine ⟨_, _, rfl, rfl, ?_⟩
  decide

end Constellation.Store
