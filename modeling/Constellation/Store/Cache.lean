import Constellation.Config
import Constellation.Cache.Idle
import Constellation.Store.Record

/-! # The store cache

`STORE_CACHE` keeps what the store read for a key, or that the key was absent.
`StoreCacheFlush` runs two passes: `expire` drops entries idle for
`cache_expire_seconds`, and `refresh` reloads entries refreshed
`cache_refresh_seconds` ago through `raw_get_remote`, restoring their access
time. The reload is in `Store`; here are the cache operations and the two
registers.
-/

namespace Constellation.Store

open Cache

/-- `STORE_CACHE`, by store key. -/
abbrev StoreCache (Country : Type) := Cache.Map String (Option (StoreRecord Country))

namespace StoreCache

variable {Country : Type}

/-- `StoreCache::get`: the cached value, bumping its access time, or `Err` on a miss. -/
def get (cache : StoreCache Country) (storeKey : String) (now : ℕ) :
    Except Unit (Option (StoreRecord Country)) × StoreCache Country :=
  match cache.hit storeKey now with
  | (some record, cache) => (.ok record, cache)
  | (none, cache) => (.error (), cache)

/-- `StoreCache::push`, with `StoreCacheEntry::new`. -/
def push (cache : StoreCache Country) (storeKey : String) (record : Option (StoreRecord Country))
    (accessedAt : Option ℕ) (now : ℕ) : StoreCache Country :=
  cache.insert storeKey (Entry.new record now accessedAt)

/-- `StoreCache::pop`. -/
def pop (cache : StoreCache Country) (storeKey : String) : StoreCache Country :=
  cache.erase storeKey

theorem get_of_none {cache : StoreCache Country} {storeKey : String} (h : cache storeKey = none)
    (now : ℕ) : cache.get storeKey now = (.error (), cache) := by
  simp [get, Map.hit_of_none h]

theorem get_of_some {cache : StoreCache Country} {storeKey : String}
    {e : Entry (Option (StoreRecord Country))} (h : cache storeKey = some e) (now : ℕ) :
    cache.get storeKey now =
      (.ok e.value, cache.insert storeKey { e with accessedAt := now }) := by
  simp [get, Map.hit_of_some h]

/-- A lookup of a key sees only the entry at that key. -/
theorem get_onlyAt (cache : StoreCache Country) (storeKey : String) (now : ℕ) :
    get (onlyAt storeKey cache) storeKey now =
      ((cache.get storeKey now).1, onlyAt storeKey (cache.get storeKey now).2) := by
  cases h : cache storeKey with
  | none =>
    have h' : onlyAt storeKey cache storeKey = none := by rw [onlyAt_self, h]
    rw [get_of_none h, get_of_none h']
  | some e =>
    have h' : onlyAt storeKey cache storeKey = some e := by rw [onlyAt_self, h]
    rw [get_of_some h, get_of_some h']
    simp [Map.insert]

end StoreCache

namespace StoreCacheFlush

variable {Country : Type}

/-- The keys `expire` registers: entries idle for `cache_expire_seconds`. -/
def expireRegister (conf : ConfigRedis) (cache : StoreCache Country) (now : ℕ) : String → Bool :=
  cache.expireRegister (fun _ => conf.cacheExpireSeconds) now

/-- `StoreCacheFlush::expire`, its scan and its removal taken together. -/
def expire (conf : ConfigRedis) (cache : StoreCache Country) (now : ℕ) : StoreCache Country :=
  cache.eraseWhere (expireRegister conf cache now)

/-- The keys `refresh` registers, with the access time each had. -/
def refreshRegister (conf : ConfigRedis) (cache : StoreCache Country) (now : ℕ) :
    String → Option ℕ :=
  cache.refreshRegister (fun _ => conf.cacheRefreshSeconds) now

end StoreCacheFlush

end Constellation.Store
