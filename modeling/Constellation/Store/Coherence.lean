import Constellation.Store.Flush
import Constellation.Store.Isolation

/-! # The cache of a store with one server

With one Redis server, `STORE_CACHE` holds a part of the server. In every run of the
store's calls and of the flusher, one after another, each cache entry holds what the
server's hash at its key reads as (`Coherent`), so `Store::get` returns a record only
when the server holds it. A write that succeeds is then read back by every later read
of its key, until the key is written again.

Tasks that interleave break this: a read between the drop of the cached entry by a
write and the write's HSET caches the record replaced (`Store.Race`). With rescue
pools, a read served by one server caches what another may not hold.
-/

namespace Constellation.Store

open Dns Cache TaskM

variable {Country Addr : Type} (env : Env Country Addr)

/-- What the cache holds after a read of a server's hash at a key: no record for no hash, the
record a hash decodes to, and no entry for a hash that does not decode. -/
def readsAs (hash : Option RedisHash) : Option (Option (StoreRecord Country)) :=
  match StoreGetType.fromRedis hash with
  | none => some none
  | some values => (StoreRecord.decode env.serde values).map some

/-- The store has one server, and each cache entry holds what the server's hash at its key
reads as. -/
structure Coherent (w : World Country) : Prop where
  single : w.pools.length = 1
  cache : ∀ pool ∈ w.pools, ∀ storeKey entry, w.cache storeKey = some entry →
    readsAs env (pool.keyspace storeKey) = some entry.value

/-- The store is coherent, and its servers hold the keyspaces `keyspaces`. -/
def Serves (keyspaces : List Keyspace) (w : World Country) : Prop :=
  Coherent env w ∧ w.pools.map StorePool.keyspace = keyspaces

/-- The store is coherent, and the cache holds no entry for `storeKey`. -/
def Dropped (storeKey : String) (w : World Country) : Prop :=
  Coherent env w ∧ w.cache storeKey = none

/-- The store is coherent, and every server's hash at `storeKey` reads as `value`. -/
def Holds (storeKey : String) (value : Option (StoreRecord Country)) (w : World Country) : Prop :=
  Coherent env w ∧ ∀ pool ∈ w.pools, readsAs env (pool.keyspace storeKey) = some value

variable {env}

/-! ## Hashes as the cache reads them -/

variable [DecidableEq Country] in
/-- The hash `Store::set` writes reads as the record written, normalised. -/
theorem readsAs_hsetMultiple (hs : env.serde.Lawful) {record : StoreRecord Country}
    {fields : List (String × String)} (he : record.encode env.serde = some fields)
    (hash : Option RedisHash) :
    readsAs env (some (hsetMultiple hash fields)) = some (some record.normalize) := by
  obtain ⟨values, hv, hd⟩ := Option.bind_eq_some_iff.mp (decode_fromRedis_hsetMultiple hs he hash)
  simp only [readsAs, hv, hd, Option.map_some]

/-- A read of the store served by the one server of `keyspaces` reads the key there. -/
theorem Serves.read {keyspaces : List Keyspace} {w : World Country} (hw : Serves env keyspaces w)
    {i : ℕ} (hi : i < keyspaces.length) (storeKey : String) :
    ∀ keyspace ∈ keyspaces, keyspace storeKey = (w.pools[i]?).bind fun pool => pool.keyspace storeKey := by
  obtain ⟨hc, rfl⟩ := hw
  rw [List.length_map] at hi
  obtain ⟨pool, hpool⟩ := List.length_eq_one_iff.mp hc.single
  obtain rfl : i = 0 := by
    rw [hc.single] at hi
    omega
  intro keyspace hk
  rw [hpool, List.map_cons, List.map_nil, List.mem_singleton] at hk
  rw [hk, hpool]
  rfl

/-- What the servers of `keyspaces` hold, every server of a world they serve holds. -/
theorem Serves.forall_keyspace {keyspaces : List Keyspace} {w : World Country}
    (hw : Serves env keyspaces w) {p : Keyspace → Prop} (h : ∀ keyspace ∈ keyspaces, p keyspace) :
    ∀ pool ∈ w.pools, p pool.keyspace := fun _ hpool =>
  h _ (hw.2 ▸ List.mem_map_of_mem hpool)

/-! ## Invariants of the stored data -/

theorem onStore_coherent : OnStore (Coherent env) := by
  intro w w' hc hp hw
  have hlen : w'.pools.length = w.pools.length := by
    simpa using congrArg List.length hp
  refine ⟨hlen ▸ hw.single, fun pool hpool storeKey entry he => ?_⟩
  have hmem : pool.keyspace ∈ w.pools.map StorePool.keyspace := hp ▸ List.mem_map_of_mem hpool
  obtain ⟨p, hp', hks⟩ := List.mem_map.mp hmem
  rw [← hks]
  exact hw.cache p hp' storeKey entry (hc ▸ he)

theorem onStore_serves (keyspaces : List Keyspace) : OnStore (Serves env keyspaces) :=
  fun w w' hc hp hw => ⟨onStore_coherent w w' hc hp hw.1, hp.trans hw.2⟩

theorem onStore_dropped (storeKey : String) : OnStore (Dropped env storeKey) :=
  fun w w' hc hp hw => ⟨onStore_coherent w w' hc hp hw.1, hc ▸ hw.2⟩

/-- A cache with entries dropped from a coherent one is coherent. -/
theorem Coherent.of_cache_sub {w : World Country} (hw : Coherent env w)
    {cache : StoreCache Country}
    (hsub : ∀ storeKey entry, cache storeKey = some entry → w.cache storeKey = some entry) :
    Coherent env { w with cache } :=
  ⟨hw.single, fun pool hpool storeKey entry he =>
    hw.cache pool hpool storeKey entry (hsub storeKey entry he)⟩

/-- An entry that holds what the servers' hashes at its key read as keeps a cache coherent. -/
theorem Coherent.insert {w : World Country} (hw : Coherent env w) {storeKey : String}
    {entry : Entry (Option (StoreRecord Country))}
    (hv : ∀ pool ∈ w.pools, readsAs env (pool.keyspace storeKey) = some entry.value) :
    Coherent env { w with cache := w.cache.insert storeKey entry } := by
  refine ⟨hw.single, fun pool hpool k e he => ?_⟩
  by_cases hk : k = storeKey
  · subst hk
    simp only [Map.insert_self, Option.some.injEq] at he
    subst he
    exact hv pool hpool
  · simp only [Map.insert_of_ne _ hk] at he
    exact hw.cache pool hpool k e he

/-- A write at a key the cache holds no entry for keeps the cache coherent. -/
theorem Coherent.writeKeyspace {w : World Country} (hw : Coherent env w) {storeKey : String}
    (hk : w.cache storeKey = none) (i : ℕ) (hash : Option RedisHash) :
    Coherent env { w with
      pools := w.pools.modify i fun pool => { pool with
        keyspace := Function.update pool.keyspace storeKey hash } } := by
  refine ⟨by simpa using hw.single, fun pool hpool k e he => ?_⟩
  have hne : k ≠ storeKey := by
    rintro rfl
    rw [hk] at he
    cases he
  rcases mem_of_mem_modify hpool with hpool | ⟨p, hp, rfl⟩
  · exact hw.cache pool hpool k e he
  · simp only [Function.update_of_ne hne]
    exact hw.cache p hp k e he

/-! ## The failover loop on the servers there are -/

section Loop

variable (env)

theorem getCacheStoreClientFrom_congr {α : Type} (error : StoreError)
    (body body' : ℕ → TaskM Country (Except StoreError α)) :
    ∀ is : List ℕ, (∀ i ∈ is, body i = body' i) →
      getCacheStoreClientFrom env error body is = getCacheStoreClientFrom env error body' is
  | [], _ => rfl
  | i :: rest, h => by
    have hrest := getCacheStoreClientFrom_congr error body body' rest
      fun j hj => h j (List.mem_cons_of_mem i hj)
    simp only [getCacheStoreClientFrom, h i List.mem_cons_self, hrest]

variable {env}

/-- The steps that write no data keep the number of pools. -/
theorem StepsKeep.withLength {P : World Country → Prop} (hP : StepsKeep P) (n : ℕ) :
    StepsKeep fun w : World Country => P w ∧ w.pools.length = n where
  io w now io hw := ⟨hP.io w now io hw.1, hw.2⟩
  delinquency w i d hw := ⟨hP.delinquency w i d hw.1, by simpa using hw.2⟩

theorem stepsKeep_length (p : ℕ → Prop) : StepsKeep fun w : World Country => p w.pools.length where
  io _ _ _ h := h
  delinquency _ _ _ h := by simpa using h

/-- The failover loop runs its body on the pools there are: when an invariant fixes their
number, the body need keep it at those indices only. -/
theorem ensures_getCacheStoreClient_of_lt {I : World Country → Prop} (hI : StepsKeep I) (n : ℕ)
    (hn : ∀ w, I w → w.pools.length = n) {α : Type} {Q : Except StoreError α → Prop}
    {error : StoreError} (he : Q (.error error)) {body : ℕ → TaskM Country (Except StoreError α)}
    (hbody : ∀ i < n, Ensures I Q (body i)) : Ensures I Q (getCacheStoreClient env error body) := by
  unfold getCacheStoreClient
  refine Ensures.get_bind fun w hw => ?_
  rw [hn w hw, getCacheStoreClientFrom_congr env error body
    (fun i => if i < n then body i else pure (.error error)) _
    fun i hi => (if_pos (List.mem_range.mp hi)).symm]
  refine ensures_getCacheStoreClientFrom hI he (fun i => ?_) _
  by_cases hi : i < n
  · simp only [if_pos hi]
    exact hbody i hi
  · simp only [if_neg hi]
    exact Ensures.pure he

theorem returns_getCacheStoreClientFrom {P : World Country → Prop} (hP : StepsKeep P) {α : Type}
    {error : StoreError} {body : ℕ → TaskM Country (Except StoreError α)}
    {Q : Except StoreError α → World Country → Prop} (he : ∀ t, P t → Q (.error error) t)
    (hbody : ∀ i, Returns (fun s res t => P s ∧ i < s.pools.length → Q res t) (body i)) (n : ℕ) :
    ∀ is : List ℕ, (∀ i ∈ is, i < n) →
      Returns (fun s res t => P s ∧ s.pools.length = n → Q res t)
        (getCacheStoreClientFrom env error body is)
  | [], _ => Returns.pure fun s hs => he s hs.1
  | i :: rest, hlt => by
    have hL := hP.withLength n
    have hrest := returns_getCacheStoreClientFrom hP he hbody n rest
      fun j hj => hlt j (List.mem_cons_of_mem i hj)
    have hi : i < n := hlt i List.mem_cons_self
    unfold getCacheStoreClientFrom
    refine Returns.keeps_bind (keeps_readClock hL) fun now => Returns.get_bind fun w hw => ?_
    refine (?_ : Returns (fun s res t => P s ∧ s.pools.length = n → Q res t) _).mono
      fun s res t h hs => h (hs ▸ hw)
    dsimp only
    refine Returns.ite (fun _ => Returns.keeps_bind (keeps_acquire hL) fun ok => ?_) fun _ => hrest
    refine Returns.ite (fun _ => ?_) fun _ => ?_
    · exact (hbody i).mono fun s res t h hs => h ⟨hs.1, hs.2 ▸ hi⟩
    · exact Returns.keeps_bind (keeps_readClock hL) fun failedAt =>
        Returns.keeps_bind (Keeps.modify fun w hw => hL.delinquency w i _ hw) fun _ => hrest

/-- What the failover loop returns from a state of `P`: its own error, or what the body returns
when run from a state of `P` on a pool there is. -/
theorem returns_getCacheStoreClient {P : World Country → Prop} (hP : StepsKeep P) {α : Type}
    {error : StoreError} {body : ℕ → TaskM Country (Except StoreError α)}
    {Q : Except StoreError α → World Country → Prop} (he : ∀ t, P t → Q (.error error) t)
    (hbody : ∀ i, Returns (fun s res t => P s ∧ i < s.pools.length → Q res t) (body i)) :
    Returns (fun s res t => P s → Q res t) (getCacheStoreClient env error body) := by
  unfold getCacheStoreClient
  refine Returns.get_bind fun w hw => ?_
  exact (returns_getCacheStoreClientFrom hP he hbody w.pools.length _
    fun i hi => List.mem_range.mp hi).mono fun s res t h hs => h ⟨hs ▸ hw, hs ▸ rfl⟩

end Loop

/-! ## Reads keep the cache coherent with the server -/

theorem serves_cachePush {keyspaces : List Keyspace} {storeKey : String}
    {record : Option (StoreRecord Country)}
    (hv : ∀ keyspace ∈ keyspaces, readsAs env (keyspace storeKey) = some record)
    (accessedAt : Option ℕ) :
    Keeps (Serves env keyspaces) (cachePush storeKey record accessedAt : TaskM Country Unit) := by
  unfold cachePush
  refine (keeps_readClock (onStore_serves keyspaces).stepsKeep).bind fun now _ =>
    Keeps.modify fun w hw => ⟨hw.1.insert (hw.forall_keyspace hv), hw.2⟩

/-- A hit in the cache returns what the servers hold. -/
theorem ensures_cacheGet_serves (keyspaces : List Keyspace) (storeKey : String) :
    Ensures (Serves env keyspaces)
      (fun cached => ∀ r, cached = .ok (some r) →
        ∀ keyspace ∈ keyspaces, readsAs env (keyspace storeKey) = some (some r))
      (cacheGet storeKey : TaskM Country _) := by
  unfold cacheGet
  refine Ensures.get_bind fun w _ => Ensures.ite (fun _ => ?_) fun _ => Ensures.pure (by simp)
  refine (keeps_readClock (onStore_serves keyspaces).stepsKeep).bind fun now _ =>
    Ensures.modifyGet fun w hw => ?_
  cases hc : w.cache storeKey with
  | none =>
    simp only [StoreCache.get_of_none hc]
    exact ⟨hw, by simp⟩
  | some entry =>
    simp only [StoreCache.get_of_some hc]
    have hv : ∀ pool ∈ w.pools, readsAs env (pool.keyspace storeKey) = some entry.value :=
      fun pool hpool => hw.1.cache pool hpool storeKey entry hc
    refine ⟨⟨hw.1.insert hv, hw.2⟩, fun r hr keyspace hk => ?_⟩
    simp only [Except.ok.injEq] at hr
    rw [← hr]
    rw [← hw.2] at hk
    obtain ⟨pool, hpool, rfl⟩ := List.mem_map.mp hk
    exact hv pool hpool

/-- `raw_get_remote` returns what the server holds, and caches it. -/
theorem ensures_rawGetRemote_serves (keyspaces : List Keyspace) (storeKey : String)
    (cacheAccessedAt : Option ℕ) :
    Ensures (Serves env keyspaces)
      (fun res => ∀ r, res = .ok r →
        ∀ keyspace ∈ keyspaces, readsAs env (keyspace storeKey) = some (some r))
      (rawGetRemote env storeKey cacheAccessedAt) := by
  have hS := (@onStore_serves Country Addr env keyspaces).stepsKeep
  unfold rawGetRemote
  refine ensures_getCacheStoreClient_of_lt hS keyspaces.length
    (fun w hw => by rw [← hw.2, List.length_map]) (by simp) fun i hi => ?_
  refine (keeps_command hS).bind fun outcome _ => ?_
  cases outcome with
  | failed _ => exact Ensures.pure (by simp)
  | done =>
    refine Ensures.get_bind fun w hw => ?_
    have hread := hw.read hi storeKey
    dsimp only
    split
    · rename_i hv
      have habsent : ∀ keyspace ∈ keyspaces, readsAs env (keyspace storeKey) = some none :=
        fun keyspace hk => by rw [hread keyspace hk, readsAs, hv]
      exact (serves_cachePush habsent _).bind fun _ _ => Ensures.pure (by simp)
    · rename_i values hv
      split
      · rename_i record hd
        have hheld : ∀ keyspace ∈ keyspaces, readsAs env (keyspace storeKey) = some (some record) :=
          fun keyspace hk => by simp only [hread keyspace hk, readsAs, hv, hd, Option.map_some]
        refine (serves_cachePush hheld _).bind fun _ _ => Ensures.pure fun r hr => ?_
        simp only [Except.ok.injEq] at hr
        exact hr ▸ hheld
      · exact Ensures.pure (by simp)

/-- `Store::get` returns what the server holds at the key of its triple. -/
theorem ensures_get_serves (keyspaces : List Keyspace) (zoneName : ZoneName)
    (recordName : RecordName) (recordType : RecordType) (origin : StoreAccessOrigin) :
    Ensures (Serves env keyspaces)
      (fun res => ∀ r, res = .ok r → ∀ keyspace ∈ keyspaces,
        readsAs env (keyspace (StoreKey.toKey env.fingerprint32 zoneName recordName recordType)) =
          some (some r))
      (get env zoneName recordName recordType origin) := by
  have hS := @onStore_serves Country Addr env keyspaces
  unfold get
  refine (ensures_cacheGet_serves keyspaces _).bind fun cached hc => ?_
  cases cached with
  | ok cachedRecords =>
    cases cachedRecords with
    | some r => exact Ensures.pure fun r' hr' => by cases hr'; exact hc r rfl
    | none => exact Ensures.pure (by simp)
  | error _ =>
    refine Ensures.ite (fun _ => ensures_rawGetRemote_serves keyspaces _ _) fun _ => ?_
    refine (keeps_readClock hS.stepsKeep).bind fun nowInstant _ => Ensures.get_bind fun w _ => ?_
    refine (keeps_modify hS (by intro; rfl) (by intro; rfl)).bind fun _ _ => ?_
    refine Ensures.ite (fun _ => Ensures.pure (by simp)) fun _ => ?_
    refine (ensures_rawGetRemote_serves keyspaces _ _).bind fun resultRemote hr => ?_
    refine (keeps_readClock hS.stepsKeep).bind fun finishedAt _ => ?_
    exact (keeps_modify hS (by intro; rfl) (by intro; rfl)).bind fun _ _ => Ensures.pure hr

/-- The flusher's refresh reads the server again for the entries it registers. -/
theorem serves_refresh (keyspaces : List Keyspace) (keys : List String) :
    Keeps (Serves env keyspaces) (StoreCacheFlush.refresh env keys) := by
  unfold StoreCacheFlush.refresh
  refine (keeps_readClock (onStore_serves keyspaces).stepsKeep).bind fun now _ =>
    Ensures.get_bind fun w _ => Keeps.forM (fun ⟨storeKey, storeAccessedAt⟩ => ?_) _
  exact (ensures_rawGetRemote_serves keyspaces storeKey _).bind fun _ _ => Ensures.pure trivial

/-- A run of the flusher: the expiry drops entries, the refresh reads the server again. -/
theorem serves_perform (keyspaces : List Keyspace) (keys : List String) :
    Keeps (Serves env keyspaces) (StoreFlush.perform env keys) := by
  unfold StoreFlush.perform
  refine (keeps_readClock (onStore_serves keyspaces).stepsKeep).bind fun now _ => ?_
  refine (Keeps.modify fun w hw => ⟨hw.1.of_cache_sub fun storeKey entry he => ?_, hw.2⟩).bind
    fun _ _ => serves_refresh keyspaces keys
  simp only [StoreCacheFlush.expire, Map.eraseWhere] at he
  split at he
  · cases he
  · exact he

/-- A program that keeps the store coherent whatever the servers hold. -/
theorem keeps_coherent_of_serves {α : Type} {x : TaskM Country α}
    (hx : ∀ keyspaces, Keeps (Serves env keyspaces) x) : Keeps (Coherent env) x :=
  fun w hw => ⟨((hx _) w ⟨hw, rfl⟩).1.1, fun _ _ _ => trivial⟩

/-! ## Writes keep the cache coherent with the server -/

theorem finalState_cachePop (storeKey : String) (w : World Country) :
    finalState ((cachePop storeKey : TaskM Country Unit).run w) =
      { w with cache := w.cache.pop storeKey } := rfl

theorem dropped_cachePop {w : World Country} (hw : Coherent env w) (storeKey : String) :
    Dropped env storeKey (finalState ((cachePop storeKey : TaskM Country Unit).run w)) := by
  rw [finalState_cachePop]
  refine ⟨hw.of_cache_sub fun k e he => ?_, Map.erase_self _ _⟩
  by_cases hk : k = storeKey
  · subst hk
    simp [StoreCache.pop] at he
  · simpa only [StoreCache.pop, Map.erase_of_ne _ hk] using he

theorem dropped_writeKeyspace (i : ℕ) (storeKey : String) (hash : Option RedisHash) :
    Keeps (Dropped env storeKey) (writeKeyspace i storeKey hash : TaskM Country Unit) := by
  unfold writeKeyspace
  exact Keeps.modify fun w hw => ⟨hw.1.writeKeyspace hw.2 i hash, hw.2⟩

variable [DecidableEq Country] in
theorem coherent_set (zoneName : ZoneName) (record : StoreRecord Country) :
    Keeps (Coherent env) (set env zoneName record) := by
  unfold set
  refine ensures_getCacheStoreClient onStore_coherent.stepsKeep trivial fun i => ?_
  split
  · exact Ensures.pure trivial
  · dsimp only
    refine Ensures.bind_strengthen (Dropped env _) (fun w hw => dropped_cachePop hw _)
      (fun w hw => hw.1) fun _ => ?_
    refine (keeps_command (onStore_dropped _).stepsKeep).bind fun outcome _ => ?_
    refine Ensures.ite (fun _ => Ensures.get_bind fun w _ => ?_) fun _ => Ensures.pure trivial
    exact (dropped_writeKeyspace i _ _).bind fun _ _ => Ensures.pure trivial

theorem coherent_remove (zoneName : ZoneName) (recordName : RecordName) (recordType : RecordType) :
    Keeps (Coherent env) (remove env zoneName recordName recordType) := by
  unfold remove
  refine ensures_getCacheStoreClient onStore_coherent.stepsKeep trivial fun i => ?_
  dsimp only
  refine Ensures.bind_strengthen (Dropped env _) (fun w hw => dropped_cachePop hw _)
    (fun w hw => hw.1) fun _ => ?_
  refine (keeps_command (onStore_dropped _).stepsKeep).bind fun outcome _ => ?_
  refine Ensures.ite (fun _ => ?_) fun _ => Ensures.pure trivial
  exact (dropped_writeKeyspace i _ _).bind fun _ _ => Ensures.pure trivial

/-! ## What a write that succeeds leaves on the server -/

/-- A write at the index of the one pool there is sets that server's hash at the key. -/
theorem returns_writeKeyspace (i : ℕ) (storeKey : String) (hash : Option RedisHash) :
    Returns (fun s _ t => s.pools.length ≤ 1 ∧ i < s.pools.length →
        ∀ pool ∈ t.pools, pool.keyspace storeKey = hash)
      (writeKeyspace i storeKey hash : TaskM Country Unit) := by
  unfold writeKeyspace
  refine Returns.modifyGet fun s ⟨hlen, hi⟩ pool hpool => ?_
  obtain ⟨p, hp⟩ := List.length_eq_one_iff.mp (by omega : s.pools.length = 1)
  obtain rfl : i = 0 := by
    rw [hp] at hi
    simpa using hi
  simp only [hp, List.modify_zero_cons, List.mem_singleton] at hpool
  subst hpool
  simp only [Function.update_self]

variable [DecidableEq Country] in
/-- When `Store::set` succeeds on a store with one server, the server's hash at the record's key
reads as the record, normalised. -/
theorem returns_set (hs : env.serde.Lawful) (zoneName : ZoneName) (record : StoreRecord Country) :
    Returns (fun s res t => s.pools.length ≤ 1 → res = .ok () → ∀ pool ∈ t.pools,
        readsAs env (pool.keyspace (StoreKey.toKey env.fingerprint32 zoneName record.name record.kind)) =
          some (some record.normalize))
      (set env zoneName record) := by
  unfold set
  refine returns_getCacheStoreClient (stepsKeep_length (· ≤ 1)) (fun _ _ h => by cases h) fun i => ?_
  split
  · exact Returns.pure fun _ _ h => by cases h
  · rename_i fields he
    dsimp only
    have hP := @stepsKeep_length Country fun n => n ≤ 1 ∧ i < n
    refine Returns.keeps_bind (Keeps.modify fun _ hw => hw) fun _ =>
      Returns.keeps_bind (keeps_command hP) fun outcome => ?_
    refine Returns.ite (fun _ => Returns.get_bind fun w hw => ?_) fun hfail => ?_
    · refine (returns_writeKeyspace i _ _).bind_pure.mono
        fun s res t ⟨_, hkey, _⟩ hsw _ pool hpool => ?_
      rw [hkey (hsw ▸ hw) pool hpool]
      exact readsAs_hsetMultiple hs he _
    · refine Returns.pure fun t _ hok => ?_
      by_cases hdone : outcome = .done
      · subst hdone
        exact absurd (fun h => by cases h) hfail
      · rw [if_neg hdone] at hok
        cases hok

/-- When `Store::remove` succeeds on a store with one server, the server holds no hash at the
key. -/
theorem returns_remove (zoneName : ZoneName) (recordName : RecordName) (recordType : RecordType) :
    Returns (fun s res t => s.pools.length ≤ 1 → res = .ok () → ∀ pool ∈ t.pools,
        readsAs env (pool.keyspace (StoreKey.toKey env.fingerprint32 zoneName recordName recordType)) =
          some none)
      (remove env zoneName recordName recordType) := by
  unfold remove
  refine returns_getCacheStoreClient (stepsKeep_length (· ≤ 1)) (fun _ _ h => by cases h) fun i => ?_
  dsimp only
  have hP := @stepsKeep_length Country fun n => n ≤ 1 ∧ i < n
  refine Returns.keeps_bind (Keeps.modify fun _ hw => hw) fun _ =>
    Returns.keeps_bind (keeps_command hP) fun outcome => ?_
  refine Returns.ite (fun _ => ?_) fun hfail => ?_
  · refine (returns_writeKeyspace i _ _).bind_pure.mono fun s res t ⟨_, hkey, _⟩ hpre _ pool hpool => ?_
    rw [hkey hpre pool hpool]
    rfl
  · refine Returns.pure fun t _ hok => ?_
    by_cases hdone : outcome = .done
    · subst hdone
      exact absurd (fun h => by cases h) hfail
    · rw [if_neg hdone] at hok
      cases hok

/-! ## What the server holds at a key, over the steps that do not write it -/

/-- A program that keeps the store coherent whatever the servers hold keeps what they hold at
any key. -/
theorem holds_of_serves {α : Type} {x : TaskM Country α} {storeKey : String}
    {value : Option (StoreRecord Country)} (hx : ∀ keyspaces, Keeps (Serves env keyspaces) x) :
    Keeps (Holds env storeKey value) x := by
  intro w hw
  have hend := ((hx _) w ⟨hw.1, rfl⟩).1
  refine ⟨⟨hend.1, hend.forall_keyspace (p := fun keyspace => readsAs env (keyspace storeKey) = some value)
    fun keyspace hk => ?_⟩, fun _ _ _ => trivial⟩
  obtain ⟨pool, hpool, rfl⟩ := List.mem_map.mp hk
  exact hw.2 pool hpool

/-- A coherent program that leaves the store at a key alone keeps what the servers hold there. -/
theorem holds_of_frame {α : Type} {x : TaskM Country α} {storeKey : String}
    {value : Option (StoreRecord Country)} (hc : Keeps (Coherent env) x)
    (hf : ∀ v, Keeps (fun w : World Country => w.storeAt storeKey = v) x) :
    Keeps (Holds env storeKey value) x := by
  intro w hw
  have hat : ((finalState (x.run w)).storeAt storeKey).2 = (w.storeAt storeKey).2 := by
    rw [((hf _) w rfl).1]
  refine ⟨⟨((hc w hw.1).1), fun pool hpool => ?_⟩, fun _ _ _ => trivial⟩
  have hmem : pool.keyspace storeKey ∈ (w.storeAt storeKey).2 :=
    hat ▸ List.mem_map_of_mem (f := fun pool : StorePool => pool.keyspace storeKey) hpool
  obtain ⟨p, hp, heq⟩ := List.mem_map.mp hmem
  rw [← heq]
  exact hw.2 p hp

/-! ## Runs -/

variable [DecidableEq Country]

/-- Every step of the store keeps it coherent. -/
theorem coherent_run (step : StoreStep Country) : Keeps (Coherent env) (step.run env) := by
  cases step with
  | call storeCall =>
    cases storeCall with
    | get zoneName recordName recordType origin =>
      exact keeps_coherent_of_serves fun keyspaces =>
        (ensures_get_serves keyspaces zoneName recordName recordType origin).bind
          fun _ _ => Ensures.pure trivial
    | set zoneName record =>
      exact (coherent_set zoneName record).bind fun _ _ => Ensures.pure trivial
    | remove zoneName recordName recordType =>
      exact (coherent_remove zoneName recordName recordType).bind fun _ _ => Ensures.pure trivial
  | flush keys => exact keeps_coherent_of_serves fun keyspaces => serves_perform keyspaces keys

/-- A step that writes no data at `storeKey` keeps what the server holds there. -/
theorem holds_run {storeKey : String} {value : Option (StoreRecord Country)}
    (step : StoreStep Country) (hk : step.writes env ≠ some storeKey) :
    Keeps (Holds env storeKey value) (step.run env) := by
  cases step with
  | call storeCall =>
    cases storeCall with
    | get zoneName recordName recordType origin =>
      exact holds_of_serves fun keyspaces =>
        (ensures_get_serves keyspaces zoneName recordName recordType origin).bind
          fun _ _ => Ensures.pure trivial
    | set zoneName record =>
      have hne : StoreKey.toKey env.fingerprint32 zoneName record.name record.kind ≠ storeKey :=
        fun h => hk (congrArg some h)
      exact holds_of_frame ((coherent_set zoneName record).bind fun _ _ => Ensures.pure trivial)
        fun v => (frame_set env hne v).bind fun _ _ => Ensures.pure trivial
    | remove zoneName recordName recordType =>
      have hne : StoreKey.toKey env.fingerprint32 zoneName recordName recordType ≠ storeKey :=
        fun h => hk (congrArg some h)
      exact holds_of_frame
        ((coherent_remove zoneName recordName recordType).bind fun _ _ => Ensures.pure trivial)
        fun v => (frame_remove env hne v).bind fun _ _ => Ensures.pure trivial
  | flush keys => exact holds_of_serves fun keyspaces => serves_perform keyspaces keys

omit [DecidableEq Country] in
/-- The process starts with an empty cache. -/
theorem coherent_init {keyspaces : List Keyspace} (hlen : keyspaces.length = 1) (now : ℕ)
    (io : Io) : Coherent env (World.init keyspaces now io : World Country) :=
  ⟨by simpa [World.init] using hlen, fun _ _ _ _ he => by simp [World.init] at he⟩

/-- With one Redis server, in every run of the store's calls and of the flusher from the start of
the process, each entry of the store cache holds what the server's hash at its key reads as;
so `Store::get` returns a record only when the server's hash at the key of its triple decodes
to that record. -/
theorem store_cache_coherent {keyspaces : List Keyspace} (hlen : keyspaces.length = 1) (now : ℕ)
    (io : Io) (steps : List (StoreStep Country)) :
    let reached := finalState ((steps.forM (StoreStep.run env)).run (World.init keyspaces now io))
    (∀ pool ∈ reached.pools, ∀ storeKey entry, reached.cache storeKey = some entry →
        readsAs env (pool.keyspace storeKey) = some entry.value) ∧
    ∀ zoneName recordName recordType origin (r : StoreRecord Country),
      outcome ((get env zoneName recordName recordType origin).run reached) = .ok (.ok r) →
        ∀ pool ∈ reached.pools, readsAs env
          (pool.keyspace (StoreKey.toKey env.fingerprint32 zoneName recordName recordType)) =
            some (some r) := by
  intro reached
  have hw : Coherent env reached :=
    (Keeps.forM coherent_run steps _ (coherent_init hlen now io)).1
  refine ⟨hw.cache, fun zoneName recordName recordType origin r hr pool hpool => ?_⟩
  have hget := (ensures_get_serves (reached.pools.map StorePool.keyspace) zoneName recordName
    recordType origin reached ⟨hw, rfl⟩).2
  exact hget _ _ (outcome_eq_ok.mp hr) r rfl pool.keyspace (List.mem_map_of_mem hpool)

theorem store_cache_coherent_onePool :
    let reached := finalState (([StoreStep.call (.set exampleZone recordA), .flush []].forM
      (StoreStep.run constantFingerprintEnv)).run (World.init [fun _ => none] 0 {}))
    ([fun _ => none] : List Keyspace).length = 1 ∧
      outcome ((get constantFingerprintEnv exampleZone nameA .A .Internal).run reached) =
        .ok (.ok recordA) ∧
      ∀ pool ∈ reached.pools, readsAs constantFingerprintEnv
        (pool.keyspace (StoreKey.toKey constantFingerprintEnv.fingerprint32 exampleZone nameA .A)) =
          some (some recordA) := by
  intro reached
  have hget : outcome ((get constantFingerprintEnv exampleZone nameA .A .Internal).run reached) =
      .ok (.ok recordA) := rfl
  exact ⟨rfl, hget, (store_cache_coherent rfl 0 {} _).2 exampleZone nameA .A .Internal recordA hget⟩

end Constellation.Store
