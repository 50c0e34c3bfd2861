import Constellation.Cache.Idle
import Constellation.Dns.Record

/-! # CNAME flattening

`DNS_FLATTEN` keeps, for a CNAME target and a record type, the values the
resolver returned, with their TTL. `pass` serves them, bumping the access time,
or queues the target in `DNS_BOOTSTRAP` and fails. `flatten` stores what the
resolver answered; on a resolver error it keeps an entry that exists. The
maintain thread expires entries idle for ten times their TTL, computed in `u32`,
and refreshes entries older than their TTL, restoring their access time.
-/

namespace Constellation.Dns

open Cache

/-- What a registry entry holds besides its times. -/
structure FlattenValues where
  values : RecordValues
  ttl : UInt32
  deriving DecidableEq

abbrev DNSFlattenRegistryKey := RecordValue × RecordType

/-- `DNS_FLATTEN.registry`. -/
abbrev DNSFlattenRegistry := Cache.Map DNSFlattenRegistryKey FlattenValues

/-- `DNS_BOOTSTRAP`: the keys waiting for a first resolution, with their TTL. -/
abbrev DNSBootstrap := DNSFlattenRegistryKey → Option UInt32

def MAINTAIN_EXPIRE_TTL_RATIO : UInt32 := 10

namespace DNSFlatten

/-- `DNSFlatten::queue`: stack the key for the bootstrap thread, and fail. -/
def queue (bootstrap : DNSBootstrap) (registryKey : DNSFlattenRegistryKey) (ttl : UInt32) :
    Except Unit RecordValues × DNSBootstrap :=
  (.error (), Function.update bootstrap registryKey (some ttl))

/-- `DNSFlatten::pass`: the registered values, bumping their access time, or a queued
resolution. -/
def pass (registry : DNSFlattenRegistry) (bootstrap : DNSBootstrap) (recordType : RecordType)
    (recordValue : RecordValue) (recordTtl : UInt32) (now : ℕ) :
    Except Unit RecordValues × DNSFlattenRegistry × DNSBootstrap :=
  match registry.hit (recordValue, recordType) now with
  | (some cached, registry) => (.ok cached.values, registry, bootstrap)
  | (none, registry) =>
    let (result, bootstrap) := queue bootstrap (recordValue, recordType) recordTtl
    (result, registry, bootstrap)

/-- `DNSFlatten::flatten`, given what the resolver answered (`none` for an error). -/
def flatten (registry : DNSFlattenRegistry) (registryKey : DNSFlattenRegistryKey) (ttl : UInt32)
    (accessedAt : Option ℕ) (results : Option RecordValues) (now : ℕ) : DNSFlattenRegistry :=
  if results.isNone ∧ (registry registryKey).isSome then registry
  else registry.insert registryKey (Entry.new ⟨results.getD [], ttl⟩ now accessedAt)

end DNSFlatten

/-- What the resolver answers a lookup: the records found, as text; that there is none
(`NoRecordsFound`, for NXDOMAIN or no record of the type); or another error, such as a
timeout. -/
inductive ResolveOutcome
  | records (values : RecordValues)
  | noRecordsFound
  | failed

namespace DNSFlatten

/-- The result `flatten` computes from the lookup of a key: the types it does not resolve
flatten to nothing, and every resolver error becomes one `Err`. -/
def results (recordType : RecordType) (outcome : ResolveOutcome) : Option RecordValues :=
  match recordType with
  | .PTR | .CNAME => some []
  | _ =>
    match outcome with
    | .records values => some values
    | .noRecordsFound => none
    | .failed => none

/-- One lookup processed by `flatten`, by the bootstrap tick (no access time) or by the
maintain refresh (the access time it scanned). -/
structure FlattenEvent where
  ttl : UInt32
  accessedAt : Option ℕ
  outcome : ResolveOutcome
  now : ℕ

/-- `flatten` run on a key for each lookup in turn. -/
def flattenAll (registry : DNSFlattenRegistry) (registryKey : DNSFlattenRegistryKey) :
    List FlattenEvent → DNSFlattenRegistry
  | [] => registry
  | event :: events =>
    flattenAll (flatten registry registryKey event.ttl event.accessedAt
      (results registryKey.2 event.outcome) event.now) registryKey events

variable {registry : DNSFlattenRegistry} {registryKey : DNSFlattenRegistryKey} {ttl : UInt32}
  {accessedAt : Option ℕ} {now : ℕ}

theorem flatten_of_ne {other : DNSFlattenRegistryKey} (h : other ≠ registryKey)
    (results : Option RecordValues) :
    flatten registry registryKey ttl accessedAt results now other = registry other := by
  unfold flatten
  split_ifs
  · rfl
  · exact Map.insert_of_ne _ h _

/-- After an answer with records, the key holds them. -/
theorem flatten_some (values : RecordValues) :
    flatten registry registryKey ttl accessedAt (some values) now registryKey =
      some (Entry.new ⟨values, ttl⟩ now accessedAt) := by
  simp [flatten]

/-- After an error, the key holds what it held, or an empty entry if it held nothing. -/
theorem flatten_none :
    flatten registry registryKey ttl accessedAt none now registryKey =
      (registry registryKey).elim (some (Entry.new ⟨[], ttl⟩ now accessedAt)) some := by
  cases h : registry registryKey with
  | none => simp [flatten, h]
  | some entry => simp [flatten, h]

/-- The values of the most recent answer with records, if there is one. -/
def lastRecords (recordType : RecordType) : List FlattenEvent → Option RecordValues
  | [] => none
  | event :: events =>
    (lastRecords recordType events).or (results recordType event.outcome)

/-- A key that the registry holds keeps, whatever the resolver answers, the values of the
most recent answer with records, and those it held before when there is none. -/
theorem values_flattenAll {entry : Entry FlattenValues} (he : registry registryKey = some entry) :
    ∀ events : List FlattenEvent, ∃ entry' : Entry FlattenValues,
      flattenAll registry registryKey events registryKey = some entry' ∧
        entry'.value.values = (lastRecords registryKey.2 events).getD entry.value.values := by
  intro events
  induction events generalizing registry entry with
  | nil => exact ⟨entry, he, rfl⟩
  | cons event events ih =>
    -- the entry after this lookup carries on to the rest
    cases hr : results registryKey.2 event.outcome with
    | none =>
      have he' : flatten registry registryKey event.ttl event.accessedAt none event.now
          registryKey = some entry := by
        rw [flatten_none, he]
        rfl
      obtain ⟨entry', h, hv⟩ := ih he'
      refine ⟨entry', by simpa [flattenAll, hr] using h, ?_⟩
      simp [hv, lastRecords, hr]
    | some values =>
      have he' : flatten registry registryKey event.ttl event.accessedAt (some values) event.now
          registryKey = some (Entry.new ⟨values, event.ttl⟩ event.now event.accessedAt) :=
        flatten_some values
      obtain ⟨entry', h, hv⟩ := ih he'
      refine ⟨entry', by simpa [flattenAll, hr] using h, ?_⟩
      rw [hv, lastRecords, hr]
      cases lastRecords registryKey.2 events <;> rfl

/-- A negative answer for a key the registry holds, of a type the resolver is asked for,
changes nothing: the values of the previous answer stay. -/
theorem flatten_keeps_values_on_no_records {recordValue : RecordValue} {recordType : RecordType}
    (hType : recordType ≠ .PTR ∧ recordType ≠ .CNAME)
    {entry : Entry FlattenValues} (he : registry (recordValue, recordType) = some entry) :
    flatten registry (recordValue, recordType) ttl accessedAt
      (results recordType .noRecordsFound) now = registry := by
  have hr : results recordType .noRecordsFound = none := by
    cases recordType <;> simp_all [results]
  simp [flatten, hr, he]

/-- A registry holding the address of one CNAME target, resolved at time zero. -/
def resolvedRegistry : DNSFlattenRegistry :=
  fun registryKey =>
    if registryKey = (⟨"target.example.net."⟩, .A) then
      some (Entry.new ⟨[⟨"192.0.2.1"⟩], 300⟩ 0 none)
    else none

theorem flatten_keeps_values_on_no_records_resolved :
    (RecordType.A ≠ .PTR ∧ RecordType.A ≠ .CNAME) ∧
      resolvedRegistry (⟨"target.example.net."⟩, .A) =
        some (Entry.new ⟨[⟨"192.0.2.1"⟩], 300⟩ 0 none) ∧
      flatten resolvedRegistry (⟨"target.example.net."⟩, .A) 300 (some 0)
        (results .A .noRecordsFound) (300 * SECOND) = resolvedRegistry :=
  ⟨by decide, rfl, flatten_keeps_values_on_no_records (by decide) rfl⟩

end DNSFlatten

namespace DNSFlattenMaintain

/-- The idle limit `expire` applies: `ttl * MAINTAIN_EXPIRE_TTL_RATIO`, in `u32`. -/
def expireLimit (entry : FlattenValues) : ℕ := (entry.ttl * MAINTAIN_EXPIRE_TTL_RATIO).toNat

/-- The refresh interval: the TTL. -/
def refreshInterval (entry : FlattenValues) : ℕ := entry.ttl.toNat

/-- `DNSFlattenMaintain::expire`, its scan and its removal taken together. -/
def expire (registry : DNSFlattenRegistry) (now : ℕ) : DNSFlattenRegistry :=
  registry.eraseWhere (registry.expireRegister expireLimit now)

/-- The keys `refresh` registers, with the access time each had. -/
def refreshRegister (registry : DNSFlattenRegistry) (now : ℕ) : DNSFlattenRegistryKey → Option ℕ :=
  registry.refreshRegister refreshInterval now

/-- From a TTL of 429496730 up, ten times the TTL does not fit in a u32, and the limit wraps
below it. -/
theorem expireLimit_lt {entry : FlattenValues} (h : 2 ^ 32 ≤ 10 * entry.ttl.toNat) :
    expireLimit entry < 10 * entry.ttl.toNat := by
  calc expireLimit entry = entry.ttl.toNat * 10 % 2 ^ 32 := by
        simp [expireLimit, MAINTAIN_EXPIRE_TTL_RATIO, UInt32.toNat_mul]
    _ < 2 ^ 32 := Nat.mod_lt _ (Nat.two_pow_pos 32)
    _ ≤ 10 * entry.ttl.toNat := h

open Runtime in
/-- An entry whose TTL is 429496730 or more is expired as soon as the wrapped limit has elapsed
since its last hit, before ten times its TTL. -/
theorem flatten_expire_before_ten_ttl {s : Runtime DNSFlattenRegistryKey FlattenValues}
    {k : DNSFlattenRegistryKey} {e : Entry FlattenValues} (he : s.map k = some e)
    (h : 2 ^ 32 ≤ 10 * e.value.ttl.toNat) (interval : FlattenValues → ℕ) :
    RemovesEarly (fun entry => 10 * entry.ttl.toNat)
      (s.run expireLimit interval [.hit k, .tick (expireLimit e.value * SECOND), .expireScan]) k := by
  have hsec : elapsedSecs (s.now + expireLimit e.value * SECOND) s.now = expireLimit e.value := by
    simp [elapsedSecs, SECOND]
  refine ⟨?_, { e with accessedAt := s.now }, s.now, ?_, ?_, ?_⟩
  · simp [run, step, he, Map.expireRegister, Map.hit_of_some he, hsec]
  · simp [run, step, he, Map.hit_of_some he]
  · simp [run, step, he]
  · simpa [run, step, he, hsec] using expireLimit_lt h

/-- A registry holding one flattened CNAME target, with a TTL of 429496730, accessed at time
zero. -/
def wrappingRegistry : Runtime DNSFlattenRegistryKey FlattenValues where
  map := fun k => if k = (⟨"example.net."⟩, .A) then some (Entry.new ⟨[], 429496730⟩ 0 none) else none
  now := 0
  expiring := fun _ => false
  refreshing := fun _ => none
  lastHit := fun _ => none

theorem flatten_expire_before_ten_ttl_wrapping :
    wrappingRegistry.map (⟨"example.net."⟩, .A) = some (Entry.new ⟨[], 429496730⟩ 0 none) ∧
      2 ^ 32 ≤ 10 * (429496730 : UInt32).toNat ∧
      Runtime.RemovesEarly (fun entry => 10 * entry.ttl.toNat)
        (wrappingRegistry.run expireLimit refreshInterval
          [.hit (⟨"example.net."⟩, .A), .tick (4 * SECOND), .expireScan]) (⟨"example.net."⟩, .A) :=
  ⟨rfl, by decide, flatten_expire_before_ten_ttl (s := wrappingRegistry)
    (e := Entry.new ⟨[], 429496730⟩ 0 none) rfl (by decide) refreshInterval⟩

end DNSFlattenMaintain

end Constellation.Dns
