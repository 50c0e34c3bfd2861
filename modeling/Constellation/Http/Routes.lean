import Constellation.Store.Coherence
import Constellation.Dns.Address

/-! # The HTTP API

The routes of `http/routes.rs`, once the request is authenticated and its path parsed
into a zone that exists, a record name and a record type, or a metrics timespan. `GET`
and `HEAD` read the record from the store as the API reads it, `Internal`, past the rate
limit; `PUT` (`put_zone_record`, in `Dns.Address`) and `DELETE` write it.

On a store with one Redis server, the API reads back its own writes: once
`put_zone_record` has answered `Ok`, `get_zone_record` of the same path answers
`NotFound` or the record written, as the store normalises it, until the key is written
again; once `delete_zone_record` has answered `Ok`, it answers `NotFound`.
-/

namespace Constellation.Http

open Dns Store Cache TaskM

variable {Country Addr : Type} [DecidableEq Country] (env : Env Country Addr)

/-- `RecordGetResponse`: the record as `get_zone_record` sends it. -/
structure RecordGetResponse (Country : Type) where
  type : RecordType
  name : RecordName
  ttl : Option UInt32
  flatten : Option Bool
  blackhole : Option (RecordBlackhole Country)
  regions : Option RecordRegions
  rescue : Option RecordValues
  values : RecordValues
  deriving DecidableEq

/-- The response `get_zone_record` builds from the record read. -/
def RecordGetResponse.ofRecord {Country : Type} (record : StoreRecord Country) :
    RecordGetResponse Country :=
  ⟨record.kind, record.name, record.ttl, record.flatten, record.blackhole, record.regions,
    record.rescue, record.values⟩

/-- The responses of the routes that read: `Ok` with a body, or `NotFound`. -/
inductive ReadResponse (Body : Type)
  | Ok (body : Body)
  | NotFound
  deriving DecidableEq

/-- `head_zone_record` and `get_zone_record`: the record of the path read from the store, and
the response `respond` builds from it; `NotFound` on any error of the store. -/
def readZoneRecord {Body : Type} (respond : StoreRecord Country → Body) (zoneName : ZoneNameExists)
    (recordName : RecordName) (recordType : RecordType) : TaskM Country (ReadResponse Body) := do
  match ← Store.get env zoneName.intoInner recordName recordType .Internal with
  | .ok record => pure (.Ok (respond record))
  | .error _ => pure .NotFound

/-- `head_zone_record`: `Ok` with no body. -/
def headZoneRecord (zoneName : ZoneNameExists) (recordName : RecordName) (recordType : RecordType) :
    TaskM Country (ReadResponse Unit) :=
  readZoneRecord env (fun _ => ()) zoneName recordName recordType

/-- `get_zone_record`: `Ok` with the record as JSON. -/
def getZoneRecord (zoneName : ZoneNameExists) (recordName : RecordName) (recordType : RecordType) :
    TaskM Country (ReadResponse (RecordGetResponse Country)) :=
  readZoneRecord env RecordGetResponse.ofRecord zoneName recordName recordType

/-- `delete_zone_record`. -/
def deleteZoneRecord (zoneName : ZoneNameExists) (recordName : RecordName)
    (recordType : RecordType) : TaskM Country HttpResponse := do
  match ← Store.remove env zoneName.intoInner recordName recordType with
  | .ok () => pure .Ok
  | .error _ => pure .ServiceUnavailable

/-- The metrics routes: the counts of one kind of a zone over a timespan, or `NotFound` for a
zone the configuration does not have as written; `countryToStr` is `CountryCode::to_str`. -/
def getMetrics (countryToStr : Country → String) (metricsType : MetricsType)
    (zoneName : ZoneNameExists) (metricsTimespan : MetricsTimespan) :
    TaskM Country (ReadResponse (MetricsCounters String)) := do
  let w ← getThe (World Country)
  match MetricsStore.aggregate env.conf.dns countryToStr w.metrics zoneName.intoInner metricsType
      metricsTimespan with
  | some aggregated => pure (.Ok aggregated)
  | none => pure .NotFound

/-- `get_metrics_query_types`. -/
def getMetricsQueryTypes (countryToStr : Country → String) :
    ZoneNameExists → MetricsTimespan → TaskM Country (ReadResponse (MetricsCounters String)) :=
  getMetrics env countryToStr .QueryType

/-- `get_metrics_query_origins`. -/
def getMetricsQueryOrigins (countryToStr : Country → String) :
    ZoneNameExists → MetricsTimespan → TaskM Country (ReadResponse (MetricsCounters String)) :=
  getMetrics env countryToStr .QueryOrigin

/-- `get_metrics_answer_codes`. -/
def getMetricsAnswerCodes (countryToStr : Country → String) :
    ZoneNameExists → MetricsTimespan → TaskM Country (ReadResponse (MetricsCounters String)) :=
  getMetrics env countryToStr .AnswerCode

/-! ## Reading a record back -/

variable {env}

omit [DecidableEq Country] in
/-- What a read route answers `Ok` with is built from the record the server holds. -/
theorem ensures_readZoneRecord {Body : Type} (keyspaces : List Keyspace)
    (respond : StoreRecord Country → Body) (zoneName : ZoneNameExists) (recordName : RecordName)
    (recordType : RecordType) :
    Ensures (Serves env keyspaces)
      (fun response => ∀ body, response = .Ok body → ∃ record, body = respond record ∧
        ∀ keyspace ∈ keyspaces, readsAs env (keyspace
          (StoreKey.toKey env.fingerprint32 zoneName.intoInner recordName recordType)) =
            some (some record))
      (readZoneRecord env respond zoneName recordName recordType) := by
  unfold readZoneRecord
  refine (ensures_get_serves keyspaces _ _ _ _).bind fun res hres => ?_
  cases res with
  | ok record => exact Ensures.pure fun body hbody => by cases hbody; exact ⟨record, rfl, hres record rfl⟩
  | error _ => exact Ensures.pure fun body hbody => by cases hbody

/-- When `put_zone_record` answers `Ok` on a store with one server, the server's hash at the
key of the path reads as the record of the body, normalised. -/
theorem returns_putZoneRecord (hs : env.serde.Lawful) (zoneName : ZoneNameExists)
    (recordName : RecordName) (recordType : RecordType) (data : RecordData Country) :
    Returns (fun s response t => s.pools.length ≤ 1 → response = .Ok → ∀ pool ∈ t.pools,
        readsAs env (pool.keyspace
          (StoreKey.toKey env.fingerprint32 zoneName.intoInner recordName recordType)) =
            some (some (StoreRecord.normalize ⟨recordType, recordName, data.ttl, data.flatten,
              data.blackhole, data.regions, data.rescue, data.values⟩)))
      (putZoneRecord env zoneName recordName recordType data) := by
  unfold putZoneRecord
  refine Returns.bind (returns_set hs zoneName.intoInner _)
    (fun res => (?_ : Returns (fun t response u => u = t ∧ (response = .Ok → res = .ok ())) _))
    fun s res t response u hset ⟨hu, hres⟩ hlen hok => hu ▸ hset hlen (hres hok)
  rcases res with _ | ⟨⟩
  · exact Returns.pure fun t => ⟨rfl, fun h => by cases h⟩
  · exact Returns.pure fun t => ⟨rfl, fun _ => rfl⟩

omit [DecidableEq Country] in
/-- When `delete_zone_record` answers `Ok` on a store with one server, the server holds no hash
at the key of the path. -/
theorem returns_deleteZoneRecord (zoneName : ZoneNameExists) (recordName : RecordName)
    (recordType : RecordType) :
    Returns (fun s response t => s.pools.length ≤ 1 → response = .Ok → ∀ pool ∈ t.pools,
        readsAs env (pool.keyspace
          (StoreKey.toKey env.fingerprint32 zoneName.intoInner recordName recordType)) = some none)
      (deleteZoneRecord env zoneName recordName recordType) := by
  unfold deleteZoneRecord
  refine Returns.bind (returns_remove zoneName.intoInner recordName recordType)
    (fun res => (?_ : Returns (fun t response u => u = t ∧ (response = .Ok → res = .ok ())) _))
    fun s res t response u hremove ⟨hu, hres⟩ hlen hok => hu ▸ hremove hlen (hres hok)
  rcases res with _ | ⟨⟩
  · exact Returns.pure fun t => ⟨rfl, fun h => by cases h⟩
  · exact Returns.pure fun t => ⟨rfl, fun _ => rfl⟩

theorem coherent_putZoneRecord (zoneName : ZoneNameExists) (recordName : RecordName)
    (recordType : RecordType) (data : RecordData Country) :
    Keeps (Coherent env) (putZoneRecord env zoneName recordName recordType data) := by
  unfold putZoneRecord
  refine (coherent_set _ _).bind fun res _ => ?_
  rcases res with _ | ⟨⟩ <;> exact Ensures.pure trivial

omit [DecidableEq Country] in
theorem coherent_deleteZoneRecord (zoneName : ZoneNameExists) (recordName : RecordName)
    (recordType : RecordType) :
    Keeps (Coherent env) (deleteZoneRecord env zoneName recordName recordType) := by
  unfold deleteZoneRecord
  refine (coherent_remove _ _ _).bind fun res _ => ?_
  rcases res with _ | ⟨⟩ <;> exact Ensures.pure trivial

/-- A body for `put_zone_record` with a zero TTL, which the store reads back as none. -/
def zeroTtlData : RecordData Unit := ⟨some 0, none, none, none, none, [⟨"192.0.2.1"⟩]⟩

end Constellation.Http
