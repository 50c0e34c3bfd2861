import Constellation.Dns.Reply

/-! # What the handler sees of a read

The handler branches on each read of the store three ways: a record was found, the
store is down (`Disconnected`), or anything else, which it takes for the absence of
the key. Of a record found it uses only the answers `parse_from_records` gives. So
two stores whose reads agree on this much get the same lookups, state for state.

Two stores of this kind say what the handler does with a failed read and with a
blackhole. A read that fails in any way other than `Disconnected` (a Redis command
that failed, a hash that does not decode) is answered as the absence of the key. A
record that blackholes the source's country is answered as a record with no values:
the lookup then goes on to the CNAME at the name and to the wildcard, as it does
for an empty record.
-/

namespace Constellation.Store

/-- The record with no values, no rescue values, no regions, and a blackhole that holds no
country. -/
def StoreRecord.emptied {Country : Type} (record : StoreRecord Country) : StoreRecord Country :=
  { record with blackhole := some ⟨∅⟩, regions := none, rescue := none, values := [] }

end Constellation.Store

namespace Constellation.Dns

open Store Cache TaskM

variable {Country Addr : Type} [DecidableEq Country]

/-- A result of `Store::get`. -/
abbrev StoreRead (Country : Type) := Except StoreError (StoreRecord Country)

/-- The store whose reads are those of `storeGet`, each transformed by `T`. -/
def mapReads (T : StoreRead Country → StoreRead Country) (storeGet : StoreGet Country) :
    StoreGet Country :=
  fun zoneName recordName recordType origin => T <$> storeGet zoneName recordName recordType origin

section Alike

variable (env : Env Country Addr) (source : Addr)

/-- Two reads the handler does not tell apart, for a query from `source`: both fail, with
the store down for both or for neither; or both find a record, and the two records give the
same answers. -/
def ReadsAlike : StoreRead Country → StoreRead Country → Prop
  | .ok record, .ok record' => ∀ queryNameClient queryType recordType zoneName records,
      parseFromRecords env queryNameClient queryType recordType source zoneName record records =
        parseFromRecords env queryNameClient queryType recordType source zoneName record' records
  | .error error, .error error' => (error = .Disconnected ↔ error' = .Disconnected)
  | _, _ => False

variable {env source} {storeGet : StoreGet Country} {T : StoreRead Country → StoreRead Country}
  (hT : ∀ read, ReadsAlike env source (T read) read)
include hT

theorem checkNameExists_mapReads (zoneName : ZoneName) (recordName : RecordName)
    (origin : StoreAccessOrigin) :
    ∀ recordTypes, checkNameExists (mapReads T storeGet) zoneName recordName origin recordTypes =
      checkNameExists storeGet zoneName recordName origin recordTypes
  | [] => rfl
  | recordType :: rest => by
    simp only [checkNameExists, mapReads, bind_map_left,
      checkNameExists_mapReads zoneName recordName origin rest]
    congr 1
    funext read
    have h := hT read
    split <;> split <;> simp_all [ReadsAlike]

theorem appendFromStore_mapReads (queryNameClient : LowerName) (queryType : HickoryRecordType)
    (recordType : RecordType) (zoneName : ZoneName) (recordName : RecordName)
    (readType : RecordType) (records : List Record) :
    appendFromStore env (mapReads T storeGet) queryNameClient queryType recordType source zoneName
        recordName readType records =
      appendFromStore env storeGet queryNameClient queryType recordType source zoneName
        recordName readType records := by
  simp only [appendFromStore, mapReads, bind_map_left]
  congr 1
  funext read
  have h := hT read
  split <;> split <;> simp_all [ReadsAlike]

theorem recordsOfType_mapReads (queryNameClient : LowerName) (queryType : HickoryRecordType)
    (zoneName : ZoneName) (recordName : RecordName) (recordType : RecordType) :
    recordsOfType env (mapReads T storeGet) queryNameClient queryType source zoneName recordName
        recordType =
      recordsOfType env storeGet queryNameClient queryType source zoneName recordName recordType := by
  simp only [recordsOfType, appendFromStore_mapReads hT]

theorem recordsFromStoreAttempt_mapReads (origin : LowerName) (zoneName : Option ZoneName)
    (queryNameClient queryNameEffective : LowerName) (queryType : HickoryRecordType)
    (recordType : Option RecordType) :
    recordsFromStoreAttempt env (mapReads T storeGet) origin source zoneName queryNameClient
        queryNameEffective queryType recordType =
      recordsFromStoreAttempt env storeGet origin source zoneName queryNameClient
        queryNameEffective queryType recordType := by
  simp only [recordsFromStoreAttempt, recordsOfType_mapReads hT, checkNameExists_mapReads hT]

theorem recordsFromStore_mapReads (authority : DNSAuthority) (zoneName : Option ZoneName)
    (query : LowerQuery) :
    recordsFromStore env (mapReads T storeGet) authority zoneName source query =
      recordsFromStore env storeGet authority zoneName source query := by
  simp only [recordsFromStore, recordsFromStoreAttempt_mapReads hT]

end Alike

/-- A lookup is the same in two stores whose reads the handler does not tell apart. -/
theorem lookup_mapReads (env : Env Country Addr) {storeGet : StoreGet Country}
    (handler : DNSHandler) (request : Request Addr) {T : StoreRead Country → StoreRead Country}
    (hT : ∀ read, ReadsAlike env request.src (T read) read) :
    lookup env (mapReads T storeGet) handler request = lookup env storeGet handler request := by
  simp only [lookup, recordsFromStore_mapReads hT]

section FailedReads

variable (env : Env Country Addr) (source : Addr)

/-! ## Failed reads -/

/-- An error of `Store::get` as the handler sees it: the store down, or the key absent. -/
def absentOnError : StoreRead Country → StoreRead Country
  | .error .Disconnected => .error .Disconnected
  | .error _ => .error .NotFound
  | .ok record => .ok record

theorem readsAlike_absentOnError (read : StoreRead Country) :
    ReadsAlike env source (absentOnError read) read := by
  rcases read with error | record
  · cases error <;> simp [absentOnError, ReadsAlike]
  · intro queryNameClient queryType recordType zoneName records
    rfl

/-- A lookup answers a read that fails in any way but `Disconnected` as the absence of the
key: it is the same lookup as in the store whose every such read reports the key absent. -/
theorem read_errors_answered_as_absence (storeGet : StoreGet Country) (handler : DNSHandler)
    (request : Request Addr) :
    lookup env (mapReads absentOnError storeGet) handler request =
      lookup env storeGet handler request :=
  lookup_mapReads env handler request (readsAlike_absentOnError env request.src)

end FailedReads

/-- The query `a.example.com. A`, from the one source. -/
def aRequest : Request Unit :=
  { id := 9, messageType := .Query, opCode := .Query, recursionDesired := false,
    query := ⟨match Name.parse "a.example.com.".toList with
      | some name => LowerName.new name
      | none => rootLowerName, .A⟩,
    src := () }

/-- The record A of `a.@`, with one address. -/
def addressRecord : StoreRecord Unit :=
  ⟨.A, exampleRecordName, none, none, none, none, none, [⟨"192.0.2.1"⟩]⟩

/-- One Redis server, to which `Store::set` wrote the record. -/
def storedWorld : World Unit :=
  finalState ((Store.set exampleEnv servedZone addressRecord).run (World.init [fun _ => none] 0 {}))

/-- The same, where the next nine Redis commands fail with an I/O error. -/
def failingWorld : World Unit :=
  { storedWorld with io := { commands := List.replicate 9 (.failed false) } }

/-- The query finds the record, NOERROR; when the commands of its reads fail, NXDOMAIN. -/
theorem read_errors_answered_as_absence_failedCommands :
    lookup exampleEnv (mapReads absentOnError (Store.get exampleEnv)) exampleHandler aRequest =
        lookup exampleEnv (Store.get exampleEnv) exampleHandler aRequest ∧
      (finalState ((lookup exampleEnv (Store.get exampleEnv) exampleHandler aRequest).run
          storedWorld)).sent.map (·.header.responseCode) = [.NoError] ∧
      (finalState ((lookup exampleEnv (Store.get exampleEnv) exampleHandler aRequest).run
          failingWorld)).sent.map (·.header.responseCode) = [.NXDomain] :=
  ⟨read_errors_answered_as_absence exampleEnv _ exampleHandler aRequest, by decide +kernel,
    by decide +kernel⟩

section Blackholes

variable (env : Env Country Addr) (source : Addr)

/-! ## Blackholed records -/

/-- A read as it is answered for a query from `source`: a record that blackholes the
source's country is read as the emptied record. -/
def emptyBlackholed : StoreRead Country → StoreRead Country
  | .ok record =>
    .ok (if isBlackholed record (ipCountryOf env record source) then record.emptied else record)
  | .error error => .error error

omit [DecidableEq Country] in
theorem pushValues_nil (queryNameClient : LowerName) (queryType : HickoryRecordType)
    (recordType : RecordType) (zoneName : ZoneName) {record : StoreRecord Country}
    (hrescue : record.rescue = none) (records : List Record) :
    pushValues env queryNameClient queryType recordType zoneName record [] records =
      pure records := by
  simp [pushValues, hrescue, flattenValues, appendValues]

omit env source in
theorem isBlackholed_emptied (record : StoreRecord Country) (ipCountry : Option Country) :
    isBlackholed record.emptied ipCountry = false := by
  cases ipCountry <;> simp [isBlackholed, StoreRecord.emptied, RecordBlackhole.hasCountry]

/-- A blackholed record and the emptied record give the same answers: none. -/
theorem parseFromRecords_emptied {record : StoreRecord Country}
    (h : isBlackholed record (ipCountryOf env record source) = true)
    (queryNameClient : LowerName) (queryType : HickoryRecordType) (recordType : RecordType)
    (zoneName : ZoneName) (records : List Record) :
    parseFromRecords env queryNameClient queryType recordType source zoneName record.emptied
        records =
      parseFromRecords env queryNameClient queryType recordType source zoneName record records := by
  have hblackhole : record.blackhole.isSome = true := by
    cases hb : record.blackhole with
    | none => simp [isBlackholed, hb] at h
    | some _ => rfl
  have hcountry : ipCountryOf env record.emptied source = ipCountryOf env record source := by
    simp [ipCountryOf, StoreRecord.emptied, hblackhole]
  have hvalues : pickValues env record.emptied (ipCountryOf env record source) = [] := by
    simp [pickValues, StoreRecord.emptied]
  simp only [parseFromRecords, hcountry, isBlackholed_emptied, h, hvalues, Bool.true_eq_false,
    ↓reduceIte, pushValues_nil env _ _ _ _ (rfl : record.emptied.rescue = none)]

theorem readsAlike_emptyBlackholed (read : StoreRead Country) :
    ReadsAlike env source (emptyBlackholed env source read) read := by
  rcases read with error | record
  · exact Iff.rfl
  · intro queryNameClient queryType recordType zoneName records
    by_cases h : isBlackholed record (ipCountryOf env record source) = true
    · simp only [h, ↓reduceIte]
      exact parseFromRecords_emptied env source h _ _ _ _ _
    · simp only [h]
      rfl

/-- A lookup answers a record that blackholes the source's country as it answers a record with
no values: it is the same lookup as in the store where each such record is emptied. -/
theorem blackholed_record_answered_as_empty (storeGet : StoreGet Country) (handler : DNSHandler)
    (request : Request Addr) :
    lookup env (mapReads (emptyBlackholed env request.src) storeGet) handler request =
      lookup env storeGet handler request :=
  lookup_mapReads env handler request (readsAlike_emptyBlackholed env request.src)

end Blackholes

/-- The record A of `a.@`, blackholing the one country. -/
def blackholedRecord : StoreRecord Unit :=
  ⟨.A, exampleRecordName, none, none, some ⟨{()}⟩, none, none, [⟨"192.0.2.1"⟩]⟩

/-- The record A of the wildcard `*.@`. -/
def wildcardRecord : StoreRecord Unit :=
  ⟨.A, ⟨"*.@", by decide, by decide⟩, none, none, none, none, none, [⟨"192.0.2.2"⟩]⟩

/-- The store cache holds both records, as read at time 0; the Redis server holds nothing. -/
def blackholeWorld : World Unit :=
  { World.init [fun _ => none] 0 {} with
    cache := StoreCache.push (StoreCache.push (fun _ => none)
        (StoreKey.toKey exampleEnv.fingerprint32 servedZone exampleRecordName .A)
        (some blackholedRecord) none 0)
      (StoreKey.toKey exampleEnv.fingerprint32 servedZone wildcardRecord.name .A)
      (some wildcardRecord) none 0 }

/-- The record of `a.example.com. A` blackholes the source, and the query is answered with
the address of the wildcard. -/
theorem blackholed_record_answered_as_empty_wildcard :
    lookup exampleEnv (mapReads (emptyBlackholed exampleEnv aRequest.src) (Store.get exampleEnv))
        exampleHandler aRequest =
      lookup exampleEnv (Store.get exampleEnv) exampleHandler aRequest ∧
    isBlackholed blackholedRecord (ipCountryOf exampleEnv blackholedRecord aRequest.src) = true ∧
    (finalState ((lookup exampleEnv (Store.get exampleEnv) exampleHandler aRequest).run
        blackholeWorld)).sent.map (·.answers) =
      [[⟨aRequest.query.name.toName, 3600, .A, .Parsed .A "192.0.2.2"⟩]] :=
  ⟨blackholed_record_answered_as_empty exampleEnv _ exampleHandler aRequest, by decide,
    by decide +kernel⟩

end Constellation.Dns
