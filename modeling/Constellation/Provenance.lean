import Constellation.Process

/-! # Where the answers come from

An answer the handler sends is one of the local records of an authority, or it is built
from a record it read from the store: `RecordValue::to_hickory` converts one of the values the
record offers (its values, its regions' values, or a rescue value), or, for a flattened CNAME,
a value the resolver answered for one of those.

The handler is traced through contracts on what it reads (`Traced`): from the states of an
invariant, a read of the store returns a `held` record, and a pass through the flatten
registry returns no value or one the resolver `answered`; and sending a message whose answers
are so sourced keeps the invariant. Over the runs of the process, `Traces` is such an
invariant for the records the servers held at the start or `Store::set` wrote: every message
the DNS server has sent answers with those records, the local ones, and the resolver's answers.
-/

namespace Constellation

open Store Dns Cache TaskM

variable {Country Addr : Type}

/-! ## The values a record offers -/

/-- The value is one a record can be answered with: one of its values or of its regions'
values (`list_record_values`), or a rescue value. -/
def Store.StoreRecord.Offers (record : StoreRecord Country) (value : RecordValue) : Prop :=
  value ∈ record.listRecordValues ∨ value ∈ record.rescue.getD []

theorem Dns.RecordRegions.forRegion_mem (regions : RecordRegions) (region : RegionCode) :
    regions.forRegion region ∈ [regions.nnam, regions.snam, regions.nsam, regions.ssam,
      regions.weu, regions.ceu, regions.eeu, regions.ru, regions.me, regions.naf, regions.maf,
      regions.saf, regions.seas, regions.neas, regions.oc, regions._in] := by
  cases region <;> simp [RecordRegions.forRegion]

/-- The values picked for a source, of its region or global, are offered by the record. -/
theorem offers_of_mem_pickValues {env : Env Country Addr} {record : StoreRecord Country}
    {ipCountry : Option Country} {value : RecordValue}
    (h : value ∈ pickValues env record ipCountry) : record.Offers value := by
  left
  unfold StoreRecord.listRecordValues
  rw [List.mem_dedup]
  unfold pickValues at h
  split at h
  · rename_i regions country hregions
    rw [hregions, Option.elim_some]
    cases hv : regions.forRegion (env.regionOf country) with
    | none =>
      rw [hv, Option.getD_none] at h
      exact List.mem_append_left _ h
    | some values =>
      rw [hv, Option.getD_some] at h
      refine List.mem_append_right _ (List.mem_flatMap.mpr ⟨some values, ?_, h⟩)
      rw [← hv]
      exact RecordRegions.forRegion_mem regions _
  · exact List.mem_append_left _ h

namespace Dns

/-! ## Local answers -/

/-- The answer is one of the local records, SOA or NS, of an authority of the handler. -/
def DNSHandler.Local (handler : DNSHandler) (answer : Record) : Prop :=
  ∃ origin authority, handler.authorities origin = some authority ∧
    (answer ∈ authority.soaRecords ∨ answer ∈ authority.nsRecords)

theorem DNSHandler.findAuthorityRecurse_go_eq_some {handler : DNSHandler}
    {authority : DNSAuthority} :
    ∀ (fuel : ℕ) (name : LowerName), findAuthorityRecurse.go handler fuel name = some authority →
      ∃ origin, handler.authorities origin = some authority
  | 0, name, h => ⟨name, h⟩
  | fuel + 1, name, h => by
    unfold findAuthorityRecurse.go at h
    split at h
    · rename_i found hfound
      exact ⟨name, hfound.trans h⟩
    · dsimp only at h
      split at h
      · exact findAuthorityRecurse_go_eq_some fuel _ h
      · cases h

/-- The authority found for a name is one of the handler's. -/
theorem DNSHandler.findAuthorityRecurse_eq_some {handler : DNSHandler} {name : LowerName}
    {authority : DNSAuthority} (h : handler.findAuthorityRecurse name = some authority) :
    ∃ origin, handler.authorities origin = some authority :=
  findAuthorityRecurse_go_eq_some _ name h

/-- A local lookup answers with the authority's SOA or NS records. -/
theorem DNSAuthority.mem_search_records {authority : DNSAuthority} {query : LowerQuery}
    {answer : Record} (h : answer ∈ (authority.search query).records) :
    answer ∈ authority.soaRecords ∨ answer ∈ authority.nsRecords := by
  have hrecords : ∀ records : List Record,
      answer ∈ (if records.isEmpty then AuthLookup.Empty else .Records records).records →
        answer ∈ records := by
    intro records hr
    split at hr
    · simp [AuthLookup.records] at hr
    · exact hr
  have hin := hrecords _ h
  -- the records of the origin's SOA or NS query, and none for anything else
  split at hin
  · split at hin
    · exact Or.inl hin
    · exact Or.inr hin
    · cases hin
  · cases hin

/-! ## Answers built from a record -/

/-- The value is one the resolver answered for a value the record offers. -/
def FlattenedFrom (answered : DNSFlattenRegistryKey → RecordValues → Prop)
    (record : StoreRecord Country) (value : RecordValue) : Prop :=
  ∃ target recordType values, record.Offers target ∧ answered (target, recordType) values ∧
    value ∈ values

/-- The answer's data is a value converted by `to_hickory`: one the record offers, or one the
resolver answered for a flattened CNAME. -/
def AnswerOf (env : Env Country Addr) (answered : DNSFlattenRegistryKey → RecordValues → Prop)
    (record : StoreRecord Country) (answer : Record) : Prop :=
  ∃ value kind, value.toHickory env.parser kind = .ok (.ok answer.rdata) ∧
    (record.Offers value ∨ FlattenedFrom answered record value)

/-- The answer is built from a `held` record. -/
def FromStore (env : Env Country Addr) (held : StoreRecord Country → Prop)
    (answered : DNSFlattenRegistryKey → RecordValues → Prop) (answer : Record) : Prop :=
  ∃ record, held record ∧ AnswerOf env answered record answer

/-- The answer is a local record, or built from a `held` record. -/
def Sourced (env : Env Country Addr) (handler : DNSHandler) (held : StoreRecord Country → Prop)
    (answered : DNSFlattenRegistryKey → RecordValues → Prop) (answer : Record) : Prop :=
  handler.Local answer ∨ FromStore env held answered answer

/-- Every answer of every message sent is sourced. -/
def SentFrom (env : Env Country Addr) (handler : DNSHandler) (held : StoreRecord Country → Prop)
    (answered : DNSFlattenRegistryKey → RecordValues → Prop) (sent : List Message) : Prop :=
  ∀ message ∈ sent, ∀ answer ∈ message.answers, Sourced env handler held answered answer

/-- The answer's data is a value converted by `to_hickory`: one that `ok` holds of, or one the
resolver answered for such a value. -/
def BuiltFrom (env : Env Country Addr) (answered : DNSFlattenRegistryKey → RecordValues → Prop)
    (ok : RecordValue → Prop) (answer : Record) : Prop :=
  ∃ value kind, value.toHickory env.parser kind = .ok (.ok answer.rdata) ∧
    (ok value ∨ ∃ target recordType values, ok target ∧ answered (target, recordType) values ∧
      value ∈ values)

theorem BuiltFrom.mono {env : Env Country Addr}
    {answered : DNSFlattenRegistryKey → RecordValues → Prop} {ok ok' : RecordValue → Prop}
    {answer : Record} (h : BuiltFrom env answered ok answer) (hok : ∀ value, ok value → ok' value) :
    BuiltFrom env answered ok' answer := by
  obtain ⟨value, kind, hconv, hvalue⟩ := h
  refine ⟨value, kind, hconv, hvalue.imp (hok value) ?_⟩
  rintro ⟨target, recordType, values, htarget, hanswered, hin⟩
  exact ⟨target, recordType, values, hok target htarget, hanswered, hin⟩

/-- The values `push_values` answers from: those the health check did not find dead, or, when
none is left, the rescue values. -/
def preparedValues (env : Env Country Addr) (dead : DeadRegister) (zoneName : ZoneName)
    (recordType : RecordType) (record : StoreRecord Country) (values : RecordValues) :
    List RecordValue :=
  let live := values.filter fun value =>
    DNSHealth.status env.conf.dns.health dead zoneName recordType record.name value ≠ .Dead
  if live.isEmpty then live ++ record.rescue.getD [] else live

/-- A prepared value is one of the values that the health check did not find dead, or a rescue
value. -/
theorem mem_preparedValues {env : Env Country Addr} {dead : DeadRegister} {zoneName : ZoneName}
    {recordType : RecordType} {record : StoreRecord Country} {values : RecordValues}
    {value : RecordValue} (h : value ∈ preparedValues env dead zoneName recordType record values) :
    (value ∈ values ∧
        DNSHealth.status env.conf.dns.health dead zoneName recordType record.name value ≠ .Dead) ∨
      value ∈ record.rescue.getD [] := by
  unfold preparedValues at h
  dsimp only at h
  split at h
  · rcases List.mem_append.mp h with h | h
    · exact Or.inl (by simpa using List.mem_filter.mp h)
    · exact Or.inr h
  · exact Or.inl (by simpa using List.mem_filter.mp h)

/-- The values prepared from offered ones are offered. -/
theorem offers_of_mem_prepared {env : Env Country Addr} {dead : DeadRegister}
    {zoneName : ZoneName} {recordType : RecordType} {record : StoreRecord Country}
    {values : RecordValues} (hvalues : ∀ value ∈ values, record.Offers value) :
    ∀ value ∈ preparedValues env dead zoneName recordType record values, record.Offers value :=
  fun value h => (mem_preparedValues h).elim (fun hlive => hvalues value hlive.1) Or.inr

section Built

variable (env : Env Country Addr) {I : World Country → Prop}
  {answered : DNSFlattenRegistryKey → RecordValues → Prop} {ok : RecordValue → Prop}

/-- Each record `append_values` adds is the conversion of one of the values. -/
theorem ensures_appendValues (owner : Name) (recordTtl : UInt32) (finalKind : RecordType)
    (finalType : HickoryRecordType) (values : List RecordValue) :
    ∀ records : List Record, Ensures I
      (fun result => ∀ answer ∈ result, answer ∈ records ∨
        ∃ value ∈ values, value.toHickory env.parser finalKind = .ok (.ok answer.rdata))
      (appendValues env owner recordTtl finalKind finalType values records) := by
  induction values with
  | nil => exact fun records => Ensures.pure fun answer h => Or.inl h
  | cons value rest ih =>
    intro records
    unfold appendValues
    split
    · exact Ensures.throw _
    · rename_i valueData hvalue
      refine (ih _).mono fun result hresult answer hanswer => ?_
      rcases hresult answer hanswer with hold | ⟨v, hv, hconv⟩
      · rcases List.mem_append.mp hold with hold | hnew
        · exact Or.inl hold
        · -- the record appended for this value
          rw [List.mem_singleton] at hnew
          subst hnew
          exact Or.inr ⟨value, List.mem_cons_self, hvalue⟩
      · exact Or.inr ⟨v, List.mem_cons_of_mem _ hv, hconv⟩
    · refine (ih records).mono fun result hresult answer hanswer => ?_
      rcases hresult answer hanswer with hold | ⟨v, hv, hconv⟩
      · exact Or.inl hold
      · exact Or.inr ⟨v, List.mem_cons_of_mem _ hv, hconv⟩

/-- Converting values `ok` holds of, or values flattened from them, builds answers from them. -/
theorem ensures_appendValues_of (owner : Name) (recordTtl : UInt32) (finalKind : RecordType)
    (finalType : HickoryRecordType) {values : List RecordValue}
    (hvalues : ∀ value ∈ values, ok value ∨
      ∃ target recordType flatValues, ok target ∧ answered (target, recordType) flatValues ∧
        value ∈ flatValues)
    (records : List Record) :
    Ensures I (fun result => ∀ answer ∈ result, answer ∈ records ∨ BuiltFrom env answered ok answer)
      (appendValues env owner recordTtl finalKind finalType values records) := by
  refine (ensures_appendValues env owner recordTtl finalKind finalType values records).mono
    fun result hresult answer hanswer => ?_
  rcases hresult answer hanswer with hold | ⟨value, hvalue, hconv⟩
  · exact Or.inl hold
  · exact Or.inr ⟨value, finalKind, hconv, hvalues value hvalue⟩

variable (hpass : ∀ recordType recordValue recordTtl, Ensures I
  (fun result => ∀ values, result = .ok values → values = [] ∨ answered (recordValue, recordType) values)
  (flattenPass recordType recordValue recordTtl : TaskM Country _))
include hpass

/-- When every pass through the flatten registry returns no value or an answer of the
resolver, the answers of a record are built from the values it prepares. -/
theorem ensures_pushValues_builtFrom (queryNameClient : LowerName) (queryType : HickoryRecordType)
    (recordType : RecordType) (zoneName : ZoneName) (record : StoreRecord Country)
    (values : RecordValues) (records : List Record)
    (hok : ∀ w, I w → ∀ value ∈ preparedValues env w.dead zoneName recordType record values,
      ok value) :
    Ensures I (fun result => ∀ answer ∈ result, answer ∈ records ∨ BuiltFrom env answered ok answer)
      (pushValues env queryNameClient queryType recordType zoneName record values records) := by
  unfold pushValues
  refine Ensures.get_bind fun w hw => ?_
  dsimp only
  have hprepared := hok w hw
  refine Ensures.ite (fun _ => Ensures.ite (fun _ => ?_) fun _ => ?_) fun _ => ?_
  · -- a flattened CNAME asked as a CNAME: no value
    refine (Ensures.pure (Q := fun flatValues => flatValues = some []) rfl).bind
      fun flatValues hflat => ?_
    subst hflat
    exact ensures_appendValues_of env _ _ _ _ (fun _ hv => by cases hv) _
  · -- a flattened CNAME: what the resolver answered for the prepared values
    refine (ensures_flattenValues_sound hpass recordType _ _ [] false).bind
      fun flattened hflattened => ?_
    refine (Ensures.pure (Q := fun flatValues => ∀ flatValuesList, flatValues = some flatValuesList →
      ∀ value ∈ flatValuesList, ∃ target recordType values, ok target ∧
        answered (target, recordType) values ∧ value ∈ values) ?_).bind fun flatValues hflat => ?_
    · intro flatValuesList hsome value hvalue
      split at hsome
      · cases hsome
        rcases hflattened value hvalue with hnil | ⟨target, htarget, values', hanswered, hin⟩
        · cases hnil
        · exact ⟨target, recordType, values', hprepared _ htarget, hanswered, hin⟩
      · cases hsome
    · split
      · exact ensures_appendValues_of env _ _ _ _ (fun _ hv => Or.inr (hflat _ rfl _ hv)) _
      · exact ensures_appendValues_of env _ _ _ _ (fun _ hv => Or.inl (hprepared _ hv)) _
  · refine (Ensures.pure (Q := fun flatValues => flatValues = none) rfl).bind
      fun flatValues hflat => ?_
    subst hflat
    exact ensures_appendValues_of env _ _ _ _ (fun _ hv => Or.inl (hprepared _ hv)) _

variable [DecidableEq Country]

theorem ensures_parseFromRecords_builtFrom
    (hmetrics : ∀ w (metrics : MetricsStore Country), I w → I { w with metrics })
    (queryNameClient : LowerName) (queryType : HickoryRecordType) (recordType : RecordType)
    (source : Addr) (zoneName : ZoneName) (record : StoreRecord Country) (records : List Record)
    (hok : ∀ w, I w → ∀ value ∈ preparedValues env w.dead zoneName recordType record
      (pickValues env record (ipCountryOf env record source)), ok value) :
    Ensures I (fun result => ∀ answer ∈ result, answer ∈ records ∨ BuiltFrom env answered ok answer)
      (parseFromRecords env queryNameClient queryType recordType source zoneName record
        records) := by
  unfold parseFromRecords
  dsimp only
  refine (Keeps.modify fun w hw => hmetrics w _ hw).bind fun _ _ => ?_
  exact Ensures.ite (fun _ => ensures_pushValues_builtFrom env hpass _ _ _ _ _ _ _ hok) fun _ =>
    Ensures.pure fun answer h => Or.inl h

end Built

/-! ## The handler, traced through its reads -/

/-- The answer is built, by `built`, from a `held` record. -/
def StoreAnswer (held : StoreRecord Country → Prop)
    (built : ZoneName → RecordType → StoreRecord Country → Record → Prop) (zoneName : ZoneName)
    (recordType : RecordType) (answer : Record) : Prop :=
  ∃ record, held record ∧ built zoneName recordType record answer

/-- What the handler's answers are traced through: from a state of `I`, a read of the store
returns a `held` record, the answers `parse_from_records` adds for a record of a zone and a
type are `built` from it, counting metrics keeps `I`, and so does sending a message whose
answers are `sendable`. -/
structure Traced [DecidableEq Country] (env : Env Country Addr) (storeGet : StoreGet Country)
    (I : World Country → Prop) (held : StoreRecord Country → Prop)
    (built : ZoneName → RecordType → StoreRecord Country → Record → Prop)
    (sendable : Record → Prop) : Prop where
  read : ∀ zoneName recordName recordType origin,
    Ensures I (fun read => ∀ record, read = .ok record → held record)
      (storeGet zoneName recordName recordType origin)
  parse : ∀ queryNameClient queryType recordType source zoneName record records,
    Ensures I (fun result => ∀ answer ∈ result,
        answer ∈ records ∨ built zoneName recordType record answer)
      (parseFromRecords env queryNameClient queryType recordType source zoneName record records)
  metrics : ∀ w (metrics : MetricsStore Country), I w → I { w with metrics }
  send : ∀ w (message : Message) (io : Io), I w →
    (∀ answer ∈ message.answers, sendable answer) → I { w with sent := w.sent ++ [message], io }

namespace Traced

variable [DecidableEq Country] {env : Env Country Addr} {storeGet : StoreGet Country}
  {I : World Country → Prop} {held : StoreRecord Country → Prop}
  {built : ZoneName → RecordType → StoreRecord Country → Record → Prop}
  {sendable : Record → Prop} (hT : Traced env storeGet I held built sendable)
include hT

theorem ensures_appendFromStore (queryNameClient : LowerName) (queryType : HickoryRecordType)
    (recordType : RecordType) (source : Addr) (zoneName : ZoneName) (recordName : RecordName)
    (readType : RecordType) (records : List Record) :
    Ensures I (fun found => ∀ result, found = .ok result → ∀ answer ∈ result,
        answer ∈ records ∨ StoreAnswer held built zoneName recordType answer)
      (appendFromStore env storeGet queryNameClient queryType recordType source zoneName
        recordName readType records) := by
  unfold appendFromStore
  refine (hT.read zoneName recordName readType .External).bind fun read hread => ?_
  split
  · rename_i record
    -- the answers of the record read, a held one
    refine (hT.parse _ _ _ _ _ _ _).bind fun result hresult =>
      Ensures.pure fun result' hres answer hanswer => ?_
    cases hres
    exact (hresult answer hanswer).imp id fun hbuilt => ⟨record, hread record rfl, hbuilt⟩
  · exact Ensures.pure fun _ h => by cases h
  · exact Ensures.pure fun result h answer hanswer => by
      cases h
      exact Or.inl hanswer

theorem ensures_recordsOfType (queryNameClient : LowerName) (queryType : HickoryRecordType)
    (source : Addr) (zoneName : ZoneName) (recordName : RecordName) (recordType : RecordType) :
    Ensures I (fun found => ∀ result, found = .ok result → ∀ answer ∈ result,
        StoreAnswer held built zoneName recordType answer)
      (recordsOfType env storeGet queryNameClient queryType source zoneName recordName
        recordType) := by
  unfold recordsOfType
  refine (hT.ensures_appendFromStore _ _ _ _ _ _ _ []).bind fun found hfound => ?_
  split
  · exact Ensures.pure fun _ h => by cases h
  · rename_i records
    have hfrom : ∀ answer ∈ records, StoreAnswer held built zoneName recordType answer :=
      fun answer hanswer => (hfound records rfl answer hanswer).resolve_left List.not_mem_nil
    refine Ensures.ite (fun _ => ?_) fun _ => Ensures.pure fun result h answer hanswer => ?_
    · -- the CNAME read after an empty answer adds to the answers found
      refine (hT.ensures_appendFromStore _ _ _ _ _ _ _ records).mono
        fun found' h result hres answer hanswer => ?_
      exact (h result hres answer hanswer).elim (hfrom answer) id
    · cases h
      exact hfrom answer hanswer

theorem ensures_recordsFromStoreAttempt (origin : LowerName) (source : Addr)
    (zoneName : Option ZoneName) (queryNameClient queryNameEffective : LowerName)
    (queryType : HickoryRecordType) (recordType : Option RecordType) :
    Ensures I (fun found => ∀ result, found = .ok (some result) → ∀ answer ∈ result,
        ∃ zone kind, zoneName = some zone ∧ recordType = some kind ∧
          StoreAnswer held built zone kind answer)
      (recordsFromStoreAttempt env storeGet origin source zoneName queryNameClient
        queryNameEffective queryType recordType) := by
  unfold recordsFromStoreAttempt
  split
  · rename_i zone _ _
    refine Ensures.bind (Q := fun found => ∀ result, found = .ok result → ∀ answer ∈ result,
      ∃ kind, recordType = some kind ∧ StoreAnswer held built zone kind answer) ?_
      fun found hfound => ?_
    · split
      · rename_i kind
        exact (hT.ensures_recordsOfType _ _ _ _ _ _).mono fun _ h result hres answer hanswer =>
          ⟨kind, rfl, h result hres answer hanswer⟩
      · exact Ensures.pure fun _ h answer hanswer => by
          cases h
          cases hanswer
    · split
      · exact Ensures.pure fun _ h => by cases h
      · refine Ensures.ite (fun _ => Ensures.pure fun result h answer hanswer => ?_) fun _ => ?_
        · simp only [Except.ok.injEq, Option.some.injEq] at h
          subst h
          obtain ⟨kind, hkind, hanswer⟩ := hfound _ rfl answer hanswer
          exact ⟨zone, kind, rfl, hkind, hanswer⟩
        · -- a name that holds another type answers with no record
          refine (keeps_checkNameExists (fun _ _ _ _ => (hT.read _ _ _ _).mono fun _ _ => trivial)
            _ _ _ _).bind fun nameExists _ => ?_
          split <;> exact Ensures.pure fun _ h answer hanswer => by cases h <;> cases hanswer
  · exact Ensures.pure fun _ h => by cases h

theorem ensures_recordsFromStore (authority : DNSAuthority) (zoneName : Option ZoneName)
    (source : Addr) (query : LowerQuery) :
    Ensures I (fun found => ∀ result, found = .ok (some result) → ∀ answer ∈ result,
        ∃ zone kind, zoneName = some zone ∧ RecordType.fromHickory query.queryType = some kind ∧
          StoreAnswer held built zone kind answer)
      (recordsFromStore env storeGet authority zoneName source query) := by
  unfold recordsFromStore
  refine (keeps_stackZone hT.metrics _ _).bind fun _ _ => ?_
  refine (hT.ensures_recordsFromStoreAttempt _ _ _ _ _ _ _).bind fun found hfound => ?_
  split
  · exact Ensures.pure fun _ h => by cases h
  · -- the answers of the name, kept unless its wildcard's replace them
    dsimp only
    refine Ensures.ite (fun _ => ?_) fun _ => Ensures.pure hfound
    split
    · refine Ensures.ite (fun _ => ?_) fun _ => Ensures.pure hfound
      refine (hT.ensures_recordsFromStoreAttempt _ _ _ _ _ _ _).bind fun found' hfound' => ?_
      split
      · exact Ensures.pure fun _ h => by cases h
      · refine Ensures.pure fun result h => ?_
        split at h
        · exact hfound' result h
        · exact hfound result h
    · exact Ensures.pure hfound

theorem keeps_dispatchResponse (header : Header) (records soaRecords : Option (List Record))
    (hrecords : ∀ answer ∈ records.getD [], sendable answer) :
    Keeps I (dispatchResponse header records soaRecords : TaskM Country _) := by
  unfold dispatchResponse sendResponse
  refine Ensures.modifyGet fun w hw => ⟨?_, trivial⟩
  dsimp only
  -- the response is recorded, and the outside world's answer to the send is used up
  split
  · exact hT.send w _ w.io hw hrecords
  · exact hT.send w _ _ hw hrecords

theorem keeps_respond (request : Request Addr) (header : Header) (code : ResponseCode)
    (zoneName : Option ZoneName) (records soaRecords : Option (List Record))
    (hrecords : ∀ answer ∈ records.getD [], sendable answer) :
    Keeps I (do
      let header ← stampHeader request header code zoneName
      dispatchResponse header records soaRecords : TaskM Country _) := by
  unfold stampHeader
  refine ((keeps_stackZone hT.metrics _ _).bind fun _ _ =>
    Ensures.pure (Q := fun _ => True) trivial).bind fun header _ => ?_
  exact hT.keeps_dispatchResponse _ _ _ hrecords

section Lookup

variable (handler : DNSHandler) (request : Request Addr)
  (hlocal : ∀ answer, handler.Local answer → sendable answer)
  (hstore : ∀ authority zoneName recordType answer,
    handler.findAuthorityRecurse request.query.name = some authority →
    ZoneName.fromHickory env.conf.dns authority.origin = some zoneName →
    RecordType.fromHickory request.query.queryType = some recordType →
    StoreAnswer held built zoneName recordType answer → sendable answer)
include hlocal hstore

/-- A lookup keeps `I` when its local answers, and the answers it builds from the store for the
zone and the type of the query, are `sendable`. -/
theorem keeps_lookup : Keeps I (lookup env storeGet handler request) := by
  unfold lookup lookupNoAuthority serveResponseRecords lookupRemoteNone lookupRemoteFail
  dsimp only
  have hnone : ∀ answer ∈ (none : Option (List Record)).getD [], sendable answer :=
    fun _ h => by simp at h
  split
  · exact hT.keeps_dispatchResponse _ _ _ hnone
  · rename_i authority hauthority
    refine Ensures.ite (fun _ => hT.keeps_respond _ _ _ _ _ _ fun answer hanswer => ?_) fun _ => ?_
    · -- the local records of the authority found
      obtain ⟨origin, horigin⟩ := DNSHandler.findAuthorityRecurse_eq_some hauthority
      exact hlocal answer ⟨origin, authority, horigin, DNSAuthority.mem_search_records hanswer⟩
    refine (hT.ensures_recordsFromStore _ _ _ _).bind fun result hresult => ?_
    split
    · refine hT.keeps_respond _ _ _ _ _ _ fun answer hanswer => ?_
      obtain ⟨zone, kind, hzone, hkind, hanswer⟩ := hresult _ rfl answer hanswer
      exact hstore authority zone kind answer hauthority hzone hkind hanswer
    · -- the code of an empty local lookup; a local lookup with records panics
      split <;>
        refine Ensures.bind (Q := fun _ => True) ?_ fun code _ => hT.keeps_respond _ _ _ _ _ _ hnone
      · exact Ensures.pure trivial
      · exact Ensures.pure trivial
      · exact Ensures.throw _
    · exact hT.keeps_respond _ _ _ _ _ _ hnone

theorem keeps_handleRequestInfo : Keeps I (handleRequestInfo env storeGet handler request) := by
  unfold handleRequestInfo handleRequest
  refine Ensures.bind (Q := fun _ => True) ?_ fun result _ => ?_
  · split
    · exact hT.keeps_lookup handler request hlocal hstore
    · exact Ensures.pure trivial
    · exact Ensures.pure trivial
  · split <;> exact Ensures.pure trivial

end Lookup

end Traced

end Dns

/-! ## What the servers hold -/

variable (env : Env Country Addr) in
/-- Every record a server's hash reads as is `held`. -/
def HeldOnServers (held : StoreRecord Country → Prop) (w : World Country) : Prop :=
  ∀ pool ∈ w.pools, ∀ storeKey record,
    readsAs env (pool.keyspace storeKey) = some (some record) → held record

section Held

variable {env : Env Country Addr} {held : StoreRecord Country → Prop}

theorem HeldOnServers.of_keyspaces {w w' : World Country}
    (hp : w'.pools.map StorePool.keyspace = w.pools.map StorePool.keyspace)
    (hw : HeldOnServers env held w) : HeldOnServers env held w' := by
  intro pool hpool
  have hmem : pool.keyspace ∈ w.pools.map StorePool.keyspace := hp ▸ List.mem_map_of_mem hpool
  obtain ⟨p, hp', he⟩ := List.mem_map.mp hmem
  rw [← he]
  exact hw p hp'

theorem onStore_coherent_held : OnStore fun w => Coherent env w ∧ HeldOnServers env held w :=
  fun w w' hc hp hw => ⟨onStore_coherent w w' hc hp hw.1, hw.2.of_keyspaces hp⟩

/-- A write of a hash that reads as no record or a held one keeps every record held. -/
theorem heldOnServers_writeKeyspace (i : ℕ) {storeKey : String} {hash : Option RedisHash}
    (hh : ∀ record, readsAs env hash = some (some record) → held record) :
    Keeps (HeldOnServers env held) (writeKeyspace i storeKey hash : TaskM Country Unit) := by
  unfold writeKeyspace
  refine Keeps.modify fun w hw pool hpool => ?_
  rcases mem_of_mem_modify hpool with hpool | ⟨p, hp, rfl⟩
  · exact hw pool hpool
  · intro k record hk
    by_cases hkey : k = storeKey
    · subst hkey
      simp only [Function.update_self] at hk
      exact hh record hk
    · simp only [Function.update_of_ne hkey] at hk
      exact hw p hp k record hk

theorem heldOnServers_cachePop (storeKey : String) :
    Keeps (HeldOnServers env held) (cachePop storeKey : TaskM Country Unit) := by
  unfold cachePop
  exact Keeps.modify fun _ hw => hw

/-- `Store::set` puts on the servers only the record it writes, as it reads back. -/
theorem heldOnServers_set [DecidableEq Country] (hs : env.serde.Lawful) (zoneName : ZoneName)
    (record : StoreRecord Country) (hheld : held record.normalize) :
    Keeps (HeldOnServers env held) (Store.set env zoneName record) := by
  have hS : OnStore (HeldOnServers env held) := fun _ _ _ hp hw => hw.of_keyspaces hp
  unfold Store.set
  refine ensures_getCacheStoreClient hS.stepsKeep trivial fun i => ?_
  split
  · exact Ensures.pure trivial
  · rename_i fields he
    dsimp only
    refine (heldOnServers_cachePop _).bind fun _ _ => ?_
    refine (keeps_command hS.stepsKeep).bind fun outcome _ => ?_
    refine Ensures.ite (fun _ => Ensures.get_bind fun w _ => ?_) fun _ => Ensures.pure trivial
    refine (heldOnServers_writeKeyspace i fun r hr => ?_).bind fun _ _ => Ensures.pure trivial
    rw [readsAs_hsetMultiple hs he] at hr
    cases hr
    exact hheld

theorem heldOnServers_remove (zoneName : ZoneName) (recordName : RecordName)
    (recordType : RecordType) :
    Keeps (HeldOnServers env held) (remove env zoneName recordName recordType) := by
  have hS : OnStore (HeldOnServers env held) := fun _ _ _ hp hw => hw.of_keyspaces hp
  unfold remove
  refine ensures_getCacheStoreClient hS.stepsKeep trivial fun i => ?_
  dsimp only
  refine (heldOnServers_cachePop _).bind fun _ _ => ?_
  refine (keeps_command hS.stepsKeep).bind fun outcome _ => ?_
  refine Ensures.ite (fun _ => ?_) fun _ => Ensures.pure trivial
  exact (heldOnServers_writeKeyspace i fun r hr => by cases hr).bind fun _ _ => Ensures.pure trivial

/-- A program that keeps whatever the servers serve keeps every record held. -/
theorem keeps_held_of_serves {α : Type} {x : TaskM Country α}
    (hx : ∀ keyspaces, Keeps (Serves env keyspaces) x) :
    Keeps (fun w => Coherent env w ∧ HeldOnServers env held w) x := fun w hw =>
  have hend := (hx _ w ⟨hw.1, rfl⟩).1
  ⟨⟨hend.1, hw.2.of_keyspaces hend.2⟩, fun _ _ _ => trivial⟩

/-- With one server, `Store::get` returns a held record. -/
theorem ensures_get_held (zoneName : ZoneName) (recordName : RecordName) (recordType : RecordType)
    (origin : StoreAccessOrigin) :
    Ensures (fun w => Coherent env w ∧ HeldOnServers env held w)
      (fun read => ∀ record, read = .ok record → held record)
      (get env zoneName recordName recordType origin) := by
  intro w hw
  have hget := ensures_get_serves (w.pools.map StorePool.keyspace) zoneName recordName recordType
    origin w ⟨hw.1, rfl⟩
  refine ⟨⟨hget.1.1, hw.2.of_keyspaces hget.1.2⟩, fun read w' hread record hrecord => ?_⟩
  -- the one server holds the record read
  obtain ⟨pool, hpool⟩ := List.length_eq_one_iff.mp hw.1.single
  have hmem : pool ∈ w.pools := by
    rw [hpool]
    exact List.mem_singleton_self pool
  exact hw.2 pool hmem _ record
    (hget.2 read w' hread record hrecord pool.keyspace (List.mem_map_of_mem hmem))

end Held

/-! ## The invariant of a run -/

/-- What the runs of the process keep for the provenance of answers: the cache agrees with
the one server, the servers hold `held` records, the registry holds the resolver's answers,
and every answer sent is sourced. -/
structure Traces (env : Env Country Addr) (handler : DNSHandler)
    (held : StoreRecord Country → Prop) (answered : DNSFlattenRegistryKey → RecordValues → Prop)
    (w : World Country) : Prop where
  coherent : Coherent env w
  servers : HeldOnServers env held w
  registry : RegistrySound answered w.registry
  sent : SentFrom env handler held answered w.sent

section Traces

variable {env : Env Country Addr} {handler : DNSHandler} {held : StoreRecord Country → Prop}
  {answered : DNSFlattenRegistryKey → RecordValues → Prop}

/-- The parts of `Traces`, each kept on its own, keep it. -/
theorem Traces.ensures {α : Type} {Q Q' : α → Prop} {x : TaskM Country α}
    (hstore : Ensures (fun w => Coherent env w ∧ HeldOnServers env held w) Q x)
    (hregistry : Ensures (fun w : World Country => RegistrySound answered w.registry) Q' x)
    (hsent : Keeps (fun w : World Country => SentFrom env handler held answered w.sent) x) :
    Ensures (Traces env handler held answered) (fun a => Q a ∧ Q' a) x := fun w hw =>
  have h := (hstore.and (hregistry.and hsent)) w ⟨⟨hw.coherent, hw.servers⟩, hw.registry, hw.sent⟩
  ⟨⟨h.1.1.1, h.1.1.2, h.1.2.1, h.1.2.2⟩, fun a w' he => ⟨(h.2 a w' he).1, (h.2 a w' he).2.1⟩⟩

theorem offStore_sentFrom :
    OffStore fun w : World Country => SentFrom env handler held answered w.sent :=
  fun _ _ _ _ _ _ hw => hw

/-- A flatten pass leaves what has been sent alone. -/
theorem answersKeep_sentFrom :
    AnswersKeep fun w : World Country => SentFrom env handler held answered w.sent where
  readClock := keeps_readClock offStore_sentFrom.stepsKeep
  flatten _ _ _ hw := hw
  metrics _ _ hw := hw

/-- Through the traced states, each pass through the flatten registry returns no value or an
answer of the resolver. -/
theorem ensures_flattenPass_traces (recordType : RecordType) (recordValue : RecordValue)
    (recordTtl : UInt32) :
    Ensures (Traces env handler held answered)
      (fun result => ∀ values, result = .ok values →
        values = [] ∨ answered (recordValue, recordType) values)
      (flattenPass recordType recordValue recordTtl : TaskM Country _) :=
  (Traces.ensures (keeps_flattenPass onStore_coherent_held.answersKeep _ _ _)
    (ensures_flattenPass_sound recordType recordValue recordTtl)
    (keeps_flattenPass answersKeep_sentFrom _ _ _)).mono fun _ h => h.2

theorem Traces.metrics {w : World Country} (hw : Traces env handler held answered w)
    (metrics : MetricsStore Country) : Traces env handler held answered { w with metrics } :=
  ⟨onStore_coherent w _ rfl rfl hw.coherent, hw.servers.of_keyspaces rfl, hw.registry, hw.sent⟩

variable (env handler held answered) in
/-- The DNS server's handler, reading the store through `Store::get`, is traced by `Traces`:
the answers it builds from a record are built from the values the record offers. -/
theorem traced_traces [DecidableEq Country] :
    Traced env (Store.get env) (Traces env handler held answered) held
      (fun _ _ record => AnswerOf env answered record) (Sourced env handler held answered) where
  read zoneName recordName recordType origin :=
    (Traces.ensures (ensures_get_held zoneName recordName recordType origin)
      (keeps_get (fun _ _ _ _ _ _ hw => hw) env _ _ _ _)
      (keeps_get offStore_sentFrom env _ _ _ _)).mono fun _ h => h.1
  parse queryNameClient queryType recordType source zoneName record records :=
    ensures_parseFromRecords_builtFrom env ensures_flattenPass_traces
      (fun _ _ hw => hw.metrics _) queryNameClient queryType recordType source zoneName record
      records fun _ _ => offers_of_mem_prepared fun _ hv => offers_of_mem_pickValues hv
  metrics _ _ hw := hw.metrics _
  send w message _ hw hmessage := by
    refine ⟨onStore_coherent w _ rfl rfl hw.coherent, hw.servers.of_keyspaces rfl, hw.registry,
      fun sentMessage hsent => ?_⟩
    rcases List.mem_append.mp hsent with hold | hnew
    · exact hw.sent sentMessage hold
    · rw [List.mem_singleton.mp hnew]
      exact hmessage

end Traces

/-! ## The process keeps it -/

namespace ProcessStep

/-- A write of the task puts a `held` record on the servers: `Store::set` writes its record,
which reads back normalised. -/
def Stores [DecidableEq Country] (held : StoreRecord Country → Prop) :
    ProcessStep Country Addr → Prop
  | .store (.call (.set _ record)) => held record.normalize
  | _ => True

variable [DecidableEq Country] (env : Env Country Addr) (handler : DNSHandler)
  {held : StoreRecord Country → Prop}

/-- Every task keeps the servers holding `held` records, when its write stores one. -/
theorem heldOnServers_run (hs : env.serde.Lawful) (step : ProcessStep Country Addr)
    (hstep : step.Stores held) :
    Keeps (fun w => Coherent env w ∧ HeldOnServers env held w) (step.run env handler) := by
  by_cases hw : step.writes env = none
  · exact keeps_held_of_serves fun keyspaces => serves_run env handler keyspaces step hw
  · obtain ⟨storeStep, rfl⟩ := eq_store_of_writes env hw
    -- a task that writes is a call of `Store::set` or `Store::remove`
    cases storeStep with
    | call storeCall =>
      cases storeCall with
      | get => exact absurd rfl hw
      | set zoneName record =>
        exact ((coherent_set zoneName record).and (heldOnServers_set hs zoneName record
          (show held record.normalize from hstep))).bind
          fun _ _ => Ensures.pure trivial
      | remove zoneName recordName recordType =>
        exact ((coherent_remove zoneName recordName recordType).and
          (heldOnServers_remove zoneName recordName recordType)).bind fun _ _ => Ensures.pure trivial
    | flush keys => exact absurd rfl hw

/-- Every task keeps `Traces`: the DNS server's by its handler's trace, the others by sending
nothing. -/
theorem traces_run (hs : env.serde.Lawful) (answered : DNSFlattenRegistryKey → RecordValues → Prop)
    (step : ProcessStep Country Addr) (hanswers : step.Answers answered) (hstores : step.Stores held) :
    Keeps (Traces env handler held answered) (step.run env handler) := by
  have hstore := heldOnServers_run env handler hs step hstores
  have hregistry := registrySound_run env handler answered step hanswers
  have hsent := @offStore_sentFrom Country Addr env handler held answered
  cases step with
  | query request =>
    exact ((traced_traces env handler held answered).keeps_handleRequestInfo handler request
      (fun _ h => Or.inl h) fun _ _ _ _ _ _ _ h => Or.inr h).bind fun _ _ => Ensures.pure trivial
  | store storeStep =>
    exact (Traces.ensures hstore hregistry (StoreStep.keeps_run hsent storeStep)).mono
      fun _ _ => trivial
  | bootstrap keys resolve =>
    exact (Traces.ensures hstore hregistry (DNSFlattenBootstrap.keeps_tick_of_frame
      (fun _ _ _ _ _ hw => hw) keys resolve)).mono fun _ _ => trivial
  | maintain keys resolve =>
    exact (Traces.ensures hstore hregistry (DNSFlattenMaintain.keeps_perform_of_frame
      (fun _ _ _ _ _ hw => hw) keys resolve)).mono fun _ _ => trivial
  | metricsTick =>
    exact (Traces.ensures hstore hregistry (Keeps.modify fun _ hw => hw)).mono fun _ _ => trivial
  | health io http read probes =>
    exact (Traces.ensures hstore hregistry (Keeps.modify fun _ hw => hw)).mono fun _ _ => trivial

end ProcessStep

/-- A record the servers of a run can hold: one a server held as the process started, or one
a task of the run writes through `Store::set`, as it reads back. -/
def Written [DecidableEq Country] (env : Env Country Addr) (keyspaces : List Keyspace)
    (steps : List (ProcessStep Country Addr)) (record : StoreRecord Country) : Prop :=
  (∃ keyspace ∈ keyspaces, ∃ storeKey, readsAs env (keyspace storeKey) = some (some record)) ∨
    ∃ zoneName written, ProcessStep.store (.call (.set zoneName written)) ∈ steps ∧
      record = written.normalize

theorem ProcessStep.stores_written [DecidableEq Country] {env : Env Country Addr} {keyspaces : List Keyspace}
    {steps : List (ProcessStep Country Addr)} {step : ProcessStep Country Addr}
    (hstep : step ∈ steps) : step.Stores (Written env keyspaces steps) := by
  cases step with
  | store storeStep =>
    cases storeStep with
    | call storeCall =>
      cases storeCall with
      | set zoneName record => exact Or.inr ⟨zoneName, record, hstep, rfl⟩
      | _ => trivial
    | flush _ => trivial
  | _ => trivial

theorem traces_init [DecidableEq Country] {env : Env Country Addr} {handler : DNSHandler}
    {answered : DNSFlattenRegistryKey → RecordValues → Prop} {keyspaces : List Keyspace}
    (hlen : keyspaces.length = 1) (now : ℕ) (io : Io) (steps : List (ProcessStep Country Addr)) :
    Traces env handler (Written env keyspaces steps) answered (World.init keyspaces now io) where
  coherent := coherent_init hlen now io
  servers pool hpool storeKey record hread := by
    obtain ⟨keyspace, hkeyspace, rfl⟩ := List.mem_map.mp hpool
    exact Or.inl ⟨keyspace, hkeyspace, storeKey, hread⟩
  registry _ _ h := by cases h
  sent _ h := by cases h

/-- Every run of the process from its start reaches a state of `Traces`, for the records the
servers held at the start or the run writes. -/
theorem traces_reached [DecidableEq Country] {env : Env Country Addr} (hs : env.serde.Lawful)
    {keyspaces : List Keyspace} (hlen : keyspaces.length = 1) (now : ℕ) (io : Io)
    (handler : DNSHandler) {answered : DNSFlattenRegistryKey → RecordValues → Prop}
    {steps : List (ProcessStep Country Addr)} (hsteps : ∀ step ∈ steps, step.Answers answered) :
    Traces env handler (Written env keyspaces steps) answered
      (finalState ((steps.forM (ProcessStep.run env handler)).run (World.init keyspaces now io))) :=
  (Keeps.forM_of_mem steps (fun step hstep => ProcessStep.traces_run env handler hs answered
    step (hsteps step hstep) (ProcessStep.stores_written hstep)) _ (traces_init hlen now io steps)).1

/-- With one Redis server and a lawful encoding, in every run of the process from its start,
whatever the order of its threads' tasks: every answer of every response the DNS server has
sent is a local SOA or NS record of one of its zones, or is built by `to_hickory` from a value
of a record the server held as the process started or a task wrote through `Store::set`
(one of the record's values, its regions' values or rescue values, or a value the resolver
answered for one of those when the record is a flattened CNAME). -/
theorem process_answers_sourced [DecidableEq Country] (env : Env Country Addr)
    (hs : env.serde.Lawful) {keyspaces : List Keyspace} (hlen : keyspaces.length = 1) (now : ℕ)
    (io : Io) (handler : DNSHandler) (answered : DNSFlattenRegistryKey → RecordValues → Prop)
    (steps : List (ProcessStep Country Addr)) (hsteps : ∀ step ∈ steps, step.Answers answered) :
    let reached := finalState ((steps.forM (ProcessStep.run env handler)).run
      (World.init keyspaces now io))
    ∀ message ∈ reached.sent, ∀ answer ∈ message.answers,
      handler.Local answer ∨ FromStore env (Written env keyspaces steps) answered answer := by
  intro reached
  exact (traces_reached hs hlen now io handler hsteps).sent

theorem process_answers_sourced_mixedRun :
    let answered := fun registryKey values => answerAll registryKey = .records values
    let reached := finalState ((mixedRun.forM (ProcessStep.run exampleEnv exampleHandler)).run
      (World.init [fun _ => none] 0 {}))
    exampleEnv.serde.Lawful ∧ ([fun _ => none] : List Keyspace).length = 1 ∧
      (∀ step ∈ mixedRun, step.Answers answered) ∧
      ∀ message ∈ reached.sent, ∀ answer ∈ message.answers, exampleHandler.Local answer ∨
        FromStore exampleEnv (Written exampleEnv [fun _ => none] mixedRun) answered answer := by
  intro answered
  exact ⟨smallSerde_lawful, rfl, mixedRun_answers,
    process_answers_sourced exampleEnv smallSerde_lawful rfl 0 {} exampleHandler answered mixedRun
      mixedRun_answers⟩

end Constellation
