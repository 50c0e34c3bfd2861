import Constellation.Dns.Parse
import Constellation.Store.Store

/-! # The DNS handler

`DNSHandler` answers a standard query from the authority of its zone: from the
local SOA and NS records, or else from the store. There it reads the record of
the query's name and type, then the CNAME at that name, and, when the name holds
no record of any type, the same for the wildcard `*.parent`. It counts the query
type and the answer code of the zone, and sends one response. A request that is
not a standard query is aborted, and nothing is sent.

The handler calls the store through a function of the type of `Store::get`: the
store of the program, or another one. The answer records are kept in the order
they are found; the shuffle before sending is not modelled.
-/

namespace Constellation.Dns

open Store Cache TaskM

/-- `APP_STORE.get`, as the handler calls it. -/
abbrev StoreGet (Country : Type) :=
  ZoneName → RecordName → RecordType → StoreAccessOrigin →
    TaskM Country (Except StoreError (StoreRecord Country))

/-! ## Authorities -/

/-- `DNSHandler`: the authorities, by origin. -/
structure DNSHandler where
  authorities : LowerName → Option DNSAuthority

namespace DNSHandler

def new : DNSHandler := ⟨fun _ => none⟩

def addAuthority (handler : DNSHandler) (name : LowerName) (authority : DNSAuthority) :
    DNSHandler :=
  ⟨Function.update handler.authorities name (some authority)⟩

/-- `find_authority_recurse`: the authority of the name, or of its nearest ancestor other
than the root. A step removes a label, so there are as many steps as the name has labels. -/
def findAuthorityRecurse (handler : DNSHandler) (name : LowerName) : Option DNSAuthority :=
  go name.labels.length name
where
  go : ℕ → LowerName → Option DNSAuthority
    | 0, name => handler.authorities name
    | fuel + 1, name =>
      match handler.authorities name with
      | some authority => some authority
      | none =>
        let name := name.baseName
        if !name.isRoot then go fuel name else none

end DNSHandler

namespace DNSListen

def SERIAL_DEFAULT : UInt32 := 1

/-- `Name::parse(..).expect(message)`. -/
def parseName (text message : String) : Except Panic Name :=
  match Name.parse text.toList with
  | some name => pure name
  | none => throw ⟨message⟩

/-- `DNSListen::zone_authority`: the zone's name, and its authority holding the SOA record
and one NS record per name server; nothing for a zone whose name does not parse. -/
def zoneAuthority (dns : ConfigDNS) (zoneName : String) :
    Except Panic (Option (Name × DNSAuthority)) :=
  match Name.parse zoneName.toList with
  | none => pure none
  | some name => do
    let soaMaster ← parseName dns.soaMaster "invalid soa master"
    let soaResponsible ← parseName dns.soaResponsible "invalid soa responsible"
    let nameservers ← dns.nameservers.mapM fun nameserver => parseName nameserver "invalid nameserver"
    pure (some (name, {
      origin := LowerName.new name
      soaRecords := [⟨name, dns.recordTtl, .SOA, .SOA soaMaster soaResponsible SERIAL_DEFAULT
        dns.soaRefresh dns.soaRetry dns.soaExpire dns.soaTtl⟩]
      nsRecords := nameservers.map fun nameserver => ⟨name, dns.recordTtl, .NS, .NS nameserver⟩ }))

/-- The handler `DNSListen::run` serves: the authority of every zone that loads. -/
def handler (dns : ConfigDNS) : Except Panic DNSHandler :=
  dns.zone.foldlM (fun handler zoneName => do
    match ← zoneAuthority dns zoneName with
    | some (name, authority) => pure (handler.addAuthority (LowerName.new name) authority)
    | none => pure handler) DNSHandler.new

end DNSListen

/-! ## Responses -/

variable {Country Addr : Type} [DecidableEq Country]

/-- `METRICS_STORE.stack`, when there is a zone. -/
def stackZone (zoneName : Option ZoneName) (metricsValue : MetricsValue Country) :
    TaskM Country Unit :=
  match zoneName with
  | some zoneName => modify fun w => { w with metrics := w.metrics.stack zoneName metricsValue }
  | none => pure ()

/-- `DNSHandler::dispatch_response`: the SOA records go with an empty answer only. -/
def dispatchResponse (header : Header) (records soaRecords : Option (List Record)) :
    TaskM Country (Except Unit Header) :=
  let records := records.getD []
  let soaRecords := if records.isEmpty then soaRecords else none
  sendResponse ⟨header, records, soaRecords.getD []⟩

/-- `DNSHandler::stamp_header`: count the answer code of the zone, and set the code and the
flags. -/
def stampHeader (request : Request Addr) (header : Header) (code : ResponseCode)
    (zoneName : Option ZoneName) : TaskM Country Header := do
  stackZone zoneName (.AnswerCode (CodeName.fromHickory code))
  pure { header with
    responseCode := code
    authoritative := true
    recursionDesired := if request.recursionDesired then true else header.recursionDesired }

/-- `DNSHandler::serve_response_records`, which `lookup_local` and `lookup_remote_some` call. -/
def serveResponseRecords (request : Request Addr) (header : Header) (zoneName : Option ZoneName)
    (records soaRecords : List Record) : TaskM Country (Except Unit Header) := do
  let header ← stampHeader request header .NoError zoneName
  dispatchResponse header (some records) (some soaRecords)

/-- `DNSHandler::lookup_no_authority`. -/
def lookupNoAuthority (header : Header) : TaskM Country (Except Unit Header) :=
  dispatchResponse { header with responseCode := .Refused } none none

/-- `DNSHandler::lookup_remote_none`: NXDOMAIN, as the local lookup is empty. -/
def lookupRemoteNone (request : Request Addr) (header : Header) (zoneName : Option ZoneName)
    (soaRecords : List Record) (recordsLocal : AuthLookup) : TaskM Country (Except Unit Header) := do
  let responseError ← match recordsLocal with
    | .Empty => pure ResponseCode.NXDomain
    | .SOA _ => pure .NoError
    | .Records _ => throw ⟨"error, should return noerror"⟩
  let header ← stampHeader request header responseError zoneName
  dispatchResponse header none (some soaRecords)

/-- `DNSHandler::lookup_remote_fail`. -/
def lookupRemoteFail (request : Request Addr) (header : Header) (zoneName : Option ZoneName)
    (soaRecords : List Record) (code : ResponseCode) : TaskM Country (Except Unit Header) := do
  let header ← stampHeader request header code zoneName
  dispatchResponse header none (some soaRecords)

/-- `DNSHandler::abort`: a header with the code, returned and not sent. -/
def abort (code : ResponseCode) : Except Unit Header := .ok { responseCode := code }

/-! ## Reading the store -/

variable (env : Env Country Addr) (storeGet : StoreGet Country)

/-- `DNSHandler::check_name_exists` over the types left: whether a record of one of them
is found. -/
def checkNameExists (zoneName : ZoneName) (recordName : RecordName) (origin : StoreAccessOrigin) :
    List RecordType → TaskM Country (Except ResponseCode Bool)
  | [] => pure (.ok false)
  | recordType :: rest => do
    match ← storeGet zoneName recordName recordType origin with
    | .ok _ => pure (.ok true)
    | .error .Disconnected => pure (.error .ServFail)
    | .error _ => checkNameExists zoneName recordName origin rest

/-- A read made for a query: the answers of the record read are appended; a disconnected
store fails the query; any other error appends nothing. -/
def appendFromStore (queryNameClient : LowerName) (queryType : HickoryRecordType)
    (recordType : RecordType) (source : Addr) (zoneName : ZoneName) (recordName : RecordName)
    (readType : RecordType) (records : List Record) :
    TaskM Country (Except ResponseCode (List Record)) := do
  match ← storeGet zoneName recordName readType .External with
  | .ok record =>
    let records ←
      parseFromRecords env queryNameClient queryType recordType source zoneName record records
    pure (.ok records)
  | .error .Disconnected => pure (.error .ServFail)
  | .error _ => pure (.ok records)

/-- The reads of `records_from_store_attempt` for a type Constellation stores: the record of
the type, then, if it gave no answer, the CNAME at the name. -/
def recordsOfType (queryNameClient : LowerName) (queryType : HickoryRecordType) (source : Addr)
    (zoneName : ZoneName) (recordName : RecordName) (recordType : RecordType) :
    TaskM Country (Except ResponseCode (List Record)) := do
  match ← appendFromStore env storeGet queryNameClient queryType recordType source zoneName
      recordName recordType [] with
  | .error code => pure (.error code)
  | .ok records =>
    if recordType ≠ .CNAME ∧ records.isEmpty then
      appendFromStore env storeGet queryNameClient queryType recordType source zoneName recordName
        .CNAME records
    else pure (.ok records)

/-- `DNSHandler::records_from_store_attempt`: the answers found under the record name of
`queryNameEffective`, an empty answer when the name holds a record of another type, and
none when it holds nothing. -/
def recordsFromStoreAttempt (origin : LowerName) (source : Addr) (zoneName : Option ZoneName)
    (queryNameClient queryNameEffective : LowerName) (queryType : HickoryRecordType)
    (recordType : Option RecordType) : TaskM Country (Except ResponseCode (Option (List Record))) :=
  match zoneName, RecordName.fromHickory origin queryNameEffective with
  | some zoneName, some recordName => do
    let found ← (match recordType with
      | some recordTypeInner =>
        recordsOfType env storeGet queryNameClient queryType source zoneName recordName
          recordTypeInner
      | none => pure (.ok []) : TaskM Country (Except ResponseCode (List Record)))
    match found with
    | .error code => pure (.error code)
    | .ok records =>
      if !records.isEmpty then pure (.ok (some records))
      else do
        match ← checkNameExists storeGet zoneName recordName .External RecordType.listChoices with
        | .error code => pure (.error code)
        | .ok true => pure (.ok (some []))
        | .ok false => pure (.ok none)
  | _, _ => pure (.ok none)

/-- `DNSHandler::records_from_store`: count the query type, try the query's name, and, when
that gives no answer, its wildcard, whose answer replaces it unless it is none. -/
def recordsFromStore (authority : DNSAuthority) (zoneName : Option ZoneName) (source : Addr)
    (query : LowerQuery) : TaskM Country (Except ResponseCode (Option (List Record))) := do
  let recordType := RecordType.fromHickory query.queryType
  stackZone zoneName (.QueryType recordType)
  match ← recordsFromStoreAttempt env storeGet authority.origin source zoneName query.name
      query.name query.queryType recordType with
  | .error code => pure (.error code)
  | .ok records =>
    let isRecordsEmpty := match records with
      | some recordsInner => recordsInner.isEmpty
      | none => true
    if isRecordsEmpty then
      match wildcardOf query.name with
      | some wildcardNameLower =>
        if wildcardNameLower ≠ query.name then do
          match ← recordsFromStoreAttempt env storeGet authority.origin source zoneName
              query.name wildcardNameLower query.queryType recordType with
          | .error code => pure (.error code)
          | .ok recordsWildcard =>
            pure (.ok (if recordsWildcard.isNone = false then recordsWildcard else records))
        else pure (.ok records)
      | none => pure (.ok records)
    else pure (.ok records)

/-! ## Requests -/

/-- `DNSHandler::lookup`. -/
def lookup (handler : DNSHandler) (request : Request Addr) : TaskM Country (Except Unit Header) :=
  let header : Header := { id := request.id, opCode := .Query, messageType := .Response }
  let query := request.query
  match handler.findAuthorityRecurse query.name with
  | none => lookupNoAuthority header
  | some authority =>
    let zoneName := ZoneName.fromHickory env.conf.dns authority.origin
    let soaRecords := authority.soa.records
    let recordsLocal := authority.search query
    if !recordsLocal.isEmpty then
      -- lookup_local
      serveResponseRecords request header zoneName recordsLocal.records soaRecords
    else do
      match ← recordsFromStore env storeGet authority zoneName request.src query with
      | .ok (some recordsRemote) =>
        -- lookup_remote_some
        serveResponseRecords request header zoneName recordsRemote soaRecords
      | .ok none => lookupRemoteNone request header zoneName soaRecords recordsLocal
      | .error code => lookupRemoteFail request header zoneName soaRecords code

/-- `DNSHandler::handle_request`: a standard query is looked up, anything else aborted. -/
def handleRequest (handler : DNSHandler) (request : Request Addr) :
    TaskM Country (Except Unit Header) :=
  match request.messageType, request.opCode with
  | .Query, .Query => lookup env storeGet handler request
  | .Query, _ => pure (abort .NotImp)
  | .Response, _ => pure (abort .NotImp)

/-- `RequestHandler::handle_request`: the response information, a SERVFAIL header when
handling failed. -/
def handleRequestInfo (handler : DNSHandler) (request : Request Addr) : TaskM Country Header := do
  match ← handleRequest env storeGet handler request with
  | .ok info => pure info
  | .error () => pure { responseCode := .ServFail }

end Constellation.Dns
