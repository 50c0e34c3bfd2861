import Constellation.Dns.Handler
import Constellation.Store.Map

/-! # One response per query, and what it counts

Every path of `lookup` ends in one `dispatch_response`, and nothing before it sends:
a standard query gets exactly one response, with the request's identifier, unless its
task panics. For a query whose authority is a configured zone, the handler counts in
that zone the answer code it sends; the query type, unless the local records answer;
and the origin of the query once for each record it reads, which is at most four
times: the record and the CNAME at the name, and the same at the wildcard.

A request that is not a standard query is answered by nothing at all.
-/

namespace Constellation.Dns

open Store Cache TaskM

variable {Country Addr : Type} [DecidableEq Country]

/-! ## Responding -/

/-- The run sent one response, with the request's identifier, the code and the answers, and
counted the code in the zone. -/
def Responds (request : Request Addr) (zoneName : ZoneName) (code : ResponseCode)
    (answers : List Record) (s t : World Country) : Prop :=
  ∃ message : Message, t.sent = s.sent ++ [message] ∧ message.header.id = request.id ∧
    message.header.responseCode = code ∧ message.answers = answers ∧
    t.metrics = s.metrics.stack zoneName (.AnswerCode (CodeName.fromHickory code))

omit [DecidableEq Country] in
theorem returns_dispatchResponse (header : Header) (records soaRecords : Option (List Record)) :
    Returns (fun s _ t => t.metrics = s.metrics ∧
        ∃ soa, t.sent = s.sent ++ [⟨header, records.getD [], soa⟩])
      (dispatchResponse header records soaRecords : TaskM Country _) := by
  unfold dispatchResponse sendResponse
  refine Returns.modifyGet fun s => ?_
  dsimp only
  split <;> exact ⟨rfl, _, rfl⟩

theorem returns_stampHeader (request : Request Addr) (header : Header) (code : ResponseCode)
    (zoneName : ZoneName) :
    Returns (fun s stamped t => t.sent = s.sent ∧
        t.metrics = s.metrics.stack zoneName (.AnswerCode (CodeName.fromHickory code)) ∧
        stamped.id = header.id ∧ stamped.responseCode = code)
      (stampHeader request header code (some zoneName) : TaskM Country _) := by
  unfold stampHeader stackZone
  refine Returns.bind Returns.modify
    (Q := fun _ t stamped u => u = t ∧ stamped.id = header.id ∧ stamped.responseCode = code)
    (fun _ => Returns.pure fun t => ⟨rfl, rfl, rfl⟩) ?_
  rintro s _ t stamped u rfl ⟨rfl, hid, hcode⟩
  exact ⟨rfl, rfl, hid, hcode⟩

/-- `stamp_header`, then `dispatch_response`: how a lookup with an authority responds. -/
theorem returns_respond (request : Request Addr) {header : Header} (hid : header.id = request.id)
    (code : ResponseCode) (zoneName : ZoneName) (records soaRecords : Option (List Record)) :
    Returns (fun s _ t => Responds request zoneName code (records.getD []) s t)
      (do
        let header ← stampHeader request header code (some zoneName)
        dispatchResponse header records soaRecords : TaskM Country _) := by
  refine (returns_stampHeader request header code zoneName).bind
    (fun stamped => returns_dispatchResponse stamped records soaRecords) ?_
  rintro s stamped t _ u ⟨hs, hm, hsid, hcode⟩ ⟨hm', soa, hu⟩
  exact ⟨⟨stamped, records.getD [], soa⟩, by rw [hu, hs], hsid.trans hid, hcode, rfl,
    hm'.trans hm⟩

/-! ## Standard queries and the rest -/

variable (env : Env Country Addr) (storeGet : StoreGet Country)

theorem handleRequest_of_query {handler : DNSHandler} {request : Request Addr}
    (h : request.messageType = .Query ∧ request.opCode = .Query) :
    handleRequest env storeGet handler request = lookup env storeGet handler request := by
  unfold handleRequest
  rw [h.1, h.2]

/-- A request that is not a standard query is aborted: the handler returns a NOTIMP header,
and sends nothing and changes nothing. -/
theorem not_query_gets_no_reply (handler : DNSHandler) {request : Request Addr}
    (h : request.opCode ≠ .Query) (w : World Country) :
    (handleRequest env storeGet handler request).run w = .ok (.ok { responseCode := .NotImp }) w := by
  unfold handleRequest
  split
  · next ho => exact absurd ho h
  · rfl
  · rfl

/-- A STATUS request: NOTIMP is returned, and the world is left as it was. -/
theorem not_query_gets_no_reply_status :
    OpCode.Status ≠ .Query ∧
      (handleRequest parsedEnv (Store.get parsedEnv) DNSHandler.new
          ⟨7, .Query, .Status, false, ⟨rootLowerName, .A⟩, ()⟩).run (World.init [] 0 {}) =
        .ok (.ok { responseCode := .NotImp }) (World.init [] 0 {}) :=
  ⟨by decide, not_query_gets_no_reply parsedEnv _ DNSHandler.new (by decide) _⟩

/-! ## Lookups -/

/-- The code `lookup` responds with for what `records_from_store` gave, the local lookup
being empty. -/
def remoteCode : Except ResponseCode (Option (List Record)) → ResponseCode
  | .ok (some _) => .NoError
  | .ok none => .NXDomain
  | .error code => code

/-- The answers it sends. -/
def remoteAnswers : Except ResponseCode (Option (List Record)) → List Record
  | .ok (some records) => records
  | _ => []

variable {env storeGet}

theorem returns_lookup_noAuthority {handler : DNSHandler} {request : Request Addr}
    (hfind : handler.findAuthorityRecurse request.query.name = none) :
    Returns (fun s _ t => t.metrics = s.metrics ∧ ∃ message : Message,
        t.sent = s.sent ++ [message] ∧ message.header.id = request.id ∧
        message.header.responseCode = .Refused)
      (lookup env storeGet handler request) := by
  unfold lookup
  simp only [hfind]
  refine (returns_dispatchResponse _ none none).mono ?_
  rintro s _ t ⟨hm, soa, hs⟩
  exact ⟨hm, _, hs, rfl, rfl⟩

variable {handler : DNSHandler} {request : Request Addr} {authority : DNSAuthority}
  {zoneName : ZoneName}

/-- A lookup answered by the local records responds NOERROR with them. -/
theorem returns_lookup_local
    (hfind : handler.findAuthorityRecurse request.query.name = some authority)
    (hzone : ZoneName.fromHickory env.conf.dns authority.origin = some zoneName)
    (hlocal : (authority.search request.query).isEmpty = false) :
    Returns (fun s _ t => Responds request zoneName .NoError (authority.search request.query).records s t)
      (lookup env storeGet handler request) := by
  unfold lookup
  simp only [hfind, hzone, hlocal, Bool.not_false, ↓reduceIte]
  exact returns_respond request rfl .NoError zoneName _ _

/-- A lookup the local records do not answer responds with the code of what the store gave,
from the state `records_from_store` ends in. -/
theorem returns_lookup_remote
    {R : World Country → Except ResponseCode (Option (List Record)) → World Country → Prop}
    (hfind : handler.findAuthorityRecurse request.query.name = some authority)
    (hzone : ZoneName.fromHickory env.conf.dns authority.origin = some zoneName)
    (hlocal : (authority.search request.query).isEmpty = true)
    (hstore : Returns R
      (recordsFromStore env storeGet authority (some zoneName) request.src request.query)) :
    Returns (fun s _ t => ∃ u result, R s result u ∧
        Responds request zoneName (remoteCode result) (remoteAnswers result) u t)
      (lookup env storeGet handler request) := by
  unfold lookup
  simp only [hfind, hzone, hlocal, Bool.not_true, Bool.false_eq_true, ↓reduceIte]
  refine hstore.bind
    (Q := fun result u _ t => Responds request zoneName (remoteCode result) (remoteAnswers result) u t)
    (fun result => ?_) fun s result u _ t h₁ h₂ => ⟨u, result, h₁, h₂⟩
  rcases result with code | (_ | recordsRemote)
  · exact returns_respond request rfl code zoneName none _
  · unfold lookupRemoteNone
    rw [DNSAuthority.search_eq_empty hlocal]
    exact returns_respond request rfl .NXDomain zoneName none _
  · exact returns_respond request rfl .NoError zoneName (some recordsRemote) _

/-! ## What the reads count -/

/-- The reads of the store change neither the metrics nor what was sent. -/
def KeepsReply (storeGet : StoreGet Country) : Prop :=
  ∀ zoneName recordName recordType origin (s : World Country),
    Keeps (fun t => t.metrics = s.metrics ∧ t.sent = s.sent)
      (storeGet zoneName recordName recordType origin)

omit [DecidableEq Country] in
theorem keepsReply_get (env : Env Country Addr) : KeepsReply (Store.get env) :=
  fun zoneName recordName recordType origin _ =>
    keeps_get (fun _ _ _ _ _ _ hw => hw) env zoneName recordName recordType origin

/-- The run sent nothing, and counted in the zone the values, then at most `n` query
origins. -/
def Counts (zoneName : ZoneName) (values : List (MetricsValue Country)) (n : ℕ)
    (s t : World Country) : Prop :=
  t.sent = s.sent ∧ ∃ origins : List (Option Country), origins.length ≤ n ∧
    t.metrics = s.metrics.stackAll zoneName (values ++ origins.map .QueryOrigin)

namespace Counts

variable {zoneName : ZoneName} {values : List (MetricsValue Country)} {s t u : World Country}

theorem of_reply (h : t.metrics = s.metrics ∧ t.sent = s.sent) : Counts zoneName [] 0 s t :=
  ⟨h.2, [], le_refl 0, by simpa using h.1⟩

theorem of_origin {country : Option Country}
    (h : t.sent = s.sent ∧ t.metrics = s.metrics.stack zoneName (.QueryOrigin country)) :
    Counts zoneName [] 1 s t :=
  ⟨h.1, [country], le_refl 1, by simpa using h.2⟩

theorem zero_le (s : World Country) (n : ℕ) : Counts zoneName [] n s s :=
  ⟨rfl, [], Nat.zero_le n, by simp⟩

theorem trans {a b : ℕ} (h₁ : Counts zoneName values a s t) (h₂ : Counts zoneName [] b t u) :
    Counts zoneName values (a + b) s u := by
  obtain ⟨hs₁, o₁, hl₁, hm₁⟩ := h₁
  obtain ⟨hs₂, o₂, hl₂, hm₂⟩ := h₂
  refine ⟨hs₂.trans hs₁, o₁ ++ o₂, by rw [List.length_append]; omega, ?_⟩
  rw [hm₂, hm₁, List.nil_append, ← MetricsStore.stackAll_append, List.map_append,
    List.append_assoc]

end Counts

section Reads

variable (env : Env Country Addr) {storeGet : StoreGet Country} (hstore : KeepsReply storeGet)
include hstore

omit [DecidableEq Country] in
theorem returns_read (zoneName : ZoneName) (recordName : RecordName) (recordType : RecordType)
    (origin : StoreAccessOrigin) :
    Returns (fun s _ t => t.metrics = s.metrics ∧ t.sent = s.sent)
      (storeGet zoneName recordName recordType origin) :=
  Returns.of_keeps (hstore zoneName recordName recordType origin) fun _ => ⟨rfl, rfl⟩

omit env in
theorem counts_checkNameExists (zoneName : ZoneName) (recordName : RecordName)
    (origin : StoreAccessOrigin) :
    ∀ recordTypes, Returns (fun s _ t => Counts zoneName [] 0 s t)
      (checkNameExists storeGet zoneName recordName origin recordTypes)
  | [] => Returns.pure fun s => Counts.zero_le s 0
  | recordType :: rest => by
    unfold checkNameExists
    refine (returns_read hstore zoneName recordName recordType origin).bind
      (Q := fun _ t _ u => Counts zoneName [] 0 t u) (fun result => ?_)
      fun s _ t _ u h₁ h₂ => (Counts.of_reply h₁).trans h₂
    split
    · exact Returns.pure fun t => Counts.zero_le t 0
    · exact Returns.pure fun t => Counts.zero_le t 0
    · exact counts_checkNameExists zoneName recordName origin rest

theorem counts_appendFromStore (queryNameClient : LowerName) (queryType : HickoryRecordType)
    (recordType : RecordType) (source : Addr) (zoneName : ZoneName) (recordName : RecordName)
    (readType : RecordType) (records : List Record) :
    Returns (fun s _ t => Counts zoneName [] 1 s t)
      (appendFromStore env storeGet queryNameClient queryType recordType source zoneName
        recordName readType records) := by
  unfold appendFromStore
  refine (returns_read hstore zoneName recordName readType .External).bind
    (Q := fun _ t _ u => Counts zoneName [] 1 t u) (fun result => ?_)
    fun s _ t _ u h₁ h₂ => (Counts.of_reply h₁).trans h₂
  split
  · exact (returns_parseFromRecords env _ _ _ _ _ _ _).bind (Q := fun _ t _ u => u = t)
      (fun _ => Returns.pure fun _ => rfl) fun s _ t _ u h₁ h₂ => h₂ ▸ Counts.of_origin h₁
  · exact Returns.pure fun t => Counts.zero_le t 1
  · exact Returns.pure fun t => Counts.zero_le t 1

theorem counts_recordsOfType (queryNameClient : LowerName) (queryType : HickoryRecordType)
    (source : Addr) (zoneName : ZoneName) (recordName : RecordName) (recordType : RecordType) :
    Returns (fun s _ t => Counts zoneName [] 2 s t)
      (recordsOfType env storeGet queryNameClient queryType source zoneName recordName
        recordType) := by
  unfold recordsOfType
  refine (counts_appendFromStore env hstore _ _ _ _ _ _ _ _).bind
    (Q := fun _ t _ u => Counts zoneName [] 1 t u) (fun result => ?_)
    fun s _ t _ u h₁ h₂ => h₁.trans h₂
  split
  · exact Returns.pure fun t => Counts.zero_le t 1
  · exact Returns.ite (fun _ => counts_appendFromStore env hstore _ _ _ _ _ _ _ _)
      fun _ => Returns.pure fun t => Counts.zero_le t 1

theorem counts_recordsFromStoreAttempt (origin : LowerName) (source : Addr) (zoneName : ZoneName)
    (queryNameClient queryNameEffective : LowerName) (queryType : HickoryRecordType)
    (recordType : Option RecordType) :
    Returns (fun s _ t => Counts zoneName [] 2 s t)
      (recordsFromStoreAttempt env storeGet origin source (some zoneName) queryNameClient
        queryNameEffective queryType recordType) := by
  unfold recordsFromStoreAttempt
  split
  · next zoneName' recordName hz _ =>
    cases hz
    refine Returns.bind (P := fun (s : World Country) _ t => Counts zoneName [] 2 s t) ?_
      (Q := fun _ t _ u => Counts zoneName [] 0 t u) (fun found => ?_)
      fun s _ t _ u h₁ h₂ => h₁.trans h₂
    · split
      · exact counts_recordsOfType env hstore _ _ _ _ _ _
      · exact Returns.pure fun t => Counts.zero_le t 2
    · split
      · exact Returns.pure fun t => Counts.zero_le t 0
      · refine Returns.ite (fun _ => Returns.pure fun t => Counts.zero_le t 0) fun _ => ?_
        refine (counts_checkNameExists hstore _ _ _ _).bind (Q := fun _ t _ u => u = t)
          (fun found => ?_) fun s _ t _ u h₁ h₂ => h₂ ▸ h₁
        split <;> exact Returns.pure fun _ => rfl
  · exact Returns.pure fun t => Counts.zero_le t 2

/-- `records_from_store` counts the query type, then the origin of the query once for each
record it reads, at most four times. -/
theorem counts_recordsFromStore (authority : DNSAuthority) (zoneName : ZoneName) (source : Addr)
    (query : LowerQuery) :
    Returns (fun s _ t => Counts zoneName [.QueryType (RecordType.fromHickory query.queryType)] 4 s t)
      (recordsFromStore env storeGet authority (some zoneName) source query) := by
  unfold recordsFromStore stackZone
  refine Returns.bind Returns.modify (Q := fun _ t _ u => Counts zoneName [] 4 t u)
    (fun _ => ?_) ?_
  · refine (counts_recordsFromStoreAttempt env hstore _ _ _ _ _ _ _).bind
      (Q := fun _ t _ u => Counts zoneName [] 2 t u) (fun records => ?_)
      fun s _ t _ u h₁ h₂ => h₁.trans h₂
    split
    · exact Returns.pure fun t => Counts.zero_le t 2
    · dsimp only
      refine Returns.ite (fun _ => ?_) fun _ => Returns.pure fun t => Counts.zero_le t 2
      split
      · refine Returns.ite (fun _ => ?_) fun _ => Returns.pure fun t => Counts.zero_le t 2
        refine (counts_recordsFromStoreAttempt env hstore _ _ _ _ _ _ _).bind
          (Q := fun _ t _ u => u = t) (fun found => ?_) fun s _ t _ u h₁ h₂ => h₂ ▸ h₁
        split <;> exact Returns.pure fun _ => rfl
      · exact Returns.pure fun t => Counts.zero_le t 2
  · rintro s _ t _ u rfl ⟨hs, origins, hl, hm⟩
    exact ⟨hs, origins, hl, by rw [hm]; simp⟩

end Reads

/-- A standard query whose authority is a configured zone is sent exactly one response with
its identifier, unless its task panics; and the zone counts the answer code sent, the query
type unless the local records answer, and at most four query origins. -/
theorem query_counted_once (env : Env Country Addr) {handler : DNSHandler}
    {request : Request Addr} {authority : DNSAuthority} {zoneName : ZoneName}
    (hquery : request.messageType = .Query ∧ request.opCode = .Query)
    (hfind : handler.findAuthorityRecurse request.query.name = some authority)
    (hzone : ZoneName.fromHickory env.conf.dns authority.origin = some zoneName) :
    Returns (fun w _ w' => ∃ (message : Message) (origins : List (Option Country)),
        w'.sent = w.sent ++ [message] ∧ message.header.id = request.id ∧ origins.length ≤ 4 ∧
        w'.metrics = w.metrics.stackAll zoneName
          ((if (authority.search request.query).isEmpty then
              [.QueryType (RecordType.fromHickory request.query.queryType)] else []) ++
            origins.map .QueryOrigin ++
            [.AnswerCode (CodeName.fromHickory message.header.responseCode)]))
      (handleRequest env (Store.get env) handler request) := by
  rw [handleRequest_of_query env _ hquery]
  cases hlocal : (authority.search request.query).isEmpty with
  | false =>
    refine (returns_lookup_local hfind hzone hlocal).mono ?_
    rintro w _ w' ⟨message, hs, hid, hcode, -, hm⟩
    exact ⟨message, [], hs, hid, Nat.zero_le 4, by simp [hm, hcode]⟩
  | true =>
    refine (returns_lookup_remote hfind hzone hlocal
      (counts_recordsFromStore env (keepsReply_get env) _ _ _ _)).mono ?_
    rintro w _ w' ⟨u, result, ⟨hs, origins, hl, hm⟩, message, hs', hid, hcode, -, hm'⟩
    exact ⟨message, origins, by rw [hs', hs], hid, hl, by simp [hm', hm, hcode]⟩

/-! ## The zone example.com -/

/-- The configuration of one zone, example.com. -/
def exampleDns : ConfigDNS :=
  { nameservers := ["ns.example.net"]
    soaMaster := "ns.example.net"
    soaResponsible := "hostmaster.example.net"
    zone := ["example.com"] }

/-- The program serving it, with a polynomial hash for the fingerprint, and the GeoIP database
placing every source in the one country. -/
def exampleEnv : Env Unit Unit :=
  { parsedEnv with
    conf := { dns := exampleDns }
    fingerprint32 := fun text => text.toList.foldl (fun hash c => hash * 31 + c.val) 0
    locate := fun _ => some () }

/-- The authority DNSListen loads for the zone. -/
def exampleAuthority : DNSAuthority :=
  match DNSListen.zoneAuthority exampleDns "example.com" with
  | .ok (some (_, authority)) => authority
  | _ => ⟨rootLowerName, [], []⟩

/-- The handler it serves. -/
def exampleHandler : DNSHandler :=
  DNSHandler.new.addAuthority exampleAuthority.origin exampleAuthority

example : DNSListen.handler exampleDns = .ok exampleHandler := rfl

/-- A standard SOA query at the apex. -/
def soaRequest : Request Unit :=
  { id := 7, messageType := .Query, opCode := .Query, recursionDesired := false,
    query := ⟨exampleAuthority.origin, .SOA⟩, src := () }

theorem query_counted_once_soa :
    (soaRequest.messageType = .Query ∧ soaRequest.opCode = .Query) ∧
      exampleHandler.findAuthorityRecurse soaRequest.query.name = some exampleAuthority ∧
      ZoneName.fromHickory exampleEnv.conf.dns exampleAuthority.origin = some servedZone ∧
      Returns (fun w _ w' => ∃ (message : Message) (origins : List (Option Unit)),
          w'.sent = w.sent ++ [message] ∧ message.header.id = soaRequest.id ∧ origins.length ≤ 4 ∧
          w'.metrics = w.metrics.stackAll servedZone
            ((if (exampleAuthority.search soaRequest.query).isEmpty then
                [.QueryType (RecordType.fromHickory soaRequest.query.queryType)] else []) ++
              origins.map .QueryOrigin ++
              [.AnswerCode (CodeName.fromHickory message.header.responseCode)]))
        (handleRequest exampleEnv (Store.get exampleEnv) exampleHandler soaRequest) :=
  ⟨⟨rfl, rfl⟩, rfl, rfl, query_counted_once exampleEnv ⟨rfl, rfl⟩ rfl rfl⟩

/-- The SOA query is answered by the local records: the answer code NOERROR is counted, and
the query type is not. -/
theorem local_answer_type_not_counted :
    ∃ info w', (handleRequest exampleEnv (Store.get exampleEnv) exampleHandler soaRequest).run
        (World.init [] 0 {}) = .ok info w' ∧
      w'.metrics.answerCodeCount servedZone (some .NoError) = 1 ∧
      w'.metrics.queryTypeCount servedZone none = 0 :=
  ⟨_, _, rfl, rfl, rfl⟩

end Constellation.Dns
