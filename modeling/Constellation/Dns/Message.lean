import Constellation.Dns.Metrics
import Constellation.Dns.RData

/-! # DNS messages and authorities

The parts of hickory's messages the handler reads and writes: the request's
header fields and its query, the response header, and the records of the
answer and authority sections. An authority is a configured zone with its
local SOA and NS records; `search` answers a query for them at the origin, and
an error, which the handler reads as an empty lookup, for anything else.
-/

namespace Constellation.Dns

inductive MessageType
  | Query | Response
  deriving DecidableEq, Repr

inductive OpCode
  | Query | Status | Notify | Update
  | Unknown (code : UInt8)
  deriving DecidableEq, Repr

/-- A query: a lowercased name and a type. -/
structure LowerQuery where
  name : LowerName
  queryType : HickoryRecordType

/-- What the handler reads of a request. -/
structure Request (Addr : Type) where
  id : UInt16
  messageType : MessageType
  opCode : OpCode
  recursionDesired : Bool
  query : LowerQuery
  src : Addr

/-- A response header, with the values of `Header::new()`. -/
structure Header where
  id : UInt16 := 0
  messageType : MessageType := .Query
  opCode : OpCode := .Query
  authoritative : Bool := false
  recursionDesired : Bool := false
  responseCode : ResponseCode := .NoError

/-- A response as `MessageResponseBuilder::build` makes it. -/
structure Message where
  header : Header
  answers : List Record
  soa : List Record

/-- `AuthLookup`. -/
inductive AuthLookup
  | Empty
  | SOA (records : List Record)
  | Records (records : List Record)

def AuthLookup.isEmpty : AuthLookup → Bool
  | .Empty => true
  | .SOA records => records.isEmpty
  | .Records records => records.isEmpty

def AuthLookup.records : AuthLookup → List Record
  | .Empty => []
  | .SOA records => records
  | .Records records => records

/-- `DNSAuthority`: the origin of a zone and its local records. -/
structure DNSAuthority where
  origin : LowerName
  soaRecords : List Record
  nsRecords : List Record

namespace DNSAuthority

/-- `soa()`: the SOA record set. -/
def soa (authority : DNSAuthority) : AuthLookup := .Records authority.soaRecords

/-- `search(...).unwrap_or(AuthLookup::Empty)`: the local records of the query, or empty. -/
def search (authority : DNSAuthority) (query : LowerQuery) : AuthLookup :=
  let records :=
    if query.name = authority.origin then
      match query.queryType with
      | .SOA => authority.soaRecords
      | .NS => authority.nsRecords
      | _ => []
    else []
  if records.isEmpty then .Empty else .Records records

theorem ofRecords_eq_empty {records : List Record}
    (h : (if records.isEmpty then AuthLookup.Empty else .Records records).isEmpty = true) :
    (if records.isEmpty then AuthLookup.Empty else .Records records) = .Empty := by
  by_cases hr : records.isEmpty <;> simp_all [AuthLookup.isEmpty]

/-- A local lookup that is empty is `AuthLookup::Empty`. -/
theorem search_eq_empty {authority : DNSAuthority} {query : LowerQuery}
    (h : (authority.search query).isEmpty = true) : authority.search query = .Empty :=
  ofRecords_eq_empty h

end DNSAuthority

end Constellation.Dns
