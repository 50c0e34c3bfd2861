import Constellation.Dns.Zone
import Constellation.Data.Tally

/-! # Metrics

`METRICS_STORE` counts, per zone, the query types, the query origins and the
answer codes, in sixteen one-minute slots: `stack` adds one to a key of the
current slot, and the minute tick `perform` shifts the slots. `aggregate` adds
up the counts of the closed minutes of a timespan, by the key's lowercase text.
Counters are `u32` and wrap. A slot is a `HashMap`, modelled as a list of keys
and counts.
-/

namespace Constellation.Dns

/-- hickory's response codes; `Unknown` stands for the codes the handler never produces. -/
inductive ResponseCode
  | NoError | FormErr | ServFail | NXDomain | NotImp | Refused | YXDomain | YXRRSet | NXRRSet
  | NotAuth | NotZone
  | Unknown (code : UInt16)
  deriving DecidableEq, Repr

inductive CodeName
  | NoError | FormErr | ServFail | NXDomain | NotImp | Refused | YXDomain | YXRRSet | NXRRSet
  | NotAuth | NotZone
  deriving DecidableEq, Repr

def CodeName.fromHickory : ResponseCode → Option CodeName
  | .NoError => some .NoError
  | .FormErr => some .FormErr
  | .ServFail => some .ServFail
  | .NXDomain => some .NXDomain
  | .NotImp => some .NotImp
  | .Refused => some .Refused
  | .YXDomain => some .YXDomain
  | .YXRRSet => some .YXRRSet
  | .NXRRSet => some .NXRRSet
  | .NotAuth => some .NotAuth
  | .NotZone => some .NotZone
  | .Unknown _ => none

def CodeName.toStr : CodeName → String
  | .NoError => "NoError"
  | .FormErr => "FormErr"
  | .ServFail => "ServFail"
  | .NXDomain => "NXDomain"
  | .NotImp => "NotImp"
  | .Refused => "Refused"
  | .YXDomain => "YXDomain"
  | .YXRRSet => "YXRRSet"
  | .NXRRSet => "NXRRSet"
  | .NotAuth => "NotAuth"
  | .NotZone => "NotZone"

/-- `MetricsValue`: what one `stack` counts. -/
inductive MetricsValue (Country : Type)
  | QueryType (recordType : Option RecordType)
  | QueryOrigin (originCountry : Option Country)
  | AnswerCode (code : Option CodeName)

def METRICS_BACKLOG_MINUTES : ℕ := 15

instance (priority := 2000) slotCount_neZero : NeZero (METRICS_BACKLOG_MINUTES + 1) :=
  ⟨Nat.succ_ne_zero _⟩

/-- One slot of counters, a `HashMap` from keys to `u32` counts. -/
abbrev MetricsCounters (K : Type) := List (K × UInt32)

/-- The count of a key, zero when absent. -/
def MetricsCounters.count {K : Type} [DecidableEq K] (counters : MetricsCounters K) (key : K) :
    UInt32 :=
  (counters.lookup key).getD 0

/-- `gen_metrics_stack_item!`: add one to the key's count, inserting it at one. -/
def MetricsCounters.stackItem {K : Type} [DecidableEq K] :
    MetricsCounters K → K → MetricsCounters K
  | [], key => [(key, 1)]
  | (k, n) :: rest, key => if k = key then (k, n + 1) :: rest else (k, n) :: stackItem rest key

@[simp] theorem MetricsCounters.count_nil {K : Type} [DecidableEq K] (k : K) :
    MetricsCounters.count ([] : MetricsCounters K) k = 0 := rfl

theorem MetricsCounters.count_cons {K : Type} [DecidableEq K] (k' : K) (n : UInt32)
    (rest : MetricsCounters K) (k : K) :
    MetricsCounters.count ((k', n) :: rest) k = if k = k' then n else rest.count k := by
  by_cases h : k = k'
  · subst h
    simp [count, List.lookup]
  · have hb : (k == k') = false := beq_eq_false_iff_ne.mpr h
    simp [count, List.lookup, hb, h]

@[simp] theorem MetricsCounters.count_stackItem {K : Type} [DecidableEq K]
    (counters : MetricsCounters K) (key k : K) :
    (counters.stackItem key).count k = if k = key then counters.count k + 1 else counters.count k := by
  induction counters with
  | nil => by_cases h : k = key <;> simp [stackItem, count_cons, h]
  | cons p rest ih =>
    obtain ⟨k', n⟩ := p
    by_cases hk : k' = key
    · subst hk
      by_cases h : k = k' <;> simp [stackItem, count_cons, h]
    · rw [stackItem, if_neg hk, count_cons, count_cons, ih]
      by_cases h : k = k'
      · subst h
        simp [hk]
      · simp [h]

theorem MetricsCounters.stackItem_eq_addCount {K : Type} [DecidableEq K]
    (counters : MetricsCounters K) (key : K) : counters.stackItem key = Data.addCount counters key 1 := by
  induction counters with
  | nil => rfl
  | cons entry rest ih =>
    obtain ⟨k, n⟩ := entry
    simp only [stackItem, Data.addCount, ih]

/-- `MetricsStoreZone`: the slots of one zone, the current minute first. -/
structure MetricsStoreZone (Country : Type) where
  queryType : Fin (METRICS_BACKLOG_MINUTES + 1) → MetricsCounters (Option RecordType)
  queryOrigin : Fin (METRICS_BACKLOG_MINUTES + 1) → MetricsCounters (Option Country)
  answerCode : Fin (METRICS_BACKLOG_MINUTES + 1) → MetricsCounters (Option CodeName)

def MetricsStoreZone.new {Country : Type} : MetricsStoreZone Country := ⟨fun _ => [], fun _ => [], fun _ => []⟩

inductive MetricsType
  | QueryType | QueryOrigin | AnswerCode
  deriving DecidableEq, Repr

inductive MetricsTimespan
  | OneMinute | FiveMinutes | FifteenMinutes
  deriving DecidableEq, Repr

def MetricsTimespan.asMinutes : MetricsTimespan → UInt8
  | .OneMinute => 1
  | .FiveMinutes => 5
  | .FifteenMinutes => 15

/-- The slot at `index`; the source only indexes slots below `METRICS_BACKLOG_MINUTES + 1`. -/
def slotAt (index : ℕ) : Fin (METRICS_BACKLOG_MINUTES + 1) := Fin.ofNat _ index

/-- `gen_metrics_tick_perform_item!`: from the last slot down, each slot takes the one
before it, and the current slot starts empty. -/
def tickPerformItem {K : Type} (store : Fin (METRICS_BACKLOG_MINUTES + 1) → MetricsCounters K) :
    Fin (METRICS_BACKLOG_MINUTES + 1) → MetricsCounters K :=
  Function.update ((List.range METRICS_BACKLOG_MINUTES).reverse.foldl (fun store index =>
    Function.update store (slotAt (index + 1)) (store (slotAt index))) store) 0 []

/-- The text a key is aggregated under: its own in lowercase, and `other` for none. -/
def aggregateKey {K : Type} (toStr : K → String) : Option K → String
  | some keyInner => String.ofList (Text.toLowercase (toStr keyInner).toList)
  | none => "other"

/-- `gen_metrics_aggregate_item!`: the counts of the slots `1` to `min(limit, 15)`, added up
by the text of their keys. -/
def aggregateItem {K : Type} (toStr : K → String)
    (store : Fin (METRICS_BACKLOG_MINUTES + 1) → MetricsCounters (Option K)) (limit : UInt8) :
    MetricsCounters String :=
  (List.range' 1 (min limit.toNat METRICS_BACKLOG_MINUTES)).foldl (fun aggregatedMap index =>
    Data.addAll (aggregateKey toStr) aggregatedMap (store (slotAt index))) []

section ZoneStore

variable {Country : Type} [DecidableEq Country]

/-- What `MetricsStore::stack` does to the store of its zone. -/
def MetricsStoreZone.stackValue (zoneStore : MetricsStoreZone Country) :
    MetricsValue Country → MetricsStoreZone Country
  | .QueryType recordType =>
    { zoneStore with queryType :=
        Function.update zoneStore.queryType 0 ((zoneStore.queryType 0).stackItem recordType) }
  | .QueryOrigin originCountry =>
    { zoneStore with queryOrigin :=
        Function.update zoneStore.queryOrigin 0 ((zoneStore.queryOrigin 0).stackItem originCountry) }
  | .AnswerCode code =>
    { zoneStore with answerCode :=
        Function.update zoneStore.answerCode 0 ((zoneStore.answerCode 0).stackItem code) }

/-- What `DNSMetricsTick::perform` does to the store of each zone. -/
def MetricsStoreZone.tick (zoneStore : MetricsStoreZone Country) : MetricsStoreZone Country :=
  ⟨tickPerformItem zoneStore.queryType, tickPerformItem zoneStore.queryOrigin,
    tickPerformItem zoneStore.answerCode⟩

end ZoneStore

/-- `METRICS_STORE`, by zone. -/
abbrev MetricsStore (Country : Type) := ZoneName → Option (MetricsStoreZone Country)

namespace MetricsStore

variable {Country : Type} [DecidableEq Country]

/-- `MetricsStore::stack`: create the zone's slots if needed, then count in the current
slot. -/
def stack (store : MetricsStore Country) (zoneName : ZoneName) (metricsValue : MetricsValue Country) :
    MetricsStore Country :=
  let zoneStore := (store zoneName).getD MetricsStoreZone.new
  Function.update store zoneName <| some <|
    match metricsValue with
    | .QueryType recordType =>
      { zoneStore with queryType :=
          Function.update zoneStore.queryType 0 ((zoneStore.queryType 0).stackItem recordType) }
    | .QueryOrigin originCountry =>
      { zoneStore with queryOrigin :=
          Function.update zoneStore.queryOrigin 0 ((zoneStore.queryOrigin 0).stackItem originCountry) }
    | .AnswerCode code =>
      { zoneStore with answerCode :=
          Function.update zoneStore.answerCode 0 ((zoneStore.answerCode 0).stackItem code) }

/-- `stack`, value after value. -/
def stackAll (store : MetricsStore Country) (zoneName : ZoneName)
    (metricsValues : List (MetricsValue Country)) : MetricsStore Country :=
  metricsValues.foldl (fun store metricsValue => store.stack zoneName metricsValue) store

@[simp] theorem stackAll_nil (store : MetricsStore Country) (zoneName : ZoneName) :
    store.stackAll zoneName [] = store := rfl

@[simp] theorem stackAll_cons (store : MetricsStore Country) (zoneName : ZoneName)
    (metricsValue : MetricsValue Country) (metricsValues : List (MetricsValue Country)) :
    store.stackAll zoneName (metricsValue :: metricsValues) =
      (store.stack zoneName metricsValue).stackAll zoneName metricsValues := rfl

@[simp] theorem stackAll_append (store : MetricsStore Country) (zoneName : ZoneName)
    (first second : List (MetricsValue Country)) :
    store.stackAll zoneName (first ++ second) =
      (store.stackAll zoneName first).stackAll zoneName second := by
  simp [stackAll, List.foldl_append]

/-- The current count of a query type of a zone. -/
def queryTypeCount (store : MetricsStore Country) (zoneName : ZoneName) (recordType : Option RecordType) :
    UInt32 :=
  MetricsCounters.count ((store zoneName).elim [] fun z => z.queryType 0) recordType

def queryOriginCount (store : MetricsStore Country) (zoneName : ZoneName) (country : Option Country) :
    UInt32 :=
  MetricsCounters.count ((store zoneName).elim [] fun z => z.queryOrigin 0) country

def answerCodeCount (store : MetricsStore Country) (zoneName : ZoneName) (code : Option CodeName) :
    UInt32 :=
  MetricsCounters.count ((store zoneName).elim [] fun z => z.answerCode 0) code

/-- `MetricsStore::aggregate`: for a zone that the configuration has as written, the counts of
one kind over a timespan, none for another zone; `countryToStr` is `CountryCode::to_str`. -/
def aggregate (dns : ConfigDNS) (countryToStr : Country → String) (store : MetricsStore Country)
    (zoneName : ZoneName) (metricsType : MetricsType) (metricsTimespan : MetricsTimespan) :
    Option (MetricsCounters String) :=
  if dns.zoneExists zoneName.toStr = true then
    some <| match store zoneName with
      | some zoneStore =>
        match metricsType with
        | .QueryType => aggregateItem RecordType.toStr zoneStore.queryType metricsTimespan.asMinutes
        | .QueryOrigin =>
          aggregateItem countryToStr zoneStore.queryOrigin metricsTimespan.asMinutes
        | .AnswerCode => aggregateItem CodeName.toStr zoneStore.answerCode metricsTimespan.asMinutes
      | none => []
  else none

end MetricsStore

/-- `DNSMetricsTick::perform`: the slots of every zone slide one minute. -/
def DNSMetricsTick.perform {Country : Type} (store : MetricsStore Country) : MetricsStore Country :=
  fun zoneName => (store zoneName).map fun zoneStore =>
    ⟨tickPerformItem zoneStore.queryType, tickPerformItem zoneStore.queryOrigin,
      tickPerformItem zoneStore.answerCode⟩

end Constellation.Dns
