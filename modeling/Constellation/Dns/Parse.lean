import Constellation.World
import Constellation.Monad.Local

/-! # The answers of one stored record

`parse_from_records` turns a record read from the store into answer records. It
locates the source when the record is location-aware and counts the origin; it
drops the answer for a blackholed country; it picks the values of the source's
region; it skips the values a health check found dead, falling back on the
rescue values; it flattens a CNAME through the flatten registry; and it converts
each value into record data, which may panic for TXT.
-/

namespace Constellation.Dns

open Store Cache TaskM

variable {Country Addr : Type}

/-- `DNS_FLATTEN.pass`: the clock is read on a hit, and a miss queues the key. -/
def flattenPass (recordType : RecordType) (recordValue : RecordValue) (recordTtl : UInt32) :
    TaskM Country (Except Unit RecordValues) := do
  match (← getThe (World Country)).registry (recordValue, recordType) with
  | some _ =>
    let now ← readClock
    modifyGet fun w =>
      let (result, registry, bootstrap) :=
        DNSFlatten.pass w.registry w.bootstrap recordType recordValue recordTtl now
      (result, { w with registry, bootstrap })
  | none =>
    modifyGet fun w =>
      let (result, bootstrap) := DNSFlatten.queue w.bootstrap (recordValue, recordType) recordTtl
      (result, { w with bootstrap })

/-- The flattening loop: pass each value, and keep what the passes return, without
duplicates; the flag records that some pass succeeded. -/
def flattenValues (recordType : RecordType) (recordTtl : UInt32) :
    List RecordValue → List RecordValue → Bool → TaskM Country (List RecordValue × Bool)
  | [], flatValuesList, hasFlattened => pure (flatValuesList, hasFlattened)
  | preparedValue :: rest, flatValuesList, hasFlattened => do
    match ← flattenPass recordType preparedValue recordTtl with
    | .ok flatPass =>
      let flatValuesList := flatPass.foldl
        (fun acc flatValue => if acc.contains flatValue then acc else acc ++ [flatValue])
        flatValuesList
      flattenValues recordType recordTtl rest flatValuesList true
    | .error () => flattenValues recordType recordTtl rest flatValuesList hasFlattened

variable (env : Env Country Addr)

/-- The loop that converts each final value and appends its record; a value that does
not convert is skipped, and a panic ends the task. -/
def appendValues (owner : Name) (recordTtl : UInt32) (finalKind : RecordType)
    (finalType : HickoryRecordType) : List RecordValue → List Record → TaskM Country (List Record)
  | [], records => pure records
  | value :: rest, records =>
    match value.toHickory env.parser finalKind with
    | .error panic => throw panic
    | .ok (.ok valueData) =>
      appendValues owner recordTtl finalKind finalType rest
        (records ++ [⟨owner, recordTtl, finalType, valueData⟩])
    | .ok (.error ()) => appendValues owner recordTtl finalKind finalType rest records

/-- What `parse_from_records` does for a record that is not blackholed: the values left
by the health check, or the rescue values, flattened for a flattened CNAME, converted. -/
def pushValues (queryNameClient : LowerName) (queryType : HickoryRecordType)
    (recordType : RecordType) (zoneName : ZoneName) (record : StoreRecord Country)
    (values : RecordValues) (records : List Record) : TaskM Country (List Record) := do
  let recordTtl := record.ttl.getD env.conf.dns.recordTtl
  let dead := (← getThe (World Country)).dead
  let preparedValues := values.filter fun value =>
    DNSHealth.status env.conf.dns.health dead zoneName recordType record.name value ≠ .Dead
  let preparedValues :=
    if preparedValues.isEmpty then preparedValues ++ record.rescue.getD [] else preparedValues
  let flatValues ←
    if record.kind = .CNAME ∧ record.flatten = some true then
      if recordType = .CNAME then pure (some [])
      else do
        let (flatValuesList, hasFlattened) ← flattenValues recordType recordTtl preparedValues [] false
        pure (if hasFlattened then some flatValuesList else none)
    else pure none
  match flatValues with
  | some flatValuesList =>
    appendValues env queryNameClient.toName recordTtl recordType queryType flatValuesList records
  | none =>
    appendValues env queryNameClient.toName recordTtl record.kind record.kind.toHickory
      preparedValues records

/-- The country of the source, looked up only for a location-aware record. -/
def ipCountryOf (record : StoreRecord Country) (source : Addr) : Option Country :=
  if record.blackhole.isSome || record.regions.isSome then env.locate source else none

/-- The country is in the record's blackhole. -/
def isBlackholed [DecidableEq Country] (record : StoreRecord Country)
    (ipCountry : Option Country) : Bool :=
  match record.blackhole, ipCountry with
  | some blackhole, some ipCountry => blackhole.hasCountry ipCountry
  | _, _ => false

/-- The values of the source's region, or the global values. -/
def pickValues (record : StoreRecord Country) (ipCountry : Option Country) : RecordValues :=
  match record.regions, ipCountry with
  | some regions, some country => (regions.forRegion (env.regionOf country)).getD record.values
  | _, _ => record.values

variable [DecidableEq Country]

/-- `DNSHandler::parse_from_records`: the records after `records` are the answers of
`record`. -/
def parseFromRecords (queryNameClient : LowerName) (queryType : HickoryRecordType)
    (recordType : RecordType) (source : Addr) (zoneName : ZoneName) (record : StoreRecord Country)
    (records : List Record) : TaskM Country (List Record) := do
  let ipCountry := ipCountryOf env record source
  modify fun w => { w with metrics := w.metrics.stack zoneName (.QueryOrigin ipCountry) }
  if isBlackholed record ipCountry = false then
    pushValues env queryNameClient queryType recordType zoneName record
      (pickValues env record ipCountry) records
  else
    pure records

end Constellation.Dns

namespace Constellation

/-- The world without its metrics. -/
def World.forgetMetrics {Country : Type} (w : World Country) : World Country :=
  { w with metrics := fun _ => none }

/-- The world with the given metrics and responses sent. -/
def World.setReply {Country : Type} (metrics : Dns.MetricsStore Country)
    (sent : List Dns.Message) (w : World Country) : World Country :=
  { w with metrics, sent }

theorem World.setReply_eq_self_iff {Country : Type} {metrics : Dns.MetricsStore Country}
    {sent : List Dns.Message} {w : World Country} :
    w.setReply metrics sent = w ↔ w.metrics = metrics ∧ w.sent = sent := by
  cases w
  simp only [World.setReply, World.mk.injEq]
  tauto

namespace Dns

open Store Cache TaskM

variable {Country Addr : Type}

/-! ## The answers do not read the metrics or what was sent

Nor do they write them: the answers of a record commute with setting both. -/

section SetReply

variable (metrics : MetricsStore Country) (sent : List Message)

theorem keepsIo_setReply : KeepsIo (World.setReply metrics sent) :=
  ⟨fun _ => rfl, fun _ => rfl, fun _ _ _ => rfl, fun _ _ => rfl⟩

theorem commutes_flattenPass (recordType : RecordType) (recordValue : RecordValue)
    (recordTtl : UInt32) :
    Commutes (World.setReply metrics sent)
      (flattenPass recordType recordValue recordTtl : TaskM Country _) := by
  unfold flattenPass
  refine Commutes.get_bind (fun w => rfl) fun w => ?_
  split
  · exact (commutes_readClock (keepsIo_setReply metrics sent)).bind fun now =>
      Commutes.modifyGet fun w => by dsimp only [World.setReply]
  · exact Commutes.modifyGet fun w => by dsimp only [World.setReply]

theorem commutes_flattenValues (recordType : RecordType) (recordTtl : UInt32) :
    ∀ (preparedValues flatValuesList : List RecordValue) (hasFlattened : Bool),
      Commutes (World.setReply metrics sent)
        (flattenValues recordType recordTtl preparedValues flatValuesList hasFlattened :
          TaskM Country _)
  | [], _, _ => Commutes.pure _
  | preparedValue :: rest, flatValuesList, hasFlattened => by
    unfold flattenValues
    refine (commutes_flattenPass metrics sent _ _ _).bind fun result => ?_
    cases result with
    | ok flatPass => exact commutes_flattenValues recordType recordTtl rest _ true
    | error _ => exact commutes_flattenValues recordType recordTtl rest flatValuesList hasFlattened

variable (env : Env Country Addr)

theorem commutes_appendValues (owner : Name) (recordTtl : UInt32) (finalKind : RecordType)
    (finalType : HickoryRecordType) :
    ∀ (values : List RecordValue) (records : List Record),
      Commutes (World.setReply metrics sent)
        (appendValues env owner recordTtl finalKind finalType values records)
  | [], _ => Commutes.pure _
  | value :: rest, records => by
    unfold appendValues
    split
    · exact Commutes.throw _
    · exact commutes_appendValues owner recordTtl finalKind finalType rest _
    · exact commutes_appendValues owner recordTtl finalKind finalType rest records

theorem commutes_pushValues (queryNameClient : LowerName) (queryType : HickoryRecordType)
    (recordType : RecordType) (zoneName : ZoneName) (record : StoreRecord Country)
    (values : RecordValues) (records : List Record) :
    Commutes (World.setReply metrics sent)
      (pushValues env queryNameClient queryType recordType zoneName record values records) := by
  unfold pushValues
  refine Commutes.get_bind (fun w => rfl) fun w => ?_
  dsimp only
  refine Commutes.ite (fun _ => Commutes.ite (fun _ => ?_) fun _ => ?_) fun _ => ?_
  · refine (Commutes.pure _).bind fun flatValues => ?_
    split <;> exact commutes_appendValues metrics sent env _ _ _ _ _ _
  · refine (commutes_flattenValues metrics sent _ _ _ _ _).bind fun _ =>
      (Commutes.pure _).bind fun flatValues => ?_
    split <;> exact commutes_appendValues metrics sent env _ _ _ _ _ _
  · refine (Commutes.pure _).bind fun flatValues => ?_
    split <;> exact commutes_appendValues metrics sent env _ _ _ _ _ _

end SetReply

variable (env : Env Country Addr) [DecidableEq Country]

/-- The answers of `parse_from_records` are those of its second part, run without the
metrics: counting the origin changes nothing that follows. -/
theorem outcome_parseFromRecords (queryNameClient : LowerName) (queryType : HickoryRecordType)
    (recordType : RecordType) (source : Addr) (zoneName : ZoneName) (record : StoreRecord Country)
    (records : List Record) (w : World Country) :
    outcome ((parseFromRecords env queryNameClient queryType recordType source zoneName record
        records).run w) =
      outcome ((if isBlackholed record (ipCountryOf env record source) = false then
          pushValues env queryNameClient queryType recordType zoneName record
            (pickValues env record (ipCountryOf env record source)) records
        else pure records : TaskM Country _).run w.forgetMetrics) := by
  have hk : Commutes (World.setReply (fun _ => none) w.sent)
      (if isBlackholed record (ipCountryOf env record source) = false then
          pushValues env queryNameClient queryType recordType zoneName record
            (pickValues env record (ipCountryOf env record source)) records
        else pure records : TaskM Country _) :=
    Commutes.ite (fun _ => commutes_pushValues _ _ env _ _ _ _ _ _ _) fun _ => Commutes.pure _
  unfold parseFromRecords
  rw [EStateM.run_bind]
  exact hk.outcome_eq rfl

/-! ## What the answers of a record change -/

omit [DecidableEq Country] in
theorem keeps_reply_pushValues (queryNameClient : LowerName) (queryType : HickoryRecordType)
    (recordType : RecordType) (zoneName : ZoneName) (record : StoreRecord Country)
    (values : RecordValues) (records : List Record) (s : World Country) :
    Keeps (fun t => t.metrics = s.metrics ∧ t.sent = s.sent)
      (pushValues env queryNameClient queryType recordType zoneName record values records) := by
  simpa only [World.setReply_eq_self_iff] using
    (commutes_pushValues s.metrics s.sent env queryNameClient queryType recordType zoneName record
      values records).keeps_fixed

/-- `parse_from_records` counts the origin of the query, and changes no other metric and
sends nothing. -/
theorem returns_parseFromRecords (queryNameClient : LowerName) (queryType : HickoryRecordType)
    (recordType : RecordType) (source : Addr) (zoneName : ZoneName) (record : StoreRecord Country)
    (records : List Record) :
    Returns (fun s _ t => t.sent = s.sent ∧
        t.metrics = s.metrics.stack zoneName (.QueryOrigin (ipCountryOf env record source)))
      (parseFromRecords env queryNameClient queryType recordType source zoneName record records) := by
  unfold parseFromRecords
  dsimp only
  refine Returns.bind (P := fun s _ t => t = { s with
      metrics := s.metrics.stack zoneName (.QueryOrigin (ipCountryOf env record source)) })
    (Q := fun _ s _ t => t.metrics = s.metrics ∧ t.sent = s.sent)
    (Returns.modifyGet fun s => rfl) (fun _ => ?_) ?_
  · exact Returns.ite (fun _ => Returns.of_keeps (keeps_reply_pushValues env _ _ _ _ _ _ _)
      fun s => ⟨rfl, rfl⟩) fun _ => Returns.pure fun s => ⟨rfl, rfl⟩
  · rintro s _ t _ u rfl ⟨hm, hs⟩
    exact ⟨hs, hm⟩

/-- A record whose blackhole holds the country of the source adds no answer. -/
theorem returns_parseFromRecords_of_blackholed (queryNameClient : LowerName)
    (queryType : HickoryRecordType) (recordType : RecordType) (source : Addr) (zoneName : ZoneName)
    {record : StoreRecord Country} (records : List Record)
    (h : isBlackholed record (ipCountryOf env record source) = true) :
    Returns (fun _ result _ => result = records)
      (parseFromRecords env queryNameClient queryType recordType source zoneName record records) := by
  unfold parseFromRecords
  dsimp only
  refine Returns.bind (P := fun _ _ _ => True) (Q := fun _ _ result _ => result = records)
    (Returns.modifyGet fun _ => trivial) (fun _ => ?_) fun _ _ _ _ _ _ h => h
  rw [if_neg (by simp [h])]
  exact Returns.pure fun _ => rfl

/-! ## What the answers of a record keep

Besides counting the origin, the answers of a record read the clock and set the flatten
registry and queue; an invariant that these keep is kept by `parse_from_records`. -/

/-- `I` is kept by what the answers of a record do to the world. -/
structure AnswersKeep (I : World Country → Prop) : Prop where
  readClock : Keeps I (readClock : TaskM Country ℕ)
  flatten : ∀ w registry bootstrap, I w → I { w with registry, bootstrap }
  metrics : ∀ w (metrics : MetricsStore Country), I w → I { w with metrics }

section AnswersKeep

variable {I : World Country → Prop} (hI : AnswersKeep I)
include hI

omit [DecidableEq Country] in
theorem keeps_flattenPass (recordType : RecordType) (recordValue : RecordValue)
    (recordTtl : UInt32) : Keeps I (flattenPass recordType recordValue recordTtl : TaskM Country _) := by
  unfold flattenPass
  refine Ensures.get_bind fun w _ => ?_
  split
  · exact hI.readClock.bind fun now _ =>
      Ensures.modifyGet fun w hw => ⟨hI.flatten w _ _ hw, trivial⟩
  · exact Ensures.modifyGet fun w hw => ⟨hI.flatten w w.registry _ hw, trivial⟩

omit [DecidableEq Country] in
theorem keeps_flattenValues (recordType : RecordType) (recordTtl : UInt32) :
    ∀ (preparedValues flatValuesList : List RecordValue) (hasFlattened : Bool),
      Keeps I (flattenValues recordType recordTtl preparedValues flatValuesList hasFlattened :
        TaskM Country _)
  | [], _, _ => Ensures.pure trivial
  | preparedValue :: rest, flatValuesList, hasFlattened => by
    unfold flattenValues
    refine (keeps_flattenPass hI _ _ _).bind fun result _ => ?_
    cases result with
    | ok flatPass => exact keeps_flattenValues recordType recordTtl rest _ true
    | error _ => exact keeps_flattenValues recordType recordTtl rest flatValuesList hasFlattened

omit [DecidableEq Country] hI in
theorem keeps_appendValues (owner : Name) (recordTtl : UInt32) (finalKind : RecordType)
    (finalType : HickoryRecordType) :
    ∀ (values : List RecordValue) (records : List Record),
      Keeps I (appendValues env owner recordTtl finalKind finalType values records)
  | [], _ => Ensures.pure trivial
  | value :: rest, records => by
    unfold appendValues
    split
    · exact Ensures.throw _
    · exact keeps_appendValues owner recordTtl finalKind finalType rest _
    · exact keeps_appendValues owner recordTtl finalKind finalType rest records

omit [DecidableEq Country] in
theorem keeps_pushValues (queryNameClient : LowerName) (queryType : HickoryRecordType)
    (recordType : RecordType) (zoneName : ZoneName) (record : StoreRecord Country)
    (values : RecordValues) (records : List Record) :
    Keeps I (pushValues env queryNameClient queryType recordType zoneName record values records) := by
  unfold pushValues
  refine Ensures.get_bind fun w _ => ?_
  dsimp only
  refine Ensures.ite (fun _ => Ensures.ite (fun _ => ?_) fun _ => ?_) fun _ => ?_
  · refine (Ensures.pure (Q := fun _ => True) trivial).bind fun flatValues _ => ?_
    split <;> exact keeps_appendValues env _ _ _ _ _ _
  · refine (keeps_flattenValues hI _ _ _ _ _).bind fun _ _ =>
      (Ensures.pure (Q := fun _ => True) trivial).bind fun flatValues _ => ?_
    split <;> exact keeps_appendValues env _ _ _ _ _ _
  · refine (Ensures.pure (Q := fun _ => True) trivial).bind fun flatValues _ => ?_
    split <;> exact keeps_appendValues env _ _ _ _ _ _

/-- `parse_from_records` keeps `I`; it adds answers only for a record that is not
blackholed. -/
theorem ensures_parseFromRecords (queryNameClient : LowerName) (queryType : HickoryRecordType)
    (recordType : RecordType) (source : Addr) (zoneName : ZoneName) (record : StoreRecord Country)
    (records : List Record) :
    Ensures I (fun result => isBlackholed record (ipCountryOf env record source) = false ∨
        result = records)
      (parseFromRecords env queryNameClient queryType recordType source zoneName record records) := by
  unfold parseFromRecords
  dsimp only
  refine (Keeps.modify fun w hw => hI.metrics w _ hw).bind fun _ _ => ?_
  refine Ensures.ite (fun hb => ?_) fun _ => Ensures.pure (Or.inr rfl)
  exact (keeps_pushValues env hI _ _ _ _ _ _ _).mono fun _ _ => Or.inl hb

end AnswersKeep

/-! ## Records read back from the store -/

/-- An empty blackhole blackholes no country, so dropping it changes nothing. -/
theorem isBlackholed_normalize (record : StoreRecord Country) (source : Addr) :
    isBlackholed record.normalize (ipCountryOf env record.normalize source) =
      isBlackholed record (ipCountryOf env record source) := by
  cases hb : record.blackhole with
  | none =>
    have hn : record.normalize.blackhole = none := by simp [StoreRecord.normalize, hb]
    cases ipCountryOf env record.normalize source <;> cases ipCountryOf env record source <;>
      simp only [isBlackholed, hn, hb]
  | some blackhole =>
    by_cases hi : blackhole.hasItems
    · have hn : record.normalize.blackhole = some blackhole := by
        simp [StoreRecord.normalize, hb, Option.filter_some, hi]
      have hc : ipCountryOf env record.normalize source = ipCountryOf env record source := by
        simp [ipCountryOf, hn, hb]
      rw [hc]
      cases ipCountryOf env record source <;> simp only [isBlackholed, hn, hb]
    · have hn : record.normalize.blackhole = none := by
        simp [StoreRecord.normalize, hb, Option.filter_some, hi]
      have hempty : blackhole.countries = ∅ := by simpa [RecordBlackhole.hasItems] using hi
      cases ipCountryOf env record.normalize source <;> cases ipCountryOf env record source <;>
        simp [isBlackholed, hn, hb, RecordBlackhole.hasCountry, hempty]

/-- The regions are kept as they are, so the values picked are the same. -/
theorem pickValues_normalize (record : StoreRecord Country) (source : Addr) :
    pickValues env record.normalize (ipCountryOf env record.normalize source) =
      pickValues env record (ipCountryOf env record source) := by
  unfold pickValues
  cases hr : record.regions with
  | none =>
    cases ipCountryOf env record.normalize source <;> cases ipCountryOf env record source <;>
      simp [StoreRecord.normalize, hr]
  | some regions => simp [StoreRecord.normalize, ipCountryOf, hr]

theorem getD_filter_rescue (rescue : Option RecordValues) :
    (rescue.filter fun rescue => !rescue.isEmpty).getD [] = rescue.getD [] := by
  cases rescue with
  | none => rfl
  | some values =>
    cases values with
    | nil => rfl
    | cons value rest => rfl

theorem normalize_flatten_eq_some_true (flatten : Option Bool) :
    ((if flatten = some true then some true else none) = some true) = (flatten = some true) := by
  by_cases h : flatten = some true <;> simp [h]

/-- The values pushed for a normalised record are those pushed for the record with its TTL
normalised only: a flatten flag that is not set, and rescue values that are empty, are
read as absent. -/
theorem pushValues_normalize (queryNameClient : LowerName) (queryType : HickoryRecordType)
    (recordType : RecordType) (zoneName : ZoneName) (record : StoreRecord Country)
    (values : RecordValues) (records : List Record) :
    pushValues env queryNameClient queryType recordType zoneName record.normalize values records =
      pushValues env queryNameClient queryType recordType zoneName
        { record with ttl := record.normalize.ttl } values records := by
  simp only [pushValues, StoreRecord.normalize, getD_filter_rescue,
    normalize_flatten_eq_some_true]
  rfl

/-- A normalised record gives the answers of the record with its TTL normalised. -/
theorem outcome_parseFromRecords_normalize (queryNameClient : LowerName)
    (queryType : HickoryRecordType) (recordType : RecordType) (source : Addr)
    (zoneName : ZoneName) (record : StoreRecord Country) (records : List Record)
    (w : World Country) :
    outcome ((parseFromRecords env queryNameClient queryType recordType source zoneName
        record.normalize records).run w) =
      outcome ((parseFromRecords env queryNameClient queryType recordType source zoneName
        { record with ttl := record.normalize.ttl } records).run w) := by
  rw [outcome_parseFromRecords, outcome_parseFromRecords, isBlackholed_normalize,
    pickValues_normalize, pushValues_normalize]
  rfl

/-- The record read back from the hash that `Store::set` wrote, over whatever the key held, is
served as the record written, with a zero TTL read as absent. -/
theorem served_after_store_round_trip (hs : env.serde.Lawful) {record : StoreRecord Country}
    {fields : List (String × String)} (he : record.encode env.serde = some fields)
    (hash : Option RedisHash) :
    ∃ decoded, (StoreGetType.fromRedis (some (hsetMultiple hash fields))).bind
        (StoreRecord.decode env.serde) = some decoded ∧
      ∀ queryNameClient queryType recordType source zoneName records (w : World Country),
        outcome ((parseFromRecords env queryNameClient queryType recordType source zoneName
            decoded records).run w) =
          outcome ((parseFromRecords env queryNameClient queryType recordType source zoneName
            { record with ttl := record.ttl.filter (· ≠ 0) } records).run w) := by
  refine ⟨record.normalize, decode_fromRedis_hsetMultiple hs he hash, ?_⟩
  intro queryNameClient queryType recordType source zoneName records w
  exact outcome_parseFromRecords_normalize env queryNameClient queryType recordType source
    zoneName record records w

/-- Surroundings that parse every value as it is written. -/
def parsedEnv : Env Unit Unit where
  conf :=
    { dns :=
      { nameservers := ["ns.example.net"]
        soaMaster := "ns.example.net"
        soaResponsible := "hostmaster.example.net" } }
  fingerprint32 := fun _ => 0
  serde := smallSerde
  parser := fun recordType text => some (.Parsed recordType text)
  locate := fun _ => none
  regionOf := fun _ => .WEU

def rootLowerName : LowerName := ⟨[], wireLen_nil_le, by simp⟩

def servedZone : ZoneName := exampleZoneName

def zeroTtlRecord : StoreRecord Unit :=
  ⟨.A, exampleRecordName, some 0, none, none, none, none, [⟨"192.0.2.1"⟩]⟩

theorem served_after_store_round_trip_zeroTtl :
    parsedEnv.serde.Lawful ∧ ∃ fields, zeroTtlRecord.encode parsedEnv.serde = some fields ∧
      ∃ decoded, (StoreGetType.fromRedis (some (hsetMultiple none fields))).bind
          (StoreRecord.decode parsedEnv.serde) = some decoded ∧
        ∀ queryNameClient queryType recordType source zoneName records (w : World Unit),
          outcome ((parseFromRecords parsedEnv queryNameClient queryType recordType source
              zoneName decoded records).run w) =
            outcome ((parseFromRecords parsedEnv queryNameClient queryType recordType source
              zoneName { zeroTtlRecord with ttl := zeroTtlRecord.ttl.filter (· ≠ 0) } records).run w) :=
  ⟨smallSerde_lawful, _, rfl, served_after_store_round_trip parsedEnv smallSerde_lawful rfl none⟩

/-- A TTL of zero is written as "0" and read back as absent: the record read back is served
with the configured record TTL, the record written with a TTL of zero. -/
theorem zero_ttl_served_with_record_ttl :
    ∃ fields decoded, zeroTtlRecord.encode parsedEnv.serde = some fields ∧
      (StoreGetType.fromRedis (some (hsetMultiple none fields))).bind
        (StoreRecord.decode parsedEnv.serde) = some decoded ∧
      outcome ((parseFromRecords parsedEnv rootLowerName .A .A () servedZone decoded []).run
        (World.init [] 0 {})) = .ok [⟨rootLowerName.toName, 3600, .A, .Parsed .A "192.0.2.1"⟩] ∧
      outcome ((parseFromRecords parsedEnv rootLowerName .A .A () servedZone zeroTtlRecord []).run
        (World.init [] 0 {})) = .ok [⟨rootLowerName.toName, 0, .A, .Parsed .A "192.0.2.1"⟩] :=
  ⟨_, _, rfl, rfl, rfl, rfl⟩

end Dns

end Constellation
