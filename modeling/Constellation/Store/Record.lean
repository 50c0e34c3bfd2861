import Constellation.Text.Format
import Constellation.Dns.Record

/-! # Store records and their Redis hashes

`Store::set` writes a record as a Redis hash of eight text fields, and
`Store::raw_get_remote` reads the eight fields back. TTL, flatten, blackhole and
rescue have conventions of their own: an absent TTL is written `0`, an empty
blackhole or rescue list is written as the empty text, and reading turns `0`
and the empty text back into `None`. So a record reads back as its
normalisation. serde_json is a parameter, with the laws the round trip uses.
-/

namespace Constellation.Store

open Dns Text

/-- `StoreRecord`. -/
structure StoreRecord (Country : Type) where
  kind : RecordType
  name : RecordName
  ttl : Option UInt32
  flatten : Option Bool
  blackhole : Option (RecordBlackhole Country)
  regions : Option RecordRegions
  rescue : Option RecordValues
  values : RecordValues
  deriving DecidableEq

inductive StoreError
  | Corrupted | Encoding | Connector | NotFound | Disconnected
  deriving DecidableEq, Repr

inductive StoreAccessOrigin
  | External | Internal
  deriving DecidableEq, Repr

/-- serde_json on the parts stored as JSON: `to_string` may fail and `from_str` may reject. -/
structure Serde (Country : Type) where
  valuesToString : RecordValues → Option String
  valuesFromStr : String → Option RecordValues
  blackholeToString : RecordBlackhole Country → Option String
  blackholeFromStr : String → Option (RecordBlackhole Country)
  regionsToString : RecordRegions → Option String
  regionsFromStr : String → Option RecordRegions

/-- What the round trip needs of serde_json: what it writes it reads back, and the empty
text is not JSON. -/
structure Serde.Lawful {Country : Type} (serde : Serde Country) : Prop where
  values_roundTrip : ∀ v s, serde.valuesToString v = some s → serde.valuesFromStr s = some v
  blackhole_roundTrip : ∀ b s, serde.blackholeToString b = some s → serde.blackholeFromStr s = some b
  regions_roundTrip : ∀ r s, serde.regionsToString r = some s → serde.regionsFromStr s = some r
  values_empty : serde.valuesFromStr "" = none
  blackhole_empty : serde.blackholeFromStr "" = none
  regions_empty : serde.regionsFromStr "" = none

/-- A Redis hash: field to value. -/
abbrev RedisHash := String → Option String

def KEY_TYPE : String := "t"
def KEY_NAME : String := "n"
def KEY_TTL : String := "e"
def KEY_FLATTEN : String := "m"
def KEY_BLACKHOLE : String := "b"
def KEY_REGION : String := "r"
def KEY_RESCUE : String := "f"
def KEY_VALUE : String := "v"

/-- `hset_multiple`: the fields written replace those of the hash, if any. -/
def hsetMultiple (hash : Option RedisHash) (fields : List (String × String)) : RedisHash :=
  fun field => (fields.lookup field).or ((hash.bind fun h => h field))

/-- `StoreGetType`, the eight fields as `hget` converts them. -/
structure StoreGetType where
  kind : String
  name : String
  ttl : ℕ
  flatten : Option String
  blackhole : Option String
  region : Option String
  rescue : Option String
  value : String

/-- The conversion of the reply to `HGET` on the eight fields into `StoreGetType`; `none` is
the client's `TypeError`, which an absent key gives as all its fields are nil. -/
def StoreGetType.fromRedis (hash : Option RedisHash) : Option StoreGetType := do
  let h ← hash
  let kind ← h KEY_TYPE
  let name ← h KEY_NAME
  let ttl ← (h KEY_TTL).bind fun raw => parseU32 raw.toList
  let value ← h KEY_VALUE
  pure ⟨kind, name, ttl, h KEY_FLATTEN, h KEY_BLACKHOLE, h KEY_REGION, h KEY_RESCUE, value⟩

variable {Country : Type} [DecidableEq Country]

/-- `flatten_encoder`. -/
def flattenEncoder (flatten : Option Bool) : String :=
  if flatten = some true then "1" else ""

/-- `blackhole_encoder`: only a blackhole with countries is written. -/
def blackholeEncoder (serde : Serde Country) : Option (RecordBlackhole Country) → Option String
  | some blackhole => if blackhole.hasItems then serde.blackholeToString blackhole else some ""
  | none => some ""

/-- `region_encoder`. -/
def regionEncoder (serde : Serde Country) : Option RecordRegions → Option String
  | some regions => serde.regionsToString regions
  | none => some ""

/-- `rescue_encoder`: only a non-empty rescue list is written. -/
def rescueEncoder (serde : Serde Country) : Option RecordValues → Option String
  | some rescue => if !rescue.isEmpty then serde.valuesToString rescue else some ""
  | none => some ""

/-- The fields `Store::set` writes, or `none` when an encoder fails (`StoreError::Encoding`). -/
def StoreRecord.encode (serde : Serde Country) (record : StoreRecord Country) :
    Option (List (String × String)) := do
  let values ← serde.valuesToString record.values
  let blackhole ← blackholeEncoder serde record.blackhole
  let regions ← regionEncoder serde record.regions
  let rescue ← rescueEncoder serde record.rescue
  pure [(KEY_TYPE, record.kind.toStr), (KEY_NAME, record.name.toStr),
    (KEY_TTL, String.ofList (Nat.toDigits 10 (record.ttl.getD 0).toNat)),
    (KEY_FLATTEN, flattenEncoder record.flatten), (KEY_BLACKHOLE, blackhole),
    (KEY_REGION, regions), (KEY_RESCUE, rescue), (KEY_VALUE, values)]

/-- The record `raw_get_remote` builds from the converted fields, `none` being
`StoreError::Corrupted`. -/
def StoreRecord.decode (serde : Serde Country) (values : StoreGetType) :
    Option (StoreRecord Country) :=
  match RecordType.fromStr values.kind, RecordName.fromStr values.name,
      serde.valuesFromStr values.value with
  | some kind, some name, some value =>
    some {
      kind, name
      ttl := if values.ttl > 0 then some values.ttl.toUInt32 else none
      flatten := values.flatten.bind fun raw => if raw = "1" then some true else none
      blackhole := values.blackhole.bind serde.blackholeFromStr
      regions := values.region.bind serde.regionsFromStr
      rescue := values.rescue.bind serde.valuesFromStr
      values := value }
  | _, _, _ => none

/-- `StoreRecord::list_record_values`: the values and the values of every region, each once
(the source collects them in a `HashSet`). -/
def StoreRecord.listRecordValues (record : StoreRecord Country) : List RecordValue :=
  (record.values ++ record.regions.elim [] fun regions =>
    [regions.nnam, regions.snam, regions.nsam, regions.ssam, regions.weu, regions.ceu,
      regions.eeu, regions.ru, regions.me, regions.naf, regions.maf, regions.saf, regions.seas,
      regions.neas, regions.oc, regions._in].flatMap fun values => values.getD []).dedup

/-- What a record reads back as: a zero TTL, a flatten other than `true`, an empty
blackhole and an empty rescue list all read as absent. -/
def StoreRecord.normalize (record : StoreRecord Country) : StoreRecord Country :=
  { record with
    ttl := record.ttl.filter (· ≠ 0)
    flatten := if record.flatten = some true then some true else none
    blackhole := record.blackhole.filter RecordBlackhole.hasItems
    rescue := record.rescue.filter fun rescue => !rescue.isEmpty }

theorem flattenEncoder_decode (flatten : Option Bool) :
    (if flattenEncoder flatten = "1" then some true else none) =
      if flatten = some true then some true else none := by
  unfold flattenEncoder
  split <;> simp

theorem blackholeEncoder_decode {serde : Serde Country} (hs : serde.Lawful)
    {blackhole : Option (RecordBlackhole Country)} {raw : String}
    (he : blackholeEncoder serde blackhole = some raw) :
    serde.blackholeFromStr raw = blackhole.filter RecordBlackhole.hasItems := by
  cases blackhole with
  | none =>
    cases he
    exact hs.blackhole_empty
  | some b =>
    by_cases hb : b.hasItems
    · rw [blackholeEncoder, if_pos hb] at he
      rw [hs.blackhole_roundTrip b raw he, Option.filter_some, if_pos hb]
    · rw [blackholeEncoder, if_neg hb] at he
      cases he
      rw [hs.blackhole_empty, Option.filter_some, if_neg hb]

omit [DecidableEq Country] in
theorem regionEncoder_decode {serde : Serde Country} (hs : serde.Lawful)
    {regions : Option RecordRegions} {raw : String} (he : regionEncoder serde regions = some raw) :
    serde.regionsFromStr raw = regions := by
  cases regions with
  | none =>
    cases he
    exact hs.regions_empty
  | some r => exact hs.regions_roundTrip r raw he

omit [DecidableEq Country] in
theorem rescueEncoder_decode {serde : Serde Country} (hs : serde.Lawful)
    {rescue : Option RecordValues} {raw : String} (he : rescueEncoder serde rescue = some raw) :
    serde.valuesFromStr raw = rescue.filter fun rescue => !rescue.isEmpty := by
  cases rescue with
  | none =>
    cases he
    exact hs.values_empty
  | some r =>
    by_cases hr : !r.isEmpty
    · rw [rescueEncoder, if_pos hr] at he
      rw [hs.values_roundTrip r raw he, Option.filter_some, if_pos hr]
    · rw [rescueEncoder, if_neg hr] at he
      cases he
      rw [hs.values_empty, Option.filter_some, if_neg hr]

theorem ttl_decode (ttl : Option UInt32) :
    (if (ttl.getD 0).toNat > 0 then some (ttl.getD 0).toNat.toUInt32 else none) =
      ttl.filter (· ≠ 0) := by
  cases ttl with
  | none => rfl
  | some t =>
    by_cases ht : t = 0
    · subst ht
      rfl
    · have hpos : 0 < t.toNat := by
        rw [Nat.pos_iff_ne_zero]
        exact fun h => ht (UInt32.toNat_inj.mp (by simpa using h))
      have hn : t.toNat.toUInt32 = t := UInt32.ofNat_toNat
      rw [Option.getD_some, if_pos hpos, hn, Option.filter_some, if_pos (by simpa using ht)]

theorem encode_eq_some {serde : Serde Country} {record : StoreRecord Country}
    {fields : List (String × String)} (he : record.encode serde = some fields) :
    ∃ values blackhole regions rescue, serde.valuesToString record.values = some values ∧
      blackholeEncoder serde record.blackhole = some blackhole ∧
      regionEncoder serde record.regions = some regions ∧
      rescueEncoder serde record.rescue = some rescue ∧
      fields = [(KEY_TYPE, record.kind.toStr), (KEY_NAME, record.name.toStr),
        (KEY_TTL, String.ofList (Nat.toDigits 10 (record.ttl.getD 0).toNat)),
        (KEY_FLATTEN, flattenEncoder record.flatten), (KEY_BLACKHOLE, blackhole),
        (KEY_REGION, regions), (KEY_RESCUE, rescue), (KEY_VALUE, values)] := by
  simp only [StoreRecord.encode, Option.bind_eq_bind, Option.bind_eq_some_iff, Option.pure_def,
    Option.some.injEq] at he
  obtain ⟨values, hv, blackhole, hb, regions, hr, rescue, hres, rfl⟩ := he
  exact ⟨values, blackhole, regions, rescue, hv, hb, hr, hres, rfl⟩

omit [DecidableEq Country] in
/-- `HGET` of the eight fields after `hset_multiple` wrote them. -/
theorem fromRedis_hsetMultiple (hash : Option RedisHash) (kind name flatten blackhole region rescue
    value : String) {ttl : ℕ} (httl : ttl < 2 ^ 32) :
    StoreGetType.fromRedis (some (hsetMultiple hash [(KEY_TYPE, kind), (KEY_NAME, name),
      (KEY_TTL, String.ofList (Nat.toDigits 10 ttl)), (KEY_FLATTEN, flatten),
      (KEY_BLACKHOLE, blackhole), (KEY_REGION, region), (KEY_RESCUE, rescue), (KEY_VALUE, value)])) =
      some ⟨kind, name, ttl, some flatten, some blackhole, some region, some rescue, value⟩ := by
  simp [StoreGetType.fromRedis, hsetMultiple, KEY_TYPE, KEY_NAME, KEY_TTL, KEY_FLATTEN,
    KEY_BLACKHOLE, KEY_REGION, KEY_RESCUE, KEY_VALUE, List.lookup, parseU32_toDigits httl]

omit [DecidableEq Country] in
/-- A decoded record has the type and name its fields spell. -/
theorem decode_kind_name {serde : Serde Country} {values : StoreGetType}
    {record : StoreRecord Country} (h : StoreRecord.decode serde values = some record) :
    RecordType.fromStr values.kind = some record.kind ∧
      RecordName.fromStr values.name = some record.name := by
  unfold StoreRecord.decode at h
  split at h
  · rename_i kind name value hk hn hv
    cases h
    exact ⟨hk, hn⟩
  · cases h

/-- Reading back the hash that `Store::set` wrote gives the normalised record. -/
theorem decode_fromRedis_hsetMultiple {serde : Serde Country} (hs : serde.Lawful)
    {record : StoreRecord Country} {fields : List (String × String)}
    (he : record.encode serde = some fields) (hash : Option RedisHash) :
    (StoreGetType.fromRedis (some (hsetMultiple hash fields))).bind (StoreRecord.decode serde) =
      some record.normalize := by
  obtain ⟨values, blackhole, regions, rescue, hv, hb, hr, hres, rfl⟩ := encode_eq_some he
  rw [fromRedis_hsetMultiple _ _ _ _ _ _ _ _ (UInt32.toNat_lt _), Option.bind_some,
    StoreRecord.decode, RecordType.fromStr_toStr, RecordName.fromStr_toStr,
    hs.values_roundTrip _ _ hv]
  simp only [Option.bind_some, ttl_decode, flattenEncoder_decode, blackholeEncoder_decode hs hb,
    regionEncoder_decode hs hr, rescueEncoder_decode hs hres, StoreRecord.normalize]

omit [DecidableEq Country] in
/-- serde_json on two value lists only, `[]` and one address, and on no blackhole or regions:
a lawful serializer small enough to run. -/
def smallSerde : Serde Country where
  valuesToString values :=
    if values = [] then some "[]" else if values = [⟨"192.0.2.1"⟩] then some "[192.0.2.1]" else none
  valuesFromStr text :=
    if text = "[]" then some [] else if text = "[192.0.2.1]" then some [⟨"192.0.2.1"⟩] else none
  blackholeToString _ := none
  blackholeFromStr _ := none
  regionsToString _ := none
  regionsFromStr _ := none

omit [DecidableEq Country] in
theorem smallSerde_lawful : (smallSerde : Serde Country).Lawful where
  values_roundTrip values text h := by
    simp only [smallSerde] at h ⊢
    split_ifs at h with h₁ h₂
    · cases h
      rw [if_pos rfl, h₁]
    · cases h
      rw [if_neg (by decide), if_pos rfl, h₂]
  blackhole_roundTrip _ _ h := by cases h
  regions_roundTrip _ _ h := by cases h
  values_empty := by
    have h₁ : ("" : String) ≠ "[]" := by decide
    have h₂ : ("" : String) ≠ "[192.0.2.1]" := by decide
    simp only [smallSerde, if_neg h₁, if_neg h₂]
  blackhole_empty := rfl
  regions_empty := rfl

end Constellation.Store
