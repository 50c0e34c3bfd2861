import Constellation.Config
import Constellation.Dns.Name
import Constellation.Dns.Record

/-! # Zone names, and names read off a query

`ZoneName::from_str` validates against `ZONE_NAME_REGEX` and lowercases. The
API checks that a zone is configured on the text of the request path, before it
is lowercased; the DNS path rebuilds the zone from the lowercased origin of the
authority and checks that text instead.

`RecordName::from_hickory` removes the zone from the end of the lowercased query
and appends `@`. Both work on the printed name; a byte suffix of valid UTF-8 is a
character suffix, so the model compares characters.
-/

namespace Constellation.Dns

open Text

namespace ZoneName

/-- The characters `[^\\/:@&_\*]` of `ZONE_NAME_REGEX`. -/
def allowedChar (c : Char) : Bool := !(['\\', '/', ':', '@', '&', '_', '*'].contains c)

/-- The characters `[^\\/:@&_\*\-\.]` of the last label. -/
def allowedTldChar (c : Char) : Bool := allowedChar c && !(['-', '.'].contains c)

/-- A text cut at its last dot. -/
def splitLastDot (l : List Char) : Option (List Char × List Char) :=
  match l.reverse.dropWhile (· != '.') with
  | _ :: body => some (body.reverse, (l.reverse.takeWhile (· != '.')).reverse)
  | [] => none

/-- `ZONE_NAME_REGEX.is_match`, `^(([^\\/:@&_\*]+)\.)[^\\/:@&_\*\-\.]{2,63}$`: the last
part has no dot, so it is what follows the last dot. -/
def validate (value : String) : Bool :=
  match splitLastDot value.toList with
  | some (body, tld) =>
    !body.isEmpty && body.all allowedChar && decide (2 ≤ tld.length) && decide (tld.length ≤ 63) &&
      tld.all allowedTldChar
  | none => false

theorem allowedChar_toLower (c : Char) : allowedChar c.toLower = allowedChar c := by
  rw [allowedChar, allowedChar, contains_toLower (by simp)]

theorem allowedTldChar_toLower (c : Char) : allowedTldChar c.toLower = allowedTldChar c := by
  rw [allowedTldChar, allowedTldChar, allowedChar_toLower, contains_toLower (by simp)]

theorem splitLastDot_toLowercase (l : List Char) :
    splitLastDot (toLowercase l) =
      (splitLastDot l).map fun p => (toLowercase p.1, toLowercase p.2) := by
  have hdot : ((· != '.') ∘ Char.toLower) = (· != '.') := by
    funext c
    simp only [Function.comp_apply, bne, toLower_beq_of_not_isAlpha (d := '.') (by decide)]
  simp only [splitLastDot, toLowercase, ← List.map_reverse, List.dropWhile_map,
    List.takeWhile_map, hdot]
  cases l.reverse.dropWhile (· != '.') with
  | nil => rfl
  | cons c body => simp [List.map_reverse]

/-- Lowercasing a zone does not change whether the regex accepts it. -/
theorem validate_ofList_toLowercase (l : List Char) :
    validate (String.ofList (toLowercase l)) = validate (String.ofList l) := by
  simp only [validate, String.toList_ofList, splitLastDot_toLowercase]
  cases splitLastDot l with
  | none => rfl
  | some p =>
    simp only [Option.map_some, toLowercase, List.isEmpty_map, List.all_map, List.length_map,
      Function.comp_def, allowedChar_toLower, allowedTldChar_toLower]

end ZoneName

/-- `ZoneName`: a name accepted by `ZONE_NAME_REGEX`, stored lowercased. -/
structure ZoneName where
  val : String
  valid : ZoneName.validate val = true
  lowercase : toLowercase val.toList = val.toList

namespace ZoneName

/-- `ZoneName::from_str`: validate, then store lowercased. -/
def fromStr (value : String) : Option ZoneName :=
  if h : validate value = true then
    some ⟨String.ofList (toLowercase value.toList),
      by rw [validate_ofList_toLowercase, String.ofList_toList]; exact h,
      toLowercase_ofList_toLowercase value⟩
  else none

def toStr (zone : ZoneName) : String := zone.val

theorem ext {a b : ZoneName} (h : a.val = b.val) : a = b := by
  cases a; cases b; cases h; rfl

@[simp] theorem fromStr_toStr (zone : ZoneName) : fromStr zone.toStr = some zone := by
  rw [toStr, fromStr, dif_pos zone.valid]
  congr 1
  apply ext
  simp only [zone.lowercase, String.ofList_toList]

/-- `from_str_exists`: `from_str`, for a zone configured under exactly this text. -/
def fromStrExists (dns : ConfigDNS) (value : String) : Option ZoneName :=
  if dns.zoneExists value then fromStr value else none

/-- `ZoneName::from_hickory`: the lowercased printed name without its final dot, if
configured. -/
def fromHickory (dns : ConfigDNS) (queryName : LowerName) : Option ZoneName :=
  let zoneString := toLowercase queryName.toString
  if zoneString ≠ [] then
    fromStrExists dns
      (String.ofList (if zoneString.getLast? = some '.' then zoneString.dropLast else zoneString))
  else none

end ZoneName

instance : DecidableEq ZoneName := fun a b =>
  decidable_of_iff (a.val = b.val) ⟨ZoneName.ext, congrArg ZoneName.val⟩

/-- The zone `example.com`, of the examples. -/
def exampleZoneName : ZoneName := ⟨"example.com", by decide, by decide⟩

/-- `ZoneNameExists`, a zone name checked against the configuration when read. -/
structure ZoneNameExists where
  intoInner : ZoneName

def ZoneNameExists.fromStr (dns : ConfigDNS) (value : String) : Option ZoneNameExists :=
  (ZoneName.fromStrExists dns value).map ZoneNameExists.mk

/-- `RecordName::from_hickory`: the lowercased query without the zone at its end, followed
by `@`. -/
def RecordName.fromHickory (zoneName queryName : LowerName) : Option RecordName :=
  let queryString := toLowercase queryName.toString
  let zoneString := toLowercase zoneName.toString
  let queryString :=
    if queryString ≠ [] ∧ queryString.getLast? = some '.' ∧ zoneString.isSuffixOf queryString then
      queryString.take (queryString.length - zoneString.length)
    else queryString
  RecordName.fromStr (String.ofList (queryString ++ ['@']))

end Constellation.Dns
