import Mathlib
import Constellation.Text.Utf8

/-! # Record types, names and values

The record vocabulary of `dns/record.rs`. A record name is validated against
`RECORD_NAME_REGEX` and stored lowercased, so a `RecordName` carries both facts;
every name the program builds goes through `RecordName::from_str`.

Countries are a parameter: `geo/country.rs` is a table of ISO codes and their
regions, and nothing here depends on which countries it lists.
-/

namespace Constellation.Dns

open Text

/-- The record types of hickory that the handler distinguishes: the seven
Constellation stores, the two its local authorities hold, and every other code. -/
inductive HickoryRecordType
  | A | AAAA | CNAME | MX | TXT | CAA | PTR | SOA | NS
  | Unknown (code : UInt16)
  deriving DecidableEq, Repr

/-- `RecordType`, as `gen_record_type_impls!` generates it. -/
inductive RecordType
  | A | AAAA | CNAME | MX | TXT | CAA | PTR
  deriving DecidableEq, Repr

namespace RecordType

def fromStr : String → Option RecordType
  | "a" => some A
  | "aaaa" => some AAAA
  | "cname" => some CNAME
  | "mx" => some MX
  | "txt" => some TXT
  | "caa" => some CAA
  | "ptr" => some PTR
  | _ => none

def toStr : RecordType → String
  | A => "a"
  | AAAA => "aaaa"
  | CNAME => "cname"
  | MX => "mx"
  | TXT => "txt"
  | CAA => "caa"
  | PTR => "ptr"

def fromHickory : HickoryRecordType → Option RecordType
  | .A => some A
  | .AAAA => some AAAA
  | .CNAME => some CNAME
  | .MX => some MX
  | .TXT => some TXT
  | .CAA => some CAA
  | .PTR => some PTR
  | _ => none

/-- `to_hickory`, whose `Result` is `Ok` for every type. -/
def toHickory : RecordType → HickoryRecordType
  | A => .A
  | AAAA => .AAAA
  | CNAME => .CNAME
  | MX => .MX
  | TXT => .TXT
  | CAA => .CAA
  | PTR => .PTR

def listChoices : List RecordType := [A, AAAA, CNAME, MX, TXT, CAA, PTR]

@[simp] theorem fromStr_toStr (t : RecordType) : fromStr t.toStr = some t := by
  cases t <;> rfl

@[simp] theorem fromHickory_toHickory (t : RecordType) : fromHickory t.toHickory = some t := by
  cases t <;> rfl

theorem mem_listChoices (t : RecordType) : t ∈ listChoices := by
  cases t <;> simp [listChoices]

theorem toStr_injective : Function.Injective toStr := fun a b h => by
  simpa using congrArg fromStr h

end RecordType

/-! ## Record names -/

namespace RecordName

/-- The characters `[^\\/:@&\*]` of `RECORD_NAME_REGEX`. -/
def allowedChar (c : Char) : Bool := !(['\\', '/', ':', '@', '&', '*'].contains c)

/-- The tail `(([^\\/:@&\*]+)\.)?@$` of `RECORD_NAME_REGEX`, read from the end:
either `@` alone, or a non-empty run of allowed characters, a dot and `@`. -/
def tailMatches (l : List Char) : Bool :=
  match l.reverse with
  | [] => false
  | [c] => c == '@'
  | c :: d :: body => c == '@' && d == '.' && !body.isEmpty && body.all allowedChar

/-- The optional `\*\.` that opens `RECORD_NAME_REGEX`. -/
def opensWildcard : List Char → Bool
  | c :: d :: _ => c == '*' && d == '.'
  | _ => false

/-- `RECORD_NAME_REGEX.is_match`, `^(\*\.)?(([^\\/:@&\*]+)\.)?@$`, with the opening
`*.` tried both absent and present. -/
def validate (value : String) : Bool :=
  tailMatches value.toList ||
    (opensWildcard value.toList && tailMatches (value.toList.drop 2))

theorem allowedChar_toLower (c : Char) : allowedChar c.toLower = allowedChar c := by
  rw [allowedChar, allowedChar, contains_toLower (by simp)]

theorem tailMatches_toLowercase (l : List Char) : tailMatches (toLowercase l) = tailMatches l := by
  have hat := toLower_beq_of_not_isAlpha (d := '@') (by decide)
  have hdot := toLower_beq_of_not_isAlpha (d := '.') (by decide)
  unfold tailMatches
  rw [toLowercase, ← List.map_reverse]
  match l.reverse with
  | [] => rfl
  | [c] => simp [hat]
  | c :: d :: body =>
    simp only [List.map_cons, hat, hdot, List.isEmpty_map, List.all_map, Function.comp_def,
      allowedChar_toLower]

theorem opensWildcard_toLowercase (l : List Char) :
    opensWildcard (toLowercase l) = opensWildcard l := by
  have hstar := toLower_beq_of_not_isAlpha (d := '*') (by decide)
  have hdot := toLower_beq_of_not_isAlpha (d := '.') (by decide)
  match l with
  | [] => rfl
  | [_] => rfl
  | c :: d :: _ => simp only [toLowercase_cons, opensWildcard, hstar, hdot]

/-- Lowercasing a name does not change whether the regex accepts it. -/
theorem validate_ofList_toLowercase (l : List Char) :
    validate (String.ofList (toLowercase l)) = validate (String.ofList l) := by
  simp only [validate, String.toList_ofList, tailMatches_toLowercase, opensWildcard_toLowercase]
  rw [toLowercase, ← List.map_drop, ← toLowercase, tailMatches_toLowercase]

end RecordName

/-- `RecordName`: a name accepted by `RECORD_NAME_REGEX`, stored lowercased. -/
structure RecordName where
  val : String
  valid : RecordName.validate val = true
  lowercase : toLowercase val.toList = val.toList
  deriving DecidableEq

namespace RecordName

/-- `RecordName::from_str`: validate, then store lowercased. -/
def fromStr (value : String) : Option RecordName :=
  if h : validate value = true then
    some ⟨String.ofList (toLowercase value.toList),
      by rw [validate_ofList_toLowercase, String.ofList_toList]; exact h,
      toLowercase_ofList_toLowercase value⟩
  else none

def toStr (name : RecordName) : String := name.val

/-- `to_subdomain`: the name without its final byte, the `@` that every valid name
ends with. -/
def toSubdomain (name : RecordName) : String :=
  if byteLen name.val.toList > 1 then String.ofList name.val.toList.dropLast else ""

theorem ext {a b : RecordName} (h : a.val = b.val) : a = b := by
  cases a; cases b; cases h; rfl

/-- A stored name reads back as itself. -/
@[simp] theorem fromStr_toStr (name : RecordName) : fromStr name.toStr = some name := by
  rw [toStr, fromStr, dif_pos name.valid]
  congr 1
  apply ext
  simp only [name.lowercase, String.ofList_toList]

theorem toStr_injective : Function.Injective toStr := fun a b h => by
  simpa using congrArg fromStr h

end RecordName

/-- The record name `a.@`, of the examples. -/
def exampleRecordName : RecordName := ⟨"a.@", by decide, by decide⟩

/-- The record name `www.@`, of the examples. -/
def wwwRecordName : RecordName := ⟨"www.@", by decide, by decide⟩

/-- `RecordValue`, the text of one value. -/
structure RecordValue where
  val : String
  deriving DecidableEq, Repr

/-- `RecordValues`, a list of values. -/
abbrev RecordValues := List RecordValue

/-- `RegionCode`, the sixteen Geo-DNS regions. -/
inductive RegionCode
  | NNAM | SNAM | NSAM | SSAM | WEU | CEU | EEU | RU | ME | NAF | MAF | SAF | IN | SEAS | NEAS | OC
  deriving DecidableEq, Repr

/-- `RecordBlackhole`, the set of countries that receive no answer. -/
structure RecordBlackhole (Country : Type) where
  countries : Finset Country
  deriving DecidableEq

/-- `RecordRegions`, per-region values. -/
structure RecordRegions where
  nnam : Option RecordValues
  snam : Option RecordValues
  nsam : Option RecordValues
  ssam : Option RecordValues
  weu : Option RecordValues
  ceu : Option RecordValues
  eeu : Option RecordValues
  ru : Option RecordValues
  me : Option RecordValues
  naf : Option RecordValues
  maf : Option RecordValues
  saf : Option RecordValues
  seas : Option RecordValues
  neas : Option RecordValues
  oc : Option RecordValues
  _in : Option RecordValues
  deriving DecidableEq

namespace RecordBlackhole

variable {Country : Type} [DecidableEq Country]

def hasItems (b : RecordBlackhole Country) : Bool := decide (b.countries ≠ ∅)

def hasCountry (b : RecordBlackhole Country) (country : Country) : Bool := decide (country ∈ b.countries)

end RecordBlackhole

/-- The region values that `parse_from_records` picks for a region. -/
def RecordRegions.forRegion (regions : RecordRegions) : RegionCode → Option RecordValues
  | .NNAM => regions.nnam
  | .SNAM => regions.snam
  | .NSAM => regions.nsam
  | .SSAM => regions.ssam
  | .WEU => regions.weu
  | .CEU => regions.ceu
  | .EEU => regions.eeu
  | .RU => regions.ru
  | .ME => regions.me
  | .NAF => regions.naf
  | .MAF => regions.maf
  | .SAF => regions.saf
  | .IN => regions._in
  | .SEAS => regions.seas
  | .NEAS => regions.neas
  | .OC => regions.oc

end Constellation.Dns
