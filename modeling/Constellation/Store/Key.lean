import Constellation.Text.Format
import Constellation.Dns.Zone

/-! # Store keys

`StoreKey::to_key` names the Redis hash of a record `cl:{zone}:{name}:{type}`,
where zone and name are the `farmhash::fingerprint32` of their text printed in
lowercase hexadecimal. The fingerprint is a parameter: a key determines the two
fingerprints and the type, and nothing more.
-/

namespace Constellation.Store

open Dns Text

/-- `farmhash::fingerprint32` of the UTF-8 bytes of a text. -/
abbrev Fingerprint := String → UInt32

def KEY_PREFIX : String := "cl"

/-- `format!("{:x}", n)`. -/
def hexString (n : UInt32) : String := String.ofList (Nat.toDigits 16 n.toNat)

theorem hexString_injective : Function.Injective hexString := fun a b h => by
  have h' := congrArg String.toList h
  simp only [hexString, String.toList_ofList] at h'
  exact UInt32.toNat_inj.mp (toDigits_hex_injective h')

theorem colon_not_mem_hexString (n : UInt32) : ':' ∉ (hexString n).toList := by
  rw [hexString, String.toList_ofList]
  exact colon_not_mem_toDigits_hex _

namespace StoreKey

variable (fingerprint32 : Fingerprint)

def hash (zoneName : ZoneName) (recordName : RecordName) (recordType : RecordType) : String :=
  hexString (fingerprint32 zoneName.toStr) ++ ":" ++ hexString (fingerprint32 recordName.toStr) ++
    ":" ++ recordType.toStr

def toKey (zoneName : ZoneName) (recordName : RecordName) (recordType : RecordType) : String :=
  KEY_PREFIX ++ ":" ++ hash fingerprint32 zoneName recordName recordType

theorem toList_toKey (zoneName : ZoneName) (recordName : RecordName) (recordType : RecordType) :
    (toKey fingerprint32 zoneName recordName recordType).toList =
      KEY_PREFIX.toList ++ ':' :: ((hexString (fingerprint32 zoneName.toStr)).toList ++
        ':' :: ((hexString (fingerprint32 recordName.toStr)).toList ++ ':' ::
          recordType.toStr.toList)) := by
  simp [toKey, hash, String.toList_append]

/-- Two keys are equal exactly when the fingerprints of zone and name and the types are. -/
theorem toKey_eq_toKey_iff {zoneName zoneName' : ZoneName} {recordName recordName' : RecordName}
    {recordType recordType' : RecordType} :
    toKey fingerprint32 zoneName recordName recordType =
        toKey fingerprint32 zoneName' recordName' recordType' ↔
      fingerprint32 zoneName.toStr = fingerprint32 zoneName'.toStr ∧
        fingerprint32 recordName.toStr = fingerprint32 recordName'.toStr ∧
          recordType = recordType' := by
  rw [← String.toList_inj, toList_toKey, toList_toKey, List.append_cancel_left_eq,
    List.cons.injEq, append_cons_eq_iff (colon_not_mem_hexString _) (colon_not_mem_hexString _),
    append_cons_eq_iff (colon_not_mem_hexString _) (colon_not_mem_hexString _),
    String.toList_inj, String.toList_inj, String.toList_inj]
  simp only [true_and, hexString_injective.eq_iff, RecordType.toStr_injective.eq_iff]

end StoreKey

end Constellation.Store
