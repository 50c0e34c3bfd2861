import Constellation.Dns.Record
import Constellation.Dns.Name

/-! # Record data

`RecordValue::to_hickory` turns a stored value into hickory record data. Every
type but TXT goes through hickory's text parser, which the model takes as a
parameter. TXT values are cut by a loop into pieces of `min(255, len)` bytes
with `str::split_at`, which panics when the cut falls inside a character.
-/

namespace Constellation.Dns

open Text

/-- hickory record data: what the model builds itself, and the values hickory's
text parser produces from a type and a text. -/
inductive RData
  | TXT (txtData : List String)
  | SOA (mname rname : Name) (serial : UInt32) (refresh retry expire : Int32) (minimum : UInt32)
  | NS (target : Name)
  | Parsed (recordType : HickoryRecordType) (text : String)
  deriving DecidableEq

/-- `RDataParser::try_from_str`, hickory's parser of record data in text form. -/
abbrev RDataParser := HickoryRecordType → String → Option RData

/-- A hickory resource record: owner, TTL, type and data. -/
structure Record where
  name : Name
  ttl : UInt32
  recordType : HickoryRecordType
  rdata : RData
  deriving DecidableEq

/-- A panic of the running task, with the message Rust prints. -/
structure Panic where
  message : String
  deriving DecidableEq, Repr

def DATA_TXT_CHUNK_MAXIMUM : ℕ := 255

/-- The loop of `to_hickory` for TXT: while text is left, cut `min(255, len)` bytes off
its front with `split_at`. -/
def txtSplitsFrom (lastValue : List Char) (txtSplits : List (List Char)) :
    Except Panic (List (List Char)) :=
  if hl : lastValue = [] then .ok txtSplits
  else
    match hs : splitAt lastValue (min DATA_TXT_CHUNK_MAXIMUM (byteLen lastValue)) with
    | none => .error ⟨"byte index is not a char boundary"⟩
    | some (chunk, rest) => txtSplitsFrom rest (txtSplits ++ [chunk])
termination_by lastValue.length
decreasing_by
  obtain ⟨rfl, hb⟩ := splitAt_eq_some_iff.mp hs
  have hpos : 0 < byteLen (chunk ++ rest) :=
    Nat.pos_of_ne_zero fun h => hl (byteLen_eq_zero_iff.mp h)
  have hchunk : chunk ≠ [] := by
    rintro rfl
    simp only [byteLen_nil, DATA_TXT_CHUNK_MAXIMUM] at hb
    omega
  simpa using List.length_pos_of_ne_nil hchunk

theorem txtSplitsFrom_nil (txtSplits : List (List Char)) :
    txtSplitsFrom [] txtSplits = .ok txtSplits := by
  rw [txtSplitsFrom, dif_pos rfl]

theorem txtSplitsFrom_of_splitAt_none {l : List Char} (txtSplits : List (List Char))
    (hl : l ≠ []) (hs : splitAt l (min DATA_TXT_CHUNK_MAXIMUM (byteLen l)) = none) :
    txtSplitsFrom l txtSplits = .error ⟨"byte index is not a char boundary"⟩ := by
  rw [txtSplitsFrom, dif_neg hl]
  split
  · rfl
  · rename_i heq
    rw [hs] at heq
    cases heq

theorem txtSplitsFrom_of_splitAt_some {l chunk rest : List Char} (txtSplits : List (List Char))
    (hl : l ≠ []) (hs : splitAt l (min DATA_TXT_CHUNK_MAXIMUM (byteLen l)) = some (chunk, rest)) :
    txtSplitsFrom l txtSplits = txtSplitsFrom rest (txtSplits ++ [chunk]) := by
  rw [txtSplitsFrom, dif_neg hl]
  split
  · rename_i heq
    rw [hs] at heq
    cases heq
  · rename_i heq
    rw [hs] at heq
    cases heq
    rfl

/-- A piece the loop cuts has between 1 and 255 bytes. -/
def ChunkSized (chunk : List Char) : Prop := 0 < byteLen chunk ∧ byteLen chunk ≤ DATA_TXT_CHUNK_MAXIMUM

/-- What the loop returns is what it had, followed by pieces of 1 to 255 bytes that
make up the text. -/
theorem txtSplitsFrom_eq_ok {l : List Char} {txtSplits : List (List Char)} :
    ∀ {out}, txtSplitsFrom l txtSplits = .ok out →
      ∃ chunks, out = txtSplits ++ chunks ∧ chunks.flatten = l ∧ ∀ c ∈ chunks, ChunkSized c := by
  induction l, txtSplits using txtSplitsFrom.induct with
  | case1 txtSplits =>
    intro out h
    rw [txtSplitsFrom_nil] at h
    cases h
    exact ⟨[], by simp, rfl, by simp⟩
  | case2 l txtSplits hl hs =>
    intro out h
    rw [txtSplitsFrom_of_splitAt_none txtSplits hl hs] at h
    cases h
  | case3 l txtSplits hl chunk rest hs ih =>
    intro out h
    rw [txtSplitsFrom_of_splitAt_some txtSplits hl hs] at h
    obtain ⟨chunks, rfl, hflat, hsized⟩ := ih h
    obtain ⟨rfl, hlen⟩ := splitAt_eq_some_iff.mp hs
    have hpos : 0 < byteLen (chunk ++ rest) :=
      Nat.pos_of_ne_zero fun h => hl (byteLen_eq_zero_iff.mp h)
    refine ⟨chunk :: chunks, by simp, by simp [hflat], fun c hc => ?_⟩
    rcases List.mem_cons.mp hc with rfl | hc
    · exact ⟨by rw [hlen]; exact lt_min (by decide) hpos, by rw [hlen]; exact min_le_left _ _⟩
    · exact hsized c hc

/-- The loop cuts at every multiple of 255 below the length; it fails when one of these
offsets falls inside a character. -/
def TxtCutFails (l : List Char) : Prop :=
  ∃ k, DATA_TXT_CHUNK_MAXIMUM * (k + 1) < byteLen l ∧
    ¬ IsCharBoundary l (DATA_TXT_CHUNK_MAXIMUM * (k + 1))

theorem not_txtCutFails_of_le {l : List Char} (h : byteLen l ≤ DATA_TXT_CHUNK_MAXIMUM) :
    ¬ TxtCutFails l := by
  rintro ⟨k, hk, -⟩
  simp only [DATA_TXT_CHUNK_MAXIMUM] at h hk
  omega

theorem txtCutFails_append {chunk rest : List Char}
    (hc : byteLen chunk = DATA_TXT_CHUNK_MAXIMUM) :
    TxtCutFails (chunk ++ rest) ↔ TxtCutFails rest := by
  simp only [TxtCutFails, DATA_TXT_CHUNK_MAXIMUM] at hc ⊢
  constructor
  · rintro ⟨k, hk, hb⟩
    cases k with
    | zero =>
      have h0 := isCharBoundary_append_iff (a := chunk) (b := rest) (m := 0) |>.mpr ⟨[], rest, rfl, rfl⟩
      rw [hc] at h0
      exact absurd (by simpa using h0) hb
    | succ k =>
      refine ⟨k, by simp at hk; omega, fun h => hb ?_⟩
      have h' := isCharBoundary_append_iff (a := chunk) (b := rest) |>.mpr h
      rwa [hc, show 255 + 255 * (k + 1) = 255 * (k + 1 + 1) by omega] at h'
  · rintro ⟨k, hk, hb⟩
    refine ⟨k + 1, by simp; omega, fun h => hb ?_⟩
    rw [show 255 * (k + 1 + 1) = byteLen chunk + 255 * (k + 1) by omega] at h
    exact isCharBoundary_append_iff.mp h

/-- The loop panics exactly when a multiple of 255 below the length falls inside a
character. -/
theorem txtSplitsFrom_isError_iff (l : List Char) (txtSplits : List (List Char)) :
    (∃ e, txtSplitsFrom l txtSplits = .error e) ↔ TxtCutFails l := by
  induction l, txtSplits using txtSplitsFrom.induct with
  | case1 txtSplits =>
    simp only [txtSplitsFrom_nil, reduceCtorEq, exists_false, false_iff]
    exact not_txtCutFails_of_le (by simp)
  | case2 l txtSplits hl hs =>
    rw [txtSplitsFrom_of_splitAt_none txtSplits hl hs]
    refine ⟨fun _ => ?_, fun _ => ⟨_, rfl⟩⟩
    have hnb := splitAt_eq_none_iff.mp hs
    by_cases hle : byteLen l ≤ DATA_TXT_CHUNK_MAXIMUM
    · rw [min_eq_right hle] at hnb
      exact absurd (isCharBoundary_byteLen l) hnb
    · rw [min_eq_left (by omega)] at hnb
      exact ⟨0, by omega, by simpa using hnb⟩
  | case3 l txtSplits hl chunk rest hs ih =>
    rw [txtSplitsFrom_of_splitAt_some txtSplits hl hs, ih]
    obtain ⟨rfl, hlen⟩ := splitAt_eq_some_iff.mp hs
    by_cases hle : byteLen (chunk ++ rest) ≤ DATA_TXT_CHUNK_MAXIMUM
    · rw [min_eq_right hle] at hlen
      have hr : rest = [] := byteLen_eq_zero_iff.mp (by simp at hlen; omega)
      subst hr
      exact iff_of_false (not_txtCutFails_of_le (by simp)) (not_txtCutFails_of_le hle)
    · rw [min_eq_left (by omega)] at hlen
      exact (txtCutFails_append hlen).symm

/-- The loop always completes on ASCII text. -/
theorem not_txtCutFails_of_isAscii {l : List Char} (h : IsAscii l) : ¬ TxtCutFails l := by
  rintro ⟨k, hk, hb⟩
  exact hb (isCharBoundary_of_isAscii h (by rw [← byteLen_of_isAscii h]; omega))

/-- `RecordValue::to_hickory`: `Err` when the value does not convert, a panic when
`split_at` does. -/
def RecordValue.toHickory (parser : RDataParser) (value : RecordValue) :
    RecordType → Except Panic (Except Unit RData)
  | .TXT => do
    let txtSplits ← txtSplitsFrom value.val.toList []
    if txtSplits.isEmpty then pure (.error ()) else pure (.ok (.TXT (txtSplits.map String.ofList)))
  | t => pure ((parser t.toHickory value.val).elim (.error ()) .ok)

theorem txtSplitsFrom_eq_ok_of_not_txtCutFails {l : List Char} (txtSplits : List (List Char))
    (h : ¬ TxtCutFails l) : ∃ out, txtSplitsFrom l txtSplits = .ok out := by
  cases hr : txtSplitsFrom l txtSplits with
  | error e => exact absurd ((txtSplitsFrom_isError_iff l txtSplits).mp ⟨e, hr⟩) h
  | ok out => exact ⟨out, rfl⟩

theorem toHickory_TXT_of_ok {parser : RDataParser} {value : RecordValue}
    {txtSplits : List (List Char)} (h : txtSplitsFrom value.val.toList [] = .ok txtSplits) :
    value.toHickory parser .TXT =
      .ok (if txtSplits.isEmpty then .error () else .ok (.TXT (txtSplits.map String.ofList))) := by
  simp only [RecordValue.toHickory, bind, Except.bind, h]
  split <;> rfl

theorem flatten_eq_nil_iff_of_chunkSized {chunks : List (List Char)}
    (h : ∀ c ∈ chunks, ChunkSized c) : chunks.flatten = [] ↔ chunks = [] := by
  rw [List.flatten_eq_nil_iff]
  constructor
  · intro hall
    cases chunks with
    | nil => rfl
    | cons c cs =>
      have hpos := (h c List.mem_cons_self).1
      rw [hall c List.mem_cons_self] at hpos
      simp at hpos
  · rintro rfl
    simp

/-- Where no cut falls inside a character, the TXT conversion fails exactly on the empty
value and otherwise gives pieces of 1 to 255 bytes that make up the value. -/
theorem toHickory_TXT_spec (parser : RDataParser) (value : RecordValue)
    (h : ¬ TxtCutFails value.val.toList) :
    ∃ chunks : List (List Char), chunks.flatten = value.val.toList ∧ (∀ c ∈ chunks, ChunkSized c) ∧
      value.toHickory parser .TXT =
        .ok (if value.val = "" then .error () else .ok (.TXT (chunks.map String.ofList))) := by
  obtain ⟨out, hout⟩ := txtSplitsFrom_eq_ok_of_not_txtCutFails [] h
  obtain ⟨chunks, hc, hflat, hsized⟩ := txtSplitsFrom_eq_ok hout
  rw [List.nil_append] at hc
  subst hc
  have hnil : out = [] ↔ value.val = "" := by
    rw [← String.toList_eq_nil_iff, ← hflat, flatten_eq_nil_iff_of_chunkSized hsized]
  refine ⟨out, hflat, hsized, ?_⟩
  rw [toHickory_TXT_of_ok hout]
  simp only [List.isEmpty_iff, hnil]

theorem toHickory_TXT_of_error {parser : RDataParser} {value : RecordValue} {e : Panic}
    (h : txtSplitsFrom value.val.toList [] = .error e) : value.toHickory parser .TXT = .error e := by
  simp only [RecordValue.toHickory, bind, Except.bind, h]

theorem toHickory_TXT_isError_iff (parser : RDataParser) (value : RecordValue) :
    (∃ e, value.toHickory parser .TXT = .error e) ↔ TxtCutFails value.val.toList := by
  rw [← txtSplitsFrom_isError_iff value.val.toList []]
  cases hr : txtSplitsFrom value.val.toList [] with
  | error e =>
    rw [toHickory_TXT_of_error hr]
    exact ⟨fun _ => ⟨e, rfl⟩, fun _ => ⟨e, rfl⟩⟩
  | ok out =>
    simp only [toHickory_TXT_of_ok hr, reduceCtorEq, exists_false]

/-- Two hundred characters `é` make 400 bytes, and byte 255 falls inside the 128th. -/
theorem toHickory_TXT_panics (parser : RDataParser) :
    (RecordValue.mk (String.ofList (List.replicate 200 'é'))).toHickory parser .TXT =
      .error ⟨"byte index is not a char boundary"⟩ := by
  have hcut : splitAt (List.replicate 200 'é')
      (min DATA_TXT_CHUNK_MAXIMUM (byteLen (List.replicate 200 'é'))) = none := by
    rw [byteLen_replicate, show 'é'.utf8Size = 2 by decide,
      show min DATA_TXT_CHUNK_MAXIMUM (200 * 2) = 2 * 127 + 1 by decide]
    exact splitAt_replicate_odd (by decide) 200 127
  have hne : List.replicate 200 'é' ≠ [] := by simp
  apply toHickory_TXT_of_error
  rw [String.toList_ofList]
  exact txtSplitsFrom_of_splitAt_none [] hne hcut

end Constellation.Dns
