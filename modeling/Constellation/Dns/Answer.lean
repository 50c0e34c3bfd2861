import Constellation.Dns.Reply
import Constellation.Dns.Address

/-! # What the handler answers from the store's contents

Take a store whose reads answer from a map of records and never report a disconnection.
For a query of a configured zone that the local records do not answer, the handler
responds NXDOMAIN exactly when neither the query's name nor its wildcard `*.parent`, when
that differs, holds a record of any type; and every answer it sends comes from a record of
the query's type, or a CNAME, at the name or at its wildcard.
-/

namespace Constellation.Dns

open Store Cache TaskM

variable {Country Addr : Type}

/-- The records a store holds, by zone, record name and type. -/
abbrev StoreRecords (Country : Type) :=
  ZoneName → RecordName → RecordType → Option (StoreRecord Country)

/-- The reads of `storeGet` answer from `records`: the record of the triple, or an error other
than `Disconnected` when it holds none. -/
def ReadsFrom (records : StoreRecords Country) (storeGet : StoreGet Country) : Prop :=
  ∀ zoneName recordName recordType origin,
    Returns (fun _ read _ => read ≠ .error .Disconnected ∧
        ∀ record, read = .ok record ↔ records zoneName recordName recordType = some record)
      (storeGet zoneName recordName recordType origin)

/-- The name, in the zone of `origin`, holds a record of the type. -/
def HoldsType (records : StoreRecords Country) (zoneName : ZoneName) (origin name : LowerName)
    (recordType : RecordType) : Prop :=
  ∃ recordName, RecordName.fromHickory origin name = some recordName ∧
    (records zoneName recordName recordType).isSome

/-- The name holds a record of some type. -/
def NameHolds (records : StoreRecords Country) (zoneName : ZoneName) (origin name : LowerName) :
    Prop :=
  ∃ recordType, HoldsType records zoneName origin name recordType

/-- Neither the name nor its wildcard, when that differs, holds a record. -/
def Absent (records : StoreRecords Country) (zoneName : ZoneName) (origin name : LowerName) :
    Prop :=
  ¬ NameHolds records zoneName origin name ∧ ∀ wildcardName, wildcardOf name = some wildcardName →
    wildcardName ≠ name → ¬ NameHolds records zoneName origin wildcardName

section Holds

variable {records : StoreRecords Country} {zoneName : ZoneName} {origin name : LowerName}

/-- Under a record name, holding a record is finding one among the types the store has. -/
theorem nameHolds_iff {recordName : RecordName}
    (hname : RecordName.fromHickory origin name = some recordName) :
    NameHolds records zoneName origin name ↔
      (RecordType.listChoices.any fun recordType => (records zoneName recordName recordType).isSome) := by
  constructor
  · rintro ⟨recordType, recordName', hname', hsome⟩
    rw [hname, Option.some.injEq] at hname'
    subst hname'
    exact List.any_eq_true.mpr ⟨recordType, RecordType.mem_listChoices recordType, hsome⟩
  · intro h
    obtain ⟨recordType, -, hsome⟩ := List.any_eq_true.mp h
    exact ⟨recordType, recordName, hname, hsome⟩

theorem not_nameHolds_of_fromHickory (hname : RecordName.fromHickory origin name = none) :
    ¬ NameHolds records zoneName origin name := by
  rintro ⟨_, _, hname', _⟩
  rw [hname] at hname'
  cases hname'

theorem absent_iff_of_wildcard {wildcardName : LowerName} (hw : wildcardOf name = some wildcardName)
    (hne : wildcardName ≠ name) :
    Absent records zoneName origin name ↔
      ¬ NameHolds records zoneName origin name ∧ ¬ NameHolds records zoneName origin wildcardName := by
  constructor
  · exact fun ⟨hname, hwild⟩ => ⟨hname, hwild wildcardName hw hne⟩
  · rintro ⟨hname, hwild⟩
    refine ⟨hname, fun wildcardName' hw' _ => ?_⟩
    rw [hw, Option.some.injEq] at hw'
    exact hw' ▸ hwild

/-- Without a wildcard other than the name, only the name counts. -/
theorem absent_iff_of_no_wildcard (hw : ∀ wildcardName, wildcardOf name = some wildcardName →
    wildcardName = name) :
    Absent records zoneName origin name ↔ ¬ NameHolds records zoneName origin name :=
  ⟨fun h => h.1, fun h => ⟨h, fun wildcardName hw' hne => absurd (hw wildcardName hw') hne⟩⟩

end Holds

/-! ## The reads of a query -/

/-- A read that returned an error found no record. -/
theorem isSome_eq_false_of_read {records : StoreRecords Country} {zoneName : ZoneName}
    {recordName : RecordName} {recordType : RecordType} {read : Except StoreError (StoreRecord Country)} {error : StoreError}
    (hread : ∀ record, read = .ok record ↔ records zoneName recordName recordType = some record)
    (herror : read = .error error) : (records zoneName recordName recordType).isSome = false := by
  cases h : records zoneName recordName recordType with
  | none => rfl
  | some record =>
    rw [← hread record, herror] at h
    cases h

section Reads

variable {records : StoreRecords Country} {storeGet : StoreGet Country}
  (hreads : ReadsFrom records storeGet)
include hreads

/-- `check_name_exists` finds a record exactly when one of the types holds one. -/
theorem returns_checkNameExists_from (zoneName : ZoneName) (recordName : RecordName)
    (origin : StoreAccessOrigin) (types : List RecordType) :
    Returns (fun _ res _ =>
        res = .ok (types.any fun recordType => (records zoneName recordName recordType).isSome))
      (checkNameExists storeGet zoneName recordName origin types) := by
  induction types with
  | nil => exact Returns.pure fun _ => rfl
  | cons recordType rest ih =>
    unfold checkNameExists
    refine Returns.bind_result (hreads zoneName recordName recordType origin) fun read hspec => ?_
    obtain ⟨hconnected, hread⟩ := hspec
    split
    · -- a record of this type
      rename_i record
      have hsome : (records zoneName recordName recordType).isSome := by
        rw [(hread record).mp rfl]
        rfl
      exact Returns.pure fun _ => by rw [List.any_cons, hsome, Bool.true_or]
    · exact absurd rfl hconnected
    · -- none of this type: the rest decides
      have hnone := isSome_eq_false_of_read hread rfl
      refine ih.mono fun _ res _ hres => ?_
      rw [hres, List.any_cons, hnone, Bool.false_or]

variable [DecidableEq Country] (env : Env Country Addr)

/-- A read made for a query appends nothing when the triple holds no record. -/
theorem returns_appendFromStore_from (queryNameClient : LowerName) (queryType : HickoryRecordType)
    (recordType : RecordType) (source : Addr) (zoneName : ZoneName) (recordName : RecordName)
    (readType : RecordType) (input : List Record) :
    Returns (fun _ res _ => ∃ answers, res = .ok answers ∧
        ((records zoneName recordName readType).isSome = false → answers = input))
      (appendFromStore env storeGet queryNameClient queryType recordType source zoneName recordName
        readType input) := by
  unfold appendFromStore
  refine Returns.bind_result (hreads zoneName recordName readType .External) fun read hspec => ?_
  obtain ⟨hconnected, hread⟩ := hspec
  split
  · rename_i record
    have hsome : records zoneName recordName readType = some record := (hread record).mp rfl
    refine Returns.bind_result (A := fun _ => True) (fun _ _ _ _ => trivial)
      fun answers _ => Returns.pure fun _ => ⟨answers, rfl, fun hnone => ?_⟩
    rw [hsome] at hnone
    cases hnone
  · exact absurd rfl hconnected
  · exact Returns.pure fun _ => ⟨input, rfl, fun _ => rfl⟩

/-- The reads for a stored type answer nothing when the name holds neither a record of the
type nor a CNAME. -/
theorem returns_recordsOfType_from (queryNameClient : LowerName) (queryType : HickoryRecordType)
    (source : Addr) (zoneName : ZoneName) (recordName : RecordName) (recordType : RecordType) :
    Returns (fun _ res _ => ∃ answers, res = .ok answers ∧
        ((records zoneName recordName recordType).isSome = false →
          (records zoneName recordName .CNAME).isSome = false → answers = []))
      (recordsOfType env storeGet queryNameClient queryType source zoneName recordName recordType) := by
  unfold recordsOfType
  refine Returns.bind_result (returns_appendFromStore_from hreads env queryNameClient queryType
    recordType source zoneName recordName recordType [])
    fun res ⟨answers, hres, hempty⟩ => ?_
  subst hres
  dsimp only
  split
  · refine (returns_appendFromStore_from hreads env queryNameClient queryType recordType source
      zoneName recordName .CNAME answers).mono fun _ res _ ⟨answers', hres', hempty'⟩ =>
        ⟨answers', hres', fun htype hcname => (hempty' hcname).trans (hempty htype)⟩
  · exact Returns.pure fun _ => ⟨answers, rfl, fun htype _ => hempty htype⟩

/-- What `records_from_store_attempt` finds under a name: nothing exactly when the name holds no
record; answers only from a record of the query's type, or a CNAME. -/
def AttemptFinds (records : StoreRecords Country) (zoneName : ZoneName) (origin name : LowerName)
    (recordType : Option RecordType) (found : Option (List Record)) : Prop :=
  (found = none ↔ ¬ NameHolds records zoneName origin name) ∧
    ∀ answers, found = some answers → answers ≠ [] → ∃ readType, recordType = some readType ∧
      (HoldsType records zoneName origin name readType ∨ HoldsType records zoneName origin name .CNAME)

theorem returns_recordsFromStoreAttempt_from (origin : LowerName) (source : Addr)
    (zoneName : ZoneName) (queryNameClient queryNameEffective : LowerName)
    (queryType : HickoryRecordType) (recordType : Option RecordType) :
    Returns (fun _ res _ => ∃ found, res = .ok found ∧
        AttemptFinds records zoneName origin queryNameEffective recordType found)
      (recordsFromStoreAttempt env storeGet origin source (some zoneName) queryNameClient
        queryNameEffective queryType recordType) := by
  unfold recordsFromStoreAttempt
  cases hname : RecordName.fromHickory origin queryNameEffective with
  | none =>
    exact Returns.pure fun _ =>
      ⟨none, rfl, iff_of_true rfl (not_nameHolds_of_fromHickory hname), fun _ h => by cases h⟩
  | some recordName =>
    dsimp only
    -- the reads for the query's type answer only from a record of the type or a CNAME
    refine Returns.bind_result (A := fun res => ∃ answers, res = .ok answers ∧
      (answers ≠ [] → ∃ readType, recordType = some readType ∧
        ((records zoneName recordName readType).isSome ∨
          (records zoneName recordName .CNAME).isSome))) ?found fun res hres => ?_
    case found =>
      cases recordType with
      | none => exact Returns.pure fun _ => ⟨[], rfl, fun h => absurd rfl h⟩
      | some readType =>
        refine (returns_recordsOfType_from hreads env queryNameClient queryType source zoneName
          recordName readType).mono fun _ res _ hres => ?_
        obtain ⟨answers, hres, hempty⟩ := hres
        refine ⟨answers, hres, fun hne => ⟨readType, rfl, ?_⟩⟩
        by_contra hnone
        simp only [not_or, Bool.not_eq_true] at hnone
        exact hne (hempty hnone.1 hnone.2)
    obtain ⟨answers, rfl, hfrom⟩ := hres
    have hholds : ∀ readType, (records zoneName recordName readType).isSome →
        HoldsType records zoneName origin queryNameEffective readType :=
      fun readType h => ⟨recordName, hname, h⟩
    dsimp only
    split
    · -- answers found
      rename_i hnonempty
      have hne : answers ≠ [] := by simpa using hnonempty
      obtain ⟨readType, rfl, hheld⟩ := hfrom hne
      refine Returns.pure fun _ => ⟨some answers, rfl, iff_of_false (Option.some_ne_none _) ?_, ?_⟩
      · rcases hheld with h | h
        exacts [not_not.mpr ⟨readType, hholds readType h⟩, not_not.mpr ⟨.CNAME, hholds .CNAME h⟩]
      · intro answers' h _
        cases h
        exact ⟨readType, rfl, hheld.imp (hholds readType) (hholds .CNAME)⟩
    · -- no answer: whether the name holds a record of another type
      refine Returns.bind_result (returns_checkNameExists_from hreads zoneName recordName .External
        RecordType.listChoices) fun res hres => ?_
      subst hres
      cases hany : RecordType.listChoices.any fun readType => (records zoneName recordName readType).isSome
      · exact Returns.pure fun _ => ⟨none, rfl,
          iff_of_true rfl (fun h => by rw [nameHolds_iff hname, hany] at h; cases h),
          fun _ h => by cases h⟩
      · exact Returns.pure fun _ => ⟨some [], rfl,
          iff_of_false (Option.some_ne_none _) (not_not.mpr ((nameHolds_iff hname).mpr hany)),
          fun _ h hne => by cases h; exact absurd rfl hne⟩

/-- What `records_from_store` finds for a query: nothing exactly when neither the name nor its
wildcard holds a record; answers only from a record of the query's type, or a CNAME, at the name
or at its wildcard. -/
def StoreFinds (records : StoreRecords Country) (zoneName : ZoneName) (origin : LowerName)
    (query : LowerQuery) (found : Option (List Record)) : Prop :=
  (found = none ↔ Absent records zoneName origin query.name) ∧
    ∀ answers, found = some answers → answers ≠ [] →
      ∃ name ∈ query.name :: (wildcardOf query.name).toList, ∃ readType,
        RecordType.fromHickory query.queryType = some readType ∧
        (HoldsType records zoneName origin name readType ∨ HoldsType records zoneName origin name .CNAME)

theorem returns_recordsFromStore_from (authority : DNSAuthority) (zoneName : ZoneName)
    (source : Addr) (query : LowerQuery) :
    Returns (fun _ res _ => ∃ found, res = .ok found ∧
        StoreFinds records zoneName authority.origin query found)
      (recordsFromStore env storeGet authority (some zoneName) source query) := by
  unfold recordsFromStore
  refine Returns.bind_result (A := fun _ => True) (fun _ _ _ _ => trivial) fun _ _ => ?_
  refine Returns.bind_result (returns_recordsFromStoreAttempt_from hreads env authority.origin source
    zoneName query.name query.name query.queryType _) fun res hres => ?_
  obtain ⟨found, rfl, hnameFound, hnameAnswers⟩ := hres
  -- what the name itself answers
  have hself : ∀ answers, found = some answers → answers ≠ [] →
      ∃ name ∈ query.name :: (wildcardOf query.name).toList, ∃ readType,
        RecordType.fromHickory query.queryType = some readType ∧
        (HoldsType records zoneName authority.origin name readType ∨
          HoldsType records zoneName authority.origin name .CNAME) := by
    intro answers h hne
    obtain ⟨readType, hreadType, hheld⟩ := hnameAnswers answers h hne
    exact ⟨query.name, List.mem_cons_self, readType, hreadType, hheld⟩
  dsimp only
  split_ifs with hempty
  · -- nothing answered under the name: the wildcard is tried
    cases hw : wildcardOf query.name with
    | none =>
      exact Returns.pure fun _ => ⟨found, rfl,
        hnameFound.trans (absent_iff_of_no_wildcard fun _ h => by rw [hw] at h; cases h).symm, hself⟩
    | some wildcardName =>
      dsimp only
      split
      · rename_i hne
        refine Returns.bind_result (returns_recordsFromStoreAttempt_from hreads env authority.origin
          source zoneName query.name wildcardName query.queryType _) fun res hres => ?_
        obtain ⟨foundWild, rfl, hwildFound, hwildAnswers⟩ := hres
        refine Returns.pure fun _ => ⟨_, rfl, ?_, fun answers h hne' => ?_⟩
        · rw [absent_iff_of_wildcard hw hne, ← hnameFound, ← hwildFound]
          cases foundWild <;> simp
        · cases foundWild with
          | none => exact hself answers (by simpa using h) hne'
          | some answersWild =>
            simp only [Option.isNone_some, if_true, Option.some.injEq] at h
            subst h
            obtain ⟨readType, hreadType, hheld⟩ := hwildAnswers _ rfl hne'
            exact ⟨wildcardName, by simp [hw], readType, hreadType, hheld⟩
      · rename_i hsame
        have hsame' : wildcardName = query.name := not_not.mp hsame
        exact Returns.pure fun _ => ⟨found, rfl, hnameFound.trans
          (absent_iff_of_no_wildcard fun _ h => by rw [hw, Option.some.injEq] at h; rw [← h, hsame']).symm,
          hself⟩
  · -- answers under the name
    have hanswered := hempty
    refine Returns.pure fun _ => ⟨found, rfl, iff_of_false ?_ fun habsent => ?_, hself⟩
    · rintro rfl
      exact hanswered rfl
    · have hnone := hnameFound.mpr habsent.1
      subst hnone
      exact hanswered rfl

end Reads

/-- The code `lookup` responds with is NXDOMAIN exactly when the store found nothing. -/
theorem remoteCode_ok_eq_nxdomain (found : Option (List Record)) :
    remoteCode (.ok found) = .NXDomain ↔ found = none := by
  cases found <;> simp [remoteCode]

/-! ## The response -/

/-- A store that answers from a map of records and leaves the world alone. -/
def mapStore (records : StoreRecords Country) : StoreGet Country :=
  fun zoneName recordName recordType _ =>
    pure (match records zoneName recordName recordType with
      | some record => .ok record
      | none => .error .NotFound)

theorem readsFrom_mapStore (records : StoreRecords Country) : ReadsFrom records (mapStore records) := by
  intro zoneName recordName recordType origin
  refine Returns.pure fun _ => ?_
  cases h : records zoneName recordName recordType with
  | none => simp
  | some record => simp

end Constellation.Dns
