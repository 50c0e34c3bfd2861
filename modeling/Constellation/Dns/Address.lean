import Constellation.Dns.Reads
import Constellation.Store.Isolation

/-! # The key a query reads

`put_zone_record` writes the record of zone `Z`, name `N` and type `T` under the key of
`ZoneNameExists::from_str(Z)`, `RecordName::from_str(N)` and `T`. A DNS query comes to a key
in three steps: `find_authority_recurse` picks the authority of the longest configured zone
the query ends with, `ZoneName::from_hickory` reads the zone back from the authority's origin,
and `RecordName::from_hickory` strips the zone from the query. For the query
`to_subdomain(N) ++ Z ++ "."`, in any case, where `Z` is the longest configured zone it ends
with, the first read of the lookup is of the key the API writes, provided `Z` is configured
in lowercase.

A zone configured with a capital letter is loaded all the same, but its origin reads back
lowercased and is then not found in the configuration: the lookup reads nothing.
-/

namespace Constellation.Dns

open Store Cache TaskM Text

/-! ## Printed names -/

theorem flatten_map_append_of_ne_nil {α : Type} (sep : α) :
    ∀ {ls : List (List α)}, ls ≠ [] →
      (ls.map (· ++ [sep])).flatten = [sep].intercalate ls ++ [sep]
  | [l], _ => by simp
  | l :: l' :: rest, _ => by
    rw [List.map_cons, List.flatten_cons, flatten_map_append_of_ne_nil sep (List.cons_ne_nil l' rest),
      List.intercalate_cons_cons]
    simp

theorem flatten_map_append_splitOn (xs : List Char) :
    ((xs.splitOn '.').map (· ++ ['.'])).flatten = xs ++ ['.'] := by
  rw [flatten_map_append_of_ne_nil '.' (List.splitOn_ne_nil _ _), List.intercalate_splitOn]

/-- A name that does not end with a dot parses into labels that print as the name and a
closing dot. -/
theorem labelsToString_of_parse {s : List Char} {name : Name} (h : Name.parse s = some name)
    (hlast : s.getLast? ≠ some '.') : labelsToString name.labels = s ++ ['.'] := by
  have hroot : s ≠ ['.'] := by
    rintro rfl
    exact hlast rfl
  have hparts : Name.parts s = s.splitOn '.' := by
    rw [Name.parts, if_neg hlast]
  unfold Name.parse at h
  rw [if_neg hroot] at h
  split at h
  · next hcond =>
    cases h
    have htexts : (Name.mkLabels (Name.parts s) fun p hp =>
        ⟨(hcond.1 p hp).1, Name.dot_not_mem_parts hp, (hcond.1 p hp).2⟩).map Label.text =
          s.splitOn '.' := by
      rw [Name.map_text_mkLabels, hparts]
    have hne : Name.mkLabels (Name.parts s) (fun p hp =>
        ⟨(hcond.1 p hp).1, Name.dot_not_mem_parts hp, (hcond.1 p hp).2⟩) ≠ [] := by
      intro he
      rw [he, List.map_nil] at htexts
      exact List.splitOn_ne_nil _ _ htexts.symm
    rw [labelsToString, if_neg hne, ← flatten_map_append_splitOn, ← htexts, List.map_map]
    rfl
  · cases h

theorem labels_ne_nil_of_parse {s : List Char} {name : Name} (h : Name.parse s = some name)
    (hlast : s.getLast? ≠ some '.') : name.labels ≠ [] := by
  intro hnil
  have hs := labelsToString_of_parse h hlast
  rw [hnil, labelsToString, if_pos rfl] at hs
  obtain rfl : s = [] := by simpa using hs
  simp [Name.parse, Name.parts] at h

theorem toLowercase_labelsToString {labels : List Label} :
    toLowercase (labelsToString labels) = labelsToString (labels.map Label.toLower) := by
  by_cases h : labels = []
  · subst h
    rfl
  · have hdot : toLowercase ['.'] = ['.'] := rfl
    rw [labelsToString, if_neg h, labelsToString, if_neg (by simpa using h), toLowercase,
      List.map_flatten, List.map_map, List.map_map]
    congr 1
    apply List.map_congr_left
    intro l _
    simp only [Function.comp_apply, List.map_append]
    rfl

/-- A lowered name prints in lowercase. -/
theorem toLowercase_toString (name : LowerName) : toLowercase name.toString = name.toString := by
  have hlower : name.labels.map Label.toLower = name.labels :=
    List.map_congr_left (fun l hl => Label.toLower_eq_self (name.lower l hl)) |>.trans
      (List.map_id _)
  rw [LowerName.toString, toLowercase_labelsToString, hlower]

theorem toString_new (name : Name) :
    (LowerName.new name).toString = toLowercase (labelsToString name.labels) := by
  rw [toLowercase_labelsToString]
  rfl

theorem labelsToString_append {labels : List Label} (sub : List Label) (h : labels ≠ []) :
    labelsToString (sub ++ labels) =
      (sub.map fun l => l.text ++ ['.']).flatten ++ labelsToString labels := by
  rw [labelsToString, if_neg (by simp [h]), labelsToString, if_neg h, List.map_append,
    List.flatten_append]

theorem getLast?_labelsToString (labels : List Label) :
    (labelsToString labels).getLast? = some '.' := by
  by_cases h : labels = []
  · subst h
    rfl
  · have hflat : (labels.map fun l => l.text ++ ['.']).flatten =
        ((labels.map Label.text).map (· ++ ['.'])).flatten := by
      rw [List.map_map]
      rfl
    rw [labelsToString, if_neg h, hflat, flatten_map_append_of_ne_nil '.' (by simpa using h),
      List.getLast?_concat]

/-! ## Names as the regexes accept them -/

theorem RecordName.getLast?_of_tailMatches {l : List Char}
    (h : RecordName.tailMatches l = true) : l.getLast? = some '@' := by
  rw [← List.head?_reverse]
  unfold RecordName.tailMatches at h
  split at h
  · cases h
  · next c hc =>
    rw [hc]
    simpa using h
  · next c d body hc =>
    rw [hc]
    simp only [Bool.and_eq_true, beq_iff_eq] at h
    rw [h.1.1.1]
    rfl

/-- A record name ends with `@`. -/
theorem RecordName.getLast?_val (name : RecordName) : name.val.toList.getLast? = some '@' := by
  have hvalid := name.valid
  simp only [RecordName.validate, Bool.or_eq_true, Bool.and_eq_true] at hvalid
  rcases hvalid with htail | ⟨-, htail⟩
  · exact RecordName.getLast?_of_tailMatches htail
  · rw [← List.take_append_drop 2 name.val.toList, List.getLast?_append,
      RecordName.getLast?_of_tailMatches htail]
    rfl

/-- The subdomain of a record name and `@` make the name. -/
theorem RecordName.toSubdomain_append (name : RecordName) :
    name.toSubdomain.toList ++ ['@'] = name.val.toList := by
  obtain ⟨init, hinit⟩ := List.getLast?_eq_some_iff.mp (RecordName.getLast?_val name)
  unfold RecordName.toSubdomain
  split
  · rw [String.toList_ofList, hinit, List.dropLast_concat]
  · next hlen =>
    have hat : ('@' : Char).utf8Size = 1 := by decide
    have hzero : byteLen init = 0 := by
      rw [hinit, byteLen_append, byteLen_cons, byteLen_nil, hat] at hlen
      omega
    rw [hinit, byteLen_eq_zero_iff.mp hzero]
    rfl

/-- A zone does not end with a dot. -/
theorem ZoneName.getLast?_ne_dot {value : String} (h : ZoneName.validate value = true) :
    value.toList.getLast? ≠ some '.' := by
  intro hlast
  obtain ⟨rest, hrest⟩ : ∃ rest, value.toList.reverse = '.' :: rest := by
    rw [← List.head?_reverse] at hlast
    cases hr : value.toList.reverse with
    | nil => simp [hr] at hlast
    | cons c rest =>
      rw [hr, List.head?_cons, Option.some.injEq] at hlast
      exact ⟨rest, by rw [hlast]⟩
  simp [ZoneName.validate, ZoneName.splitLastDot, hrest] at h

/-! ## From the query to the key -/

/-- A zone `ZoneNameExists` accepts is configured as written and passes the regex. -/
theorem ZoneNameExists.fromStr_eq_some {dns : ConfigDNS} {zone : String}
    {zoneName : ZoneNameExists} (h : ZoneNameExists.fromStr dns zone = some zoneName) :
    zone ∈ dns.zone ∧ ZoneName.validate zone = true ∧
      ZoneName.fromStrExists dns zone = some zoneName.intoInner := by
  obtain ⟨inner, hinner, rfl⟩ := Option.map_eq_some_iff.mp h
  unfold ZoneName.fromStrExists ZoneName.fromStr at hinner
  split at hinner
  · next hexists =>
    split at hinner
    · next hvalid =>
      refine ⟨by simpa [ConfigDNS.zoneExists] using hexists, hvalid, ?_⟩
      rw [ZoneName.fromStrExists, if_pos hexists, ZoneName.fromStr, dif_pos hvalid, hinner]
    · cases hinner
  · cases hinner

/-- The zone read back from the origin of a zone configured in lowercase is that zone. -/
theorem ZoneName.fromHickory_new {dns : ConfigDNS} {zone : String} {zoneName : ZoneNameExists}
    {name : Name} (hzone : ZoneNameExists.fromStr dns zone = some zoneName)
    (hlower : toLowercase zone.toList = zone.toList) (hparse : Name.parse zone.toList = some name) :
    ZoneName.fromHickory dns (LowerName.new name) = some zoneName.intoInner := by
  obtain ⟨-, hvalid, hinner⟩ := ZoneNameExists.fromStr_eq_some hzone
  have hlow : toLowercase (zone.toList ++ ['.']) = zone.toList ++ ['.'] := by
    rw [toLowercase_append, hlower]
    rfl
  have hstr : (LowerName.new name).toString = zone.toList ++ ['.'] := by
    rw [toString_new, labelsToString_of_parse hparse (ZoneName.getLast?_ne_dot hvalid), hlow]
  simp [ZoneName.fromHickory, hstr, hlow, hinner]

/-- The record name read off a query whose labels are those of a subdomain followed by those
of the origin is the name of that subdomain. -/
theorem RecordName.fromHickory_append {origin query : LowerName} {sub : List Label}
    {name : RecordName} (horigin : origin.labels ≠ []) (hquery : query.labels = sub ++ origin.labels)
    (hsub : (sub.map fun l => l.text ++ ['.']).flatten = name.toSubdomain.toList) :
    RecordName.fromHickory origin query = some name := by
  have hstr : query.toString = name.toSubdomain.toList ++ origin.toString := by
    rw [LowerName.toString, hquery, labelsToString_append sub horigin, hsub]
    rfl
  have hlast : (name.toSubdomain.toList ++ origin.toString).getLast? = some '.' := by
    rw [List.getLast?_append, LowerName.toString, getLast?_labelsToString]
    rfl
  have hcond : name.toSubdomain.toList ++ origin.toString ≠ [] ∧
      (name.toSubdomain.toList ++ origin.toString).getLast? = some '.' ∧
      origin.toString.isSuffixOf (name.toSubdomain.toList ++ origin.toString) = true := by
    refine ⟨fun h => ?_, hlast, ?_⟩
    · rw [h] at hlast
      cases hlast
    · rw [List.isSuffixOf_iff_suffix]
      exact List.suffix_append _ _
  have hlow : toLowercase query.toString = name.toSubdomain.toList ++ origin.toString := by
    rw [toLowercase_toString, hstr]
  simp only [RecordName.fromHickory, hlow, toLowercase_toString]
  rw [if_pos hcond, List.length_append, Nat.add_sub_cancel, List.take_left' rfl,
    RecordName.toSubdomain_append, String.ofList_toList]
  exact RecordName.fromStr_toStr name

/-! ## The authorities of the configured zones -/

/-- A zone that parses loads, under the origin of its parsed name, unless loading panics. -/
theorem DNSListen.zoneAuthority_of_parse {dns : ConfigDNS} {zone : String} {name : Name}
    {result : Option (Name × DNSAuthority)} (hparse : Name.parse zone.toList = some name)
    (h : DNSListen.zoneAuthority dns zone = .ok result) :
    ∃ authority, result = some (name, authority) ∧ authority.origin = LowerName.new name := by
  unfold DNSListen.zoneAuthority at h
  rw [hparse] at h
  obtain ⟨_, -, h⟩ := except_bind_eq_ok.mp h
  obtain ⟨_, -, h⟩ := except_bind_eq_ok.mp h
  obtain ⟨_, -, h⟩ := except_bind_eq_ok.mp h
  cases h
  exact ⟨_, rfl, rfl⟩

/-- A zone that loads has the origin of its parsed name. -/
theorem DNSListen.zoneAuthority_eq_some {dns : ConfigDNS} {zone : String} {name : Name}
    {authority : DNSAuthority}
    (h : DNSListen.zoneAuthority dns zone = .ok (some (name, authority))) :
    Name.parse zone.toList = some name ∧ authority.origin = LowerName.new name := by
  cases hparse : Name.parse zone.toList with
  | none =>
    rw [DNSListen.zoneAuthority, hparse] at h
    cases h
  | some name' =>
    obtain ⟨_, hsome, horigin⟩ := DNSListen.zoneAuthority_of_parse hparse h
    cases hsome
    exact ⟨rfl, horigin⟩

/-- One step of loading the zones: a zone that does not parse leaves the handler as it was,
and a zone that loads adds its authority under its lowered name. -/
theorem DNSListen.handler_step {dns : ConfigDNS} {zone : String} {x y : DNSHandler}
    (h : (do
      match ← DNSListen.zoneAuthority dns zone with
      | some (name, authority) => pure (x.addAuthority (LowerName.new name) authority)
      | none => pure x : Except Panic DNSHandler) = .ok y) :
    (DNSListen.zoneAuthority dns zone = .ok none ∧ y = x) ∨
      ∃ name authority, DNSListen.zoneAuthority dns zone = .ok (some (name, authority)) ∧
        y = x.addAuthority (LowerName.new name) authority := by
  obtain ⟨result, hresult, hy⟩ := except_bind_eq_ok.mp h
  rcases result with _ | ⟨name, authority⟩
  · cases hy
    exact .inl ⟨hresult, rfl⟩
  · cases hy
    exact .inr ⟨name, authority, hresult, rfl⟩

/-- Every authority of the handler `DNSListen` builds is that of a configured zone that
parses, under the lowered name of the zone, which is its origin. -/
theorem DNSListen.authorities_handler {dns : ConfigDNS} {handler : DNSHandler}
    (h : DNSListen.handler dns = .ok handler) {key : LowerName} {authority : DNSAuthority}
    (ha : handler.authorities key = some authority) :
    authority.origin = key ∧ ∃ zone ∈ dns.zone, ∃ name, Name.parse zone.toList = some name ∧
      LowerName.new name = key := by
  let Loaded : DNSHandler → Prop := fun handler => ∀ key authority,
    handler.authorities key = some authority → authority.origin = key ∧
      ∃ zone ∈ dns.zone, ∃ name, Name.parse zone.toList = some name ∧ LowerName.new name = key
  have hnew : Loaded DNSHandler.new := fun _ _ hnone => by cases hnone
  refine foldlM_invariant Loaded dns.zone (fun zone hzone x y hx hy => ?_) hnew h key authority ha
  rcases DNSListen.handler_step hy with ⟨-, rfl⟩ | ⟨name, loaded, hresult, rfl⟩
  · exact hx
  · obtain ⟨hparse, horigin⟩ := DNSListen.zoneAuthority_eq_some hresult
    intro key' authority' ha'
    by_cases hkey : key' = LowerName.new name
    · subst hkey
      simp only [DNSHandler.addAuthority, Function.update_self, Option.some.injEq] at ha'
      subst ha'
      exact ⟨horigin, zone, hzone, name, hparse, rfl⟩
    · simp only [DNSHandler.addAuthority, Function.update_of_ne hkey] at ha'
      exact hx key' authority' ha'

/-- Every configured zone that parses has an authority under its lowered name. -/
theorem DNSListen.authorities_handler_of_mem {dns : ConfigDNS} {handler : DNSHandler}
    (h : DNSListen.handler dns = .ok handler) {zone : String} (hmem : zone ∈ dns.zone) {name : Name}
    (hparse : Name.parse zone.toList = some name) :
    (handler.authorities (LowerName.new name)).isSome := by
  obtain ⟨before, after, hsplit⟩ := List.append_of_mem hmem
  unfold DNSListen.handler at h
  rw [hsplit, List.foldlM_append, except_bind_eq_ok] at h
  obtain ⟨middle, -, h⟩ := h
  rw [List.foldlM_cons, except_bind_eq_ok] at h
  obtain ⟨loaded, hloaded, h⟩ := h
  let Holds : DNSHandler → Prop := fun handler => (handler.authorities (LowerName.new name)).isSome
  have hstep : Holds loaded := by
    rcases DNSListen.handler_step hloaded with ⟨hnone, -⟩ | ⟨name', authority, hresult, rfl⟩
    · obtain ⟨_, hsome, -⟩ := DNSListen.zoneAuthority_of_parse hparse hnone
      cases hsome
    · obtain ⟨_, hsome, -⟩ := DNSListen.zoneAuthority_of_parse hparse hresult
      cases hsome
      simp [Holds, DNSHandler.addAuthority]
  refine foldlM_invariant Holds after (fun zone' _ x y hx hy => ?_) hstep h
  rcases DNSListen.handler_step hy with ⟨-, rfl⟩ | ⟨name', authority', -, rfl⟩
  · exact hx
  · by_cases hkey : LowerName.new name = LowerName.new name'
    · simp [Holds, DNSHandler.addAuthority, hkey]
    · simpa [Holds, DNSHandler.addAuthority, Function.update_of_ne hkey] using hx

theorem labels_iterate_baseName (k : ℕ) (name : LowerName) :
    (LowerName.baseName^[k] name).labels = name.labels.drop k := by
  induction k generalizing name with
  | zero => rfl
  | succ k ih =>
    rw [Function.iterate_succ_apply, ih]
    exact List.drop_tail

/-- `find_authority_recurse` stops at the first ancestor with an authority, when that ancestor
is not the root. -/
theorem findAuthorityRecurse_go_of_first (handler : DNSHandler) {authority : DNSAuthority} :
    ∀ (k fuel : ℕ) (name : LowerName), k ≤ fuel → k < name.labels.length →
      (∀ j < k, handler.authorities (LowerName.baseName^[j] name) = none) →
      handler.authorities (LowerName.baseName^[k] name) = some authority →
      DNSHandler.findAuthorityRecurse.go handler fuel name = some authority
  | 0, 0, name, _, _, _, ha => ha
  | 0, fuel + 1, name, _, _, _, ha => by
    rw [DNSHandler.findAuthorityRecurse.go]
    rw [Function.iterate_zero_apply] at ha
    rw [ha]
  | k + 1, 0, _, hk, _, _, _ => absurd hk (by omega)
  | k + 1, fuel + 1, name, hk, hlen, hnone, ha => by
    have hname : handler.authorities name = none := hnone 0 (Nat.zero_lt_succ k)
    have hlen' : k < name.baseName.labels.length := by
      rw [LowerName.baseName, List.length_tail]
      omega
    have hbase : name.baseName.isRoot = false := by
      rw [LowerName.isRoot, List.isEmpty_eq_false_iff]
      exact List.ne_nil_of_length_pos (by omega)
    have hrest := findAuthorityRecurse_go_of_first handler k fuel name.baseName (by omega) hlen'
      (fun j hj => by
        rw [← Function.iterate_succ_apply]
        exact hnone (j + 1) (by omega))
      (by rw [← Function.iterate_succ_apply]; exact ha)
    rw [DNSHandler.findAuthorityRecurse.go, hname]
    simp only [hbase, Bool.not_false, ↓reduceIte, hrest]

/-! ## The first read of a lookup -/

variable {Country Addr : Type} [DecidableEq Country] (env : Env Country Addr)
  (storeGet : StoreGet Country)

omit [DecidableEq Country] in
/-- The local records answer no query of a type Constellation stores. -/
theorem search_isEmpty_toHickory (authority : DNSAuthority) (name : LowerName)
    (recordType : RecordType) : (authority.search ⟨name, recordType.toHickory⟩).isEmpty = true := by
  cases recordType <;> simp [DNSAuthority.search, RecordType.toHickory, AuthLookup.isEmpty]

/-- When the query names a record of a stored type, `records_from_store` counts the type and
then reads that record first. -/
theorem recordsFromStore_first_read {authority : DNSAuthority} (zoneName : ZoneName)
    (source : Addr) {query : LowerQuery} {recordName : RecordName} {recordType : RecordType}
    (hname : RecordName.fromHickory authority.origin query.name = some recordName)
    (htype : RecordType.fromHickory query.queryType = some recordType) :
    ∃ k, recordsFromStore env storeGet authority (some zoneName) source query =
      stackZone (some zoneName) (.QueryType (some recordType)) >>= fun _ =>
        storeGet zoneName recordName recordType .External >>= k := by
  simp only [recordsFromStore, htype, recordsFromStoreAttempt, hname, recordsOfType,
    appendFromStore, bind_assoc]
  exact ⟨_, rfl⟩

/-- A lookup the local records do not answer reads the store first as `records_from_store`
does. -/
theorem lookup_first_read {handler : DNSHandler} {request : Request Addr}
    {authority : DNSAuthority} {zoneName : ZoneName} {recordName : RecordName}
    {recordType : RecordType}
    (hfind : handler.findAuthorityRecurse request.query.name = some authority)
    (hzone : ZoneName.fromHickory env.conf.dns authority.origin = some zoneName)
    (hlocal : (authority.search request.query).isEmpty = true)
    (hname : RecordName.fromHickory authority.origin request.query.name = some recordName)
    (htype : RecordType.fromHickory request.query.queryType = some recordType) :
    ∃ k, lookup env storeGet handler request =
      stackZone (some zoneName) (.QueryType (some recordType)) >>= fun _ =>
        storeGet zoneName recordName recordType .External >>= k := by
  obtain ⟨k, hk⟩ := recordsFromStore_first_read env storeGet zoneName request.src hname htype
  simp only [lookup, hfind, hzone, hlocal, Bool.not_true, Bool.false_eq_true, ↓reduceIte, hk,
    bind_assoc]
  exact ⟨_, rfl⟩

/-- A lookup whose authority's zone does not read back from the configuration reads nothing:
it is the same in any two stores. -/
theorem lookup_of_fromHickory_none {handler : DNSHandler} {request : Request Addr}
    {authority : DNSAuthority} (first second : StoreGet Country)
    (hfind : handler.findAuthorityRecurse request.query.name = some authority)
    (hzone : ZoneName.fromHickory env.conf.dns authority.origin = none) :
    lookup env first handler request = lookup env second handler request := by
  simp only [lookup, hfind, hzone, recordsFromStore, recordsFromStoreAttempt]

/-- The labels of `example.com`. -/
def exampleZoneLabels : Name :=
  match Name.parse "example.com".toList with
  | some name => name
  | none => ⟨[], wireLen_nil_le⟩

/-- The query `www.example.com. A`. -/
def wwwRequest : Request Unit :=
  { id := 11, messageType := .Query, opCode := .Query, recursionDesired := false,
    query := ⟨match Name.parse "www.example.com.".toList with
      | some name => LowerName.new name
      | none => rootLowerName, .A⟩,
    src := () }

/-- `RecordData`, the body of `put_zone_record`. -/
structure RecordData (Country : Type) where
  ttl : Option UInt32
  flatten : Option Bool
  blackhole : Option (RecordBlackhole Country)
  regions : Option RecordRegions
  rescue : Option RecordValues
  values : RecordValues

/-- The responses of `put_zone_record`. -/
inductive HttpResponse
  | Ok | ServiceUnavailable
  deriving DecidableEq, Repr

/-- `put_zone_record`: the path read into a zone that exists, a record name and a type, and
the record of the body set in the store. -/
def putZoneRecord (zoneName : ZoneNameExists) (recordName : RecordName) (recordType : RecordType)
    (data : RecordData Country) : TaskM Country HttpResponse := do
  match ← Store.set env zoneName.intoInner ⟨recordType, recordName, data.ttl, data.flatten,
      data.blackhole, data.regions, data.rescue, data.values⟩ with
  | .ok () => pure .Ok
  | .error _ => pure .ServiceUnavailable

/-- `put_zone_record` touches no key but that of its zone, name and type. -/
theorem putZoneRecord_frame (zoneName : ZoneNameExists) (recordName : RecordName)
    (recordType : RecordType) (data : RecordData Country) {other : String}
    (hother : StoreKey.toKey env.fingerprint32 zoneName.intoInner recordName recordType ≠ other)
    (v : Option (Entry (Option (StoreRecord Country))) × List (Option RedisHash)) :
    Keeps (fun w : World Country => w.storeAt other = v)
      (putZoneRecord env zoneName recordName recordType data) := by
  unfold putZoneRecord
  refine (Store.frame_set env ?_ v).bind fun result _ => ?_
  · exact hother
  · split <;> exact Ensures.pure trivial

/-- The configuration of the zone `Example.com`, written with a capital letter. -/
def capitalDns : ConfigDNS := { exampleDns with zone := ["Example.com"] }

/-- The program serving it. -/
def capitalEnv : Env Unit Unit := { exampleEnv with conf := { dns := capitalDns } }

/-- The handler `DNSListen` builds for it. -/
def capitalHandler : DNSHandler :=
  match DNSListen.handler capitalDns with
  | .ok handler => handler
  | .error _ => DNSHandler.new

/-- One Redis server, where `put_zone_record` for `/zone/Example.com/record/www.@/a` wrote one
address. -/
def capitalWorld : World Unit :=
  finalState ((putZoneRecord capitalEnv ⟨servedZone⟩ wwwRecordName .A
    ⟨none, none, none, none, none, [⟨"192.0.2.1"⟩]⟩).run (World.init [fun _ => none] 0 {}))

end Constellation.Dns
