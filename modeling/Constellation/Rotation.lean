import Constellation.Provenance

/-! # Dead values are out of rotation

With health checks enabled, `parse_from_records` answers a query of a type the checks cover
(A, AAAA, CNAME) without the values the dead register holds for the query's zone and the
record's name. It answers with the values left, or, when none is left, with the rescue values,
and for a flattened CNAME with what the resolver answered for those.

A query is answered at any state a run of the process reaches: `Serving` fixes the register and
the messages sent as they are there, and follows the store, the registry and the messages the
query adds. The handler is traced through it as for `Traces`, with the values a record offers
narrowed to those live under the register.
-/

namespace Constellation

open Store Dns Cache TaskM

variable {Country Addr : Type}

namespace Dns

/-- The value may be served under the dead register: a rescue value of the record, or a value
whose status, for the zone, the query's type and the record's name, is not dead. -/
def LiveFor (env : Env Country Addr) (dead : DeadRegister) (zoneName : ZoneName)
    (recordType : RecordType) (record : StoreRecord Country) (value : RecordValue) : Prop :=
  value ∈ record.rescue.getD [] ∨
    DNSHealth.status env.conf.dns.health dead zoneName recordType record.name value ≠ .Dead

theorem liveFor_of_mem_prepared {env : Env Country Addr} {dead : DeadRegister}
    {zoneName : ZoneName} {recordType : RecordType} {record : StoreRecord Country}
    {values : RecordValues} {value : RecordValue}
    (h : value ∈ preparedValues env dead zoneName recordType record values) :
    LiveFor env dead zoneName recordType record value :=
  (mem_preparedValues h).elim (fun hlive => Or.inr hlive.2) Or.inl

/-- With the checks on and a type they cover, a live value is a rescue value or not in the
register. -/
theorem LiveFor.rescue_or_not_mem {env : Env Country Addr} {dead : DeadRegister}
    {zoneName : ZoneName} {recordType : RecordType} {record : StoreRecord Country}
    {value : RecordValue} (hcheck : env.conf.dns.health.checkEnable = true)
    (hchecked : DNSHealth.shouldCheckRecord recordType = true)
    (h : LiveFor env dead zoneName recordType record value) :
    value ∈ record.rescue.getD [] ∨ (zoneName, record.name, value) ∉ dead :=
  h.imp id fun hstatus hdead =>
    hstatus (DNSHealth.status_eq_dead_iff.mpr ⟨hcheck, hchecked, hdead⟩)

end Dns

/-! ## The state a query is answered from -/

/-- The messages sent are those of `sent`, then messages whose answers are `sendable`. -/
def SentSince (sent : List Message) (sendable : Record → Prop) (now : List Message) : Prop :=
  ∃ later, now = sent ++ later ∧ ∀ message ∈ later, ∀ answer ∈ message.answers, sendable answer

/-- What answering a query keeps, from a state with dead register `dead` where `sent` had been
sent: the cache agrees with the one server, the servers hold `held` records, the registry holds
the resolver's answers, the register is as it was, and the messages sent since have `sendable`
answers. -/
structure Serving (env : Env Country Addr) (held : StoreRecord Country → Prop)
    (answered : DNSFlattenRegistryKey → RecordValues → Prop) (dead : DeadRegister)
    (sent : List Message) (sendable : Record → Prop) (w : World Country) : Prop where
  coherent : Coherent env w
  servers : HeldOnServers env held w
  registry : RegistrySound answered w.registry
  dead : w.dead = dead
  fresh : SentSince sent sendable w.sent

section Serving

variable {env : Env Country Addr} {held : StoreRecord Country → Prop}
  {answered : DNSFlattenRegistryKey → RecordValues → Prop} {dead : DeadRegister}
  {sent : List Message} {sendable : Record → Prop}

/-- The parts of `Serving`, each kept on its own, keep it. -/
theorem Serving.ensures {α : Type} {Q Q' : α → Prop} {x : TaskM Country α}
    (hstore : Ensures (fun w => Coherent env w ∧ HeldOnServers env held w) Q x)
    (hregistry : Ensures (fun w : World Country => RegistrySound answered w.registry) Q' x)
    (hrest : Keeps (fun w : World Country => w.dead = dead ∧ SentSince sent sendable w.sent) x) :
    Ensures (Serving env held answered dead sent sendable) (fun a => Q a ∧ Q' a) x := fun w hw =>
  have h := (hstore.and (hregistry.and hrest)) w
    ⟨⟨hw.coherent, hw.servers⟩, hw.registry, hw.dead, hw.fresh⟩
  ⟨⟨h.1.1.1, h.1.1.2, h.1.2.1, h.1.2.2.1, h.1.2.2.2⟩,
    fun a w' he => ⟨(h.2 a w' he).1, (h.2 a w' he).2.1⟩⟩

theorem offStore_sentSince :
    OffStore fun w : World Country => w.dead = dead ∧ SentSince sent sendable w.sent :=
  fun _ _ _ _ _ _ hw => hw

theorem Serving.metrics {w : World Country} (hw : Serving env held answered dead sent sendable w)
    (metrics : MetricsStore Country) : Serving env held answered dead sent sendable { w with metrics } :=
  ⟨onStore_coherent w _ rfl rfl hw.coherent, hw.servers.of_keyspaces rfl, hw.registry, hw.dead,
    hw.fresh⟩

/-- Through the states of `Serving`, each pass through the flatten registry returns no value or
an answer of the resolver. -/
theorem ensures_flattenPass_serving (recordType : RecordType) (recordValue : RecordValue)
    (recordTtl : UInt32) :
    Ensures (Serving env held answered dead sent sendable)
      (fun result => ∀ values, result = .ok values →
        values = [] ∨ answered (recordValue, recordType) values)
      (flattenPass recordType recordValue recordTtl : TaskM Country _) :=
  (Serving.ensures (keeps_flattenPass onStore_coherent_held.answersKeep _ _ _)
    (ensures_flattenPass_sound recordType recordValue recordTtl)
    (keeps_flattenPass (I := fun w : World Country => w.dead = dead ∧ SentSince sent sendable w.sent)
      ⟨keeps_readClock offStore_sentSince.stepsKeep, fun _ _ _ hw => hw, fun _ _ hw => hw⟩
      _ _ _)).mono fun _ h => h.2

variable (env held answered dead sent sendable) in
/-- The DNS server's handler, reading the store through `Store::get`, is traced by `Serving`: the
answers it builds from a record are built from values the record offers that are live under the
register. -/
theorem traced_serving [DecidableEq Country] :
    Traced env (Store.get env) (Serving env held answered dead sent sendable) held
      (fun zoneName recordType record => BuiltFrom env answered fun value =>
        record.Offers value ∧ LiveFor env dead zoneName recordType record value) sendable where
  read zoneName recordName recordType origin :=
    (Serving.ensures (ensures_get_held zoneName recordName recordType origin)
      (keeps_get (fun _ _ _ _ _ _ hw => hw) env _ _ _ _)
      (keeps_get offStore_sentSince env _ _ _ _)).mono fun _ h => h.1
  parse queryNameClient queryType recordType source zoneName record records :=
    ensures_parseFromRecords_builtFrom env ensures_flattenPass_serving
      (fun _ _ hw => hw.metrics _) queryNameClient queryType recordType source zoneName record
      records fun w hw value hv => by
        refine ⟨offers_of_mem_prepared (fun _ h => offers_of_mem_pickValues h) value hv, ?_⟩
        rw [← hw.dead]
        exact liveFor_of_mem_prepared hv
  metrics _ _ hw := hw.metrics _
  send w message _ hw hmessage := by
    refine ⟨onStore_coherent w _ rfl rfl hw.coherent, hw.servers.of_keyspaces rfl, hw.registry,
      hw.dead, ?_⟩
    obtain ⟨later, hsent, hlater⟩ := hw.fresh
    refine ⟨later ++ [message], by rw [hsent, List.append_assoc], fun sentMessage hmem => ?_⟩
    rcases List.mem_append.mp hmem with hold | hnew
    · exact hlater sentMessage hold
    · rw [List.mem_singleton.mp hnew]
      exact hmessage

end Serving

/-- With one Redis server, a lawful encoding and health checks enabled, take any run of the
process from its start, whatever the order of its threads' tasks, and then a query of a type the
checks cover. The query adds messages to those sent, and every answer they carry is a local SOA
or NS record, or is built by `to_hickory` from a record the server held at the start or a task
wrote through `Store::set`: from one of the values it offers that is a rescue value or is not in
the dead register for the query's zone and the record's name, or from a value the resolver
answered for such a value. -/
theorem process_answers_skip_dead [DecidableEq Country] (env : Env Country Addr)
    (hs : env.serde.Lawful) {keyspaces : List Keyspace} (hlen : keyspaces.length = 1) (now : ℕ)
    (io : Io) (hcheck : env.conf.dns.health.checkEnable = true) (handler : DNSHandler)
    (answered : DNSFlattenRegistryKey → RecordValues → Prop)
    (steps : List (ProcessStep Country Addr)) (hsteps : ∀ step ∈ steps, step.Answers answered)
    (request : Request Addr) {zoneName : ZoneName} {recordType : RecordType}
    (hzone : (handler.findAuthorityRecurse request.query.name).bind
      (fun authority => ZoneName.fromHickory env.conf.dns authority.origin) = some zoneName)
    (htype : RecordType.fromHickory request.query.queryType = some recordType)
    (hchecked : DNSHealth.shouldCheckRecord recordType = true) :
    let reached := finalState ((steps.forM (ProcessStep.run env handler)).run
      (World.init keyspaces now io))
    let answeredAt := finalState ((ProcessStep.run env handler (.query request)).run reached)
    ∃ later, answeredAt.sent = reached.sent ++ later ∧
      ∀ message ∈ later, ∀ answer ∈ message.answers, handler.Local answer ∨
        ∃ record, Written env keyspaces steps record ∧ BuiltFrom env answered (fun value =>
          record.Offers value ∧
            (value ∈ record.rescue.getD [] ∨ (zoneName, record.name, value) ∉ reached.dead))
          answer := by
  intro reached answeredAt
  have htraces := traces_reached hs hlen now io handler hsteps
  -- the answers the lookup builds from the store are of the query's zone and type
  have hstore : ∀ authority zone kind answer,
      handler.findAuthorityRecurse request.query.name = some authority →
      ZoneName.fromHickory env.conf.dns authority.origin = some zone →
      RecordType.fromHickory request.query.queryType = some kind →
      StoreAnswer (Written env keyspaces steps) (fun zoneName recordType record =>
        BuiltFrom env answered fun value =>
          record.Offers value ∧ LiveFor env reached.dead zoneName recordType record value)
        zone kind answer →
      handler.Local answer ∨ ∃ record, Written env keyspaces steps record ∧
        BuiltFrom env answered (fun value => record.Offers value ∧
          (value ∈ record.rescue.getD [] ∨ (zoneName, record.name, value) ∉ reached.dead))
          answer := by
    intro authority zone kind answer hauthority hzone' hkind ⟨record, hheld, hbuilt⟩
    rw [hauthority, Option.bind_some, hzone'] at hzone
    obtain rfl := Option.some.inj hzone
    obtain rfl := Option.some.inj (hkind.symm.trans htype)
    exact Or.inr ⟨record, hheld, hbuilt.mono fun value ⟨hoffers, hlive⟩ =>
      ⟨hoffers, hlive.rescue_or_not_mem hcheck hchecked⟩⟩
  have hquery : Keeps _ (ProcessStep.run env handler (.query request)) :=
    ((traced_serving env (Written env keyspaces steps) answered reached.dead reached.sent
      _).keeps_handleRequestInfo handler request (fun _ h => Or.inl h) hstore).bind
        fun _ _ => Ensures.pure trivial
  exact (hquery reached ⟨htraces.coherent, htraces.servers, htraces.registry, rfl,
    [], (List.append_nil _).symm, fun _ h => by cases h⟩).1.fresh

end Constellation
