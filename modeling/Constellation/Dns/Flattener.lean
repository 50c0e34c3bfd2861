import Constellation.Dns.Parse

/-! # The flattener's threads

Besides the passes of the DNS handler, two threads work on the flatten registry.
`DNSFlattenBootstrap::tick` runs every 100 ms: it resolves the keys a pass queued, each
with no access time, and takes them off the queue. `DNSFlattenMaintain::run` runs every
minute: `expire` drops the entries idle for ten times their TTL, then `refresh` resolves
again the entries refreshed their TTL ago and writes them back with the access time it
scanned. Each resolution is `DNSFlatten::flatten`. The scans visit the keys in the
iteration order of the `HashMap`, which the model is given, as it is given what the
resolver answers each key.

Over every run of these steps:

* a pass returns no value, or an answer of the resolver for its key, so a flattened CNAME
  answers only values the resolver gave for one of its targets;
* no key is both queued and registered;
* a key a pass queued is served from the registry from the next tick on, until a round of
  the maintain thread;
* an entry that no pass touches keeps its access time through every refresh, so the first
  round of the maintain thread at its limit past that time drops it.
-/

namespace Constellation.Dns

open Cache TaskM

variable {Country : Type}

namespace DNSFlatten

/-- `DNSFlatten::flatten`, once the resolver has answered `outcome`: an error keeps the entry
there is; anything else writes the entry, refreshed at the clock's time. -/
def flattenTask (registryKey : DNSFlattenRegistryKey) (ttl : UInt32) (accessedAt : Option ℕ)
    (outcome : ResolveOutcome) : TaskM Country Unit := do
  let results := results registryKey.2 outcome
  if results.isNone && ((← getThe (World Country)).registry registryKey).isSome then
    pure ()
  else
    let now ← readClock
    modify fun w => { w with
      registry := w.registry.insert registryKey (Entry.new ⟨results.getD [], ttl⟩ now accessedAt) }

end DNSFlatten

namespace DNSFlattenBootstrap

/-- `DNSFlattenBootstrap::tick`: the scan registers the queued keys with their TTL, in the order
`keys` visits the queue; each is then flattened, with no access time, as `resolve` answers, and
taken off the queue. -/
def tick (keys : List DNSFlattenRegistryKey) (resolve : DNSFlattenRegistryKey → ResolveOutcome) :
    TaskM Country Unit := do
  let bootstrap := (← getThe (World Country)).bootstrap
  let bootstrapRegister := keys.filterMap fun bootstrapKey =>
    (bootstrap bootstrapKey).map (bootstrapKey, ·)
  bootstrapRegister.forM fun (bootstrapKey, bootstrapTtl) => do
    DNSFlatten.flattenTask bootstrapKey bootstrapTtl none (resolve bootstrapKey)
    modify fun w => { w with bootstrap := Function.update w.bootstrap bootstrapKey none }

end DNSFlattenBootstrap

namespace DNSFlattenMaintain

/-- `DNSFlattenMaintain::refresh`: the scan, at one reading of the clock, registers the entries
refreshed their TTL ago, with their TTL and access time, in the order `keys` visits the
registry; each is then flattened again, as `resolve` answers, with that access time. -/
def refresh (keys : List DNSFlattenRegistryKey) (resolve : DNSFlattenRegistryKey → ResolveOutcome) :
    TaskM Country Unit := do
  let now ← readClock
  let registry := (← getThe (World Country)).registry
  let refreshRegister := keys.filterMap fun registryKey =>
    (DNSFlattenMaintain.refreshRegister registry now registryKey).bind fun registryAccessedAt =>
      (registry registryKey).map fun registryEntry =>
        (registryKey, registryEntry.value.ttl, registryAccessedAt)
  refreshRegister.forM fun (registryKey, registryTtl, registryAccessedAt) =>
    DNSFlatten.flattenTask registryKey registryTtl (some registryAccessedAt) (resolve registryKey)

/-- A round of `DNSFlattenMaintain::run`: `expire`, then `refresh`, each at its own reading of
the clock. -/
def perform (keys : List DNSFlattenRegistryKey) (resolve : DNSFlattenRegistryKey → ResolveOutcome) :
    TaskM Country Unit := do
  let now ← readClock
  modify fun w => { w with registry := expire w.registry now }
  refresh keys resolve

end DNSFlattenMaintain

/-- A step of the tasks that share the flatten registry: a pass of the DNS handler, a tick of
the bootstrap thread, or a round of the maintain thread, with what the resolver answers in
it. -/
inductive FlattenStep
  | pass (recordType : RecordType) (recordValue : RecordValue) (recordTtl : UInt32)
  | tick (keys : List DNSFlattenRegistryKey) (resolve : DNSFlattenRegistryKey → ResolveOutcome)
  | maintain (keys : List DNSFlattenRegistryKey) (resolve : DNSFlattenRegistryKey → ResolveOutcome)

namespace FlattenStep

def run : FlattenStep → TaskM Country Unit
  | .pass recordType recordValue recordTtl => do
    let _ ← flattenPass recordType recordValue recordTtl
  | .tick keys resolve => DNSFlattenBootstrap.tick keys resolve
  | .maintain keys resolve => DNSFlattenMaintain.perform keys resolve

/-- The key a step passes. -/
def passes : FlattenStep → Option DNSFlattenRegistryKey
  | .pass recordType recordValue _ => some (recordValue, recordType)
  | _ => none

/-- Whether the step expires entries. -/
def expires : FlattenStep → Bool
  | .maintain .. => true
  | _ => false

/-- Every answer with records the resolver gives in the step is `answered`. -/
def Answers (answered : DNSFlattenRegistryKey → RecordValues → Prop) : FlattenStep → Prop
  | .pass .. => True
  | .tick _ resolve | .maintain _ resolve =>
    ∀ registryKey values, resolve registryKey = .records values → answered registryKey values

end FlattenStep

/-! ## What each task does to the registry and the queue -/

section Runs

variable (w : World Country)

/-- The clock never goes back. -/
theorem readClock_run :
    ∃ now io, w.now ≤ now ∧ (readClock : TaskM Country ℕ).run w = .ok now { w with now, io } := by
  cases h : w.io.ticks with
  | nil => exact ⟨w.now, w.io, le_rfl, readClock_run_of_nil h⟩
  | cons d ticks =>
    refine ⟨w.now + d, { w.io with ticks }, Nat.le_add_right _ _, ?_⟩
    simp [readClock, h, EStateM.run, modifyGet, MonadStateOf.modifyGet, EStateM.modifyGet]

theorem DNSFlatten.flattenTask_run (registryKey : DNSFlattenRegistryKey) (ttl : UInt32)
    (accessedAt : Option ℕ) (outcome : ResolveOutcome) :
    ∃ now io, w.now ≤ now ∧ (DNSFlatten.flattenTask registryKey ttl accessedAt outcome).run w =
      .ok () { w with
        registry := DNSFlatten.flatten w.registry registryKey ttl accessedAt
          (DNSFlatten.results registryKey.2 outcome) now, now, io } := by
  by_cases hkeep : (DNSFlatten.results registryKey.2 outcome).isNone ∧ (w.registry registryKey).isSome
  · refine ⟨w.now, w.io, le_rfl, ?_⟩
    simp [DNSFlatten.flattenTask, DNSFlatten.flatten, hkeep.1, hkeep.2, EStateM.run_bind]
  · obtain ⟨now, io, hle, hclock⟩ := readClock_run w
    refine ⟨now, io, hle, ?_⟩
    have hwrite : ¬ (DNSFlatten.results registryKey.2 outcome = none ∧
        (w.registry registryKey).isSome = true) := by
      simpa only [Option.isNone_iff_eq_none] using hkeep
    simp [DNSFlatten.flattenTask, DNSFlatten.flatten, hwrite, EStateM.run_bind, hclock]

theorem DNSFlatten.pass_of_some {registry : DNSFlattenRegistry} {bootstrap : DNSBootstrap}
    {recordType : RecordType} {recordValue : RecordValue} {entry : Entry FlattenValues}
    (h : registry (recordValue, recordType) = some entry) (recordTtl : UInt32) (now : ℕ) :
    DNSFlatten.pass registry bootstrap recordType recordValue recordTtl now =
      (.ok entry.value.values,
        registry.insert (recordValue, recordType) { entry with accessedAt := now }, bootstrap) := by
  simp [DNSFlatten.pass, Map.hit_of_some h]

theorem DNSFlatten.pass_of_none {registry : DNSFlattenRegistry} {bootstrap : DNSBootstrap}
    {recordType : RecordType} {recordValue : RecordValue}
    (h : registry (recordValue, recordType) = none) (recordTtl : UInt32) (now : ℕ) :
    DNSFlatten.pass registry bootstrap recordType recordValue recordTtl now =
      (.error (), registry, Function.update bootstrap (recordValue, recordType) (some recordTtl)) := by
  simp [DNSFlatten.pass, DNSFlatten.queue, Map.hit_of_none h]

/-- A pass is `DNSFlatten.pass` at the clock's time, read only when the key is registered. -/
theorem flattenPass_run (recordType : RecordType) (recordValue : RecordValue) (recordTtl : UInt32) :
    ∃ now io, w.now ≤ now ∧ (flattenPass recordType recordValue recordTtl).run w =
      .ok (DNSFlatten.pass w.registry w.bootstrap recordType recordValue recordTtl now).1
        { w with
          registry := (DNSFlatten.pass w.registry w.bootstrap recordType recordValue recordTtl now).2.1
          bootstrap := (DNSFlatten.pass w.registry w.bootstrap recordType recordValue recordTtl now).2.2
          now, io } := by
  cases h : w.registry (recordValue, recordType) with
  | none =>
    refine ⟨w.now, w.io, le_rfl, ?_⟩
    simp [flattenPass, h, DNSFlatten.pass_of_none h, DNSFlatten.queue, EStateM.run_bind]
  | some entry =>
    obtain ⟨now, io, hle, hclock⟩ := readClock_run w
    refine ⟨now, io, hle, ?_⟩
    simp [flattenPass, h, DNSFlatten.pass_of_some h, EStateM.run_bind, hclock]

/-- An iteration of the tick: the key flattened, then taken off the queue. -/
theorem DNSFlattenBootstrap.tickIteration_run (bootstrapKey : DNSFlattenRegistryKey)
    (bootstrapTtl : UInt32) (outcome : ResolveOutcome) :
    ∃ now io, w.now ≤ now ∧ (do
        DNSFlatten.flattenTask bootstrapKey bootstrapTtl none outcome
        modify fun w : World Country =>
          { w with bootstrap := Function.update w.bootstrap bootstrapKey none } :
        TaskM Country Unit).run w =
      .ok () { w with
        registry := DNSFlatten.flatten w.registry bootstrapKey bootstrapTtl none
          (DNSFlatten.results bootstrapKey.2 outcome) now
        bootstrap := Function.update w.bootstrap bootstrapKey none
        now, io } := by
  obtain ⟨now, io, hle, hrun⟩ := DNSFlatten.flattenTask_run w bootstrapKey bootstrapTtl none outcome
  refine ⟨now, io, hle, ?_⟩
  simp [EStateM.run_bind, hrun]

end Runs

/-! ## Invariants of the registry and the queue

Each task is described by what it does to the registry and the queue; an invariant of
those two is kept by a task when it is kept by that description. The scans of the threads
read the state once, and their iterations act on what was read. -/

section Keeps

variable {I : DNSFlattenRegistry → DNSBootstrap → Prop}

theorem keeps_readClock_flatten :
    Keeps (fun w : World Country => I w.registry w.bootstrap) (readClock : TaskM Country ℕ) :=
  Ensures.of_run fun w hw => by
    obtain ⟨now, io, -, hrun⟩ := readClock_run w
    exact ⟨now, _, hrun, hw, trivial⟩

theorem ensures_flattenPass {Q : Except Unit RecordValues → Prop} (recordType : RecordType)
    (recordValue : RecordValue) (recordTtl : UInt32)
    (h : ∀ registry bootstrap now, I registry bootstrap →
      I (DNSFlatten.pass registry bootstrap recordType recordValue recordTtl now).2.1
          (DNSFlatten.pass registry bootstrap recordType recordValue recordTtl now).2.2 ∧
        Q (DNSFlatten.pass registry bootstrap recordType recordValue recordTtl now).1) :
    Ensures (fun w : World Country => I w.registry w.bootstrap) Q
      (flattenPass recordType recordValue recordTtl) :=
  Ensures.of_run fun w hw => by
    obtain ⟨now, io, -, hrun⟩ := flattenPass_run w recordType recordValue recordTtl
    exact ⟨_, _, hrun, h _ _ now hw⟩

theorem DNSFlatten.keeps_flattenTask (registryKey : DNSFlattenRegistryKey) (ttl : UInt32)
    (accessedAt : Option ℕ) (outcome : ResolveOutcome) (J : World Country → Prop)
    (h : ∀ w now io, J w → J { w with
      registry := DNSFlatten.flatten w.registry registryKey ttl accessedAt
        (DNSFlatten.results registryKey.2 outcome) now, now, io }) :
    Keeps J (DNSFlatten.flattenTask registryKey ttl accessedAt outcome) :=
  Ensures.of_run fun w hw => by
    obtain ⟨now, io, -, hrun⟩ := DNSFlatten.flattenTask_run w registryKey ttl accessedAt outcome
    exact ⟨(), _, hrun, h w now io hw, trivial⟩

/-- A key the tick's scan registers was queued with the TTL registered, and visited. -/
theorem DNSFlattenBootstrap.mem_register {keys : List DNSFlattenRegistryKey} {bootstrap : DNSBootstrap}
    {bootstrapKey : DNSFlattenRegistryKey} {bootstrapTtl : UInt32}
    (h : (bootstrapKey, bootstrapTtl) ∈ keys.filterMap fun bootstrapKey =>
      (bootstrap bootstrapKey).map (bootstrapKey, ·)) :
    bootstrapKey ∈ keys ∧ bootstrap bootstrapKey = some bootstrapTtl := by
  obtain ⟨key, hkey, hmap⟩ := List.mem_filterMap.mp h
  cases hb : bootstrap key with
  | none => simp [hb] at hmap
  | some ttl =>
    simp only [hb, Option.map_some, Option.some.injEq, Prod.mk.injEq] at hmap
    obtain ⟨rfl, rfl⟩ := hmap
    exact ⟨hkey, hb⟩

/-- The tick keeps what each of its iterations keeps, for a key queued when it scanned. -/
theorem DNSFlattenBootstrap.keeps_tick (keys : List DNSFlattenRegistryKey)
    (resolve : DNSFlattenRegistryKey → ResolveOutcome)
    (h : ∀ registry₀ bootstrap₀, I registry₀ bootstrap₀ → ∀ bootstrapKey bootstrapTtl,
      bootstrap₀ bootstrapKey = some bootstrapTtl → ∀ registry bootstrap now, I registry bootstrap →
        I (DNSFlatten.flatten registry bootstrapKey bootstrapTtl none
            (DNSFlatten.results bootstrapKey.2 (resolve bootstrapKey)) now)
          (Function.update bootstrap bootstrapKey none)) :
    Keeps (fun w : World Country => I w.registry w.bootstrap)
      (DNSFlattenBootstrap.tick keys resolve) := by
  unfold DNSFlattenBootstrap.tick
  refine Ensures.get_bind fun w₀ hw₀ => Keeps.forM_of_mem _ fun ⟨bootstrapKey, bootstrapTtl⟩ hmem => ?_
  have hqueued := (DNSFlattenBootstrap.mem_register hmem).2
  refine Ensures.of_run fun w hw => ?_
  obtain ⟨now, io, -, hrun⟩ :=
    DNSFlattenBootstrap.tickIteration_run w bootstrapKey bootstrapTtl (resolve bootstrapKey)
  exact ⟨(), _, hrun, h _ _ hw₀ _ _ hqueued _ _ now hw, trivial⟩

/-- An entry the refresh's scan registers is the entry of its key, with its TTL and access
time. -/
theorem DNSFlattenMaintain.mem_refreshRegister {keys : List DNSFlattenRegistryKey}
    {registry : DNSFlattenRegistry} {now : ℕ} {registryKey : DNSFlattenRegistryKey}
    {registryTtl : UInt32} {registryAccessedAt : ℕ}
    (h : (registryKey, registryTtl, registryAccessedAt) ∈ keys.filterMap fun registryKey =>
      (DNSFlattenMaintain.refreshRegister registry now registryKey).bind fun registryAccessedAt =>
        (registry registryKey).map fun registryEntry =>
          (registryKey, registryEntry.value.ttl, registryAccessedAt)) :
    ∃ entry, registry registryKey = some entry ∧ registryTtl = entry.value.ttl ∧
      registryAccessedAt = entry.accessedAt := by
  obtain ⟨key, -, hmap⟩ := List.mem_filterMap.mp h
  cases he : registry key with
  | none => simp [DNSFlattenMaintain.refreshRegister, Map.refreshRegister, he] at hmap
  | some entry =>
    by_cases hr : refreshInterval entry.value ≤ elapsedSecs now entry.refreshedAt
    · simp only [DNSFlattenMaintain.refreshRegister, Map.refreshRegister, he, Option.bind_some,
        if_pos hr, Option.map_some, Option.some.injEq, Prod.mk.injEq] at hmap
      obtain ⟨rfl, rfl, rfl⟩ := hmap
      exact ⟨entry, he, rfl, rfl⟩
    · simp [DNSFlattenMaintain.refreshRegister, Map.refreshRegister, he, hr] at hmap

/-- The refresh keeps what each of its iterations keeps, for an entry registered when it
scanned; it leaves the queue alone. -/
theorem DNSFlattenMaintain.keeps_refresh (keys : List DNSFlattenRegistryKey)
    (resolve : DNSFlattenRegistryKey → ResolveOutcome)
    (h : ∀ registry₀ bootstrap, I registry₀ bootstrap → ∀ registryKey entry,
      registry₀ registryKey = some entry → ∀ registry now, I registry bootstrap →
        I (DNSFlatten.flatten registry registryKey entry.value.ttl (some entry.accessedAt)
            (DNSFlatten.results registryKey.2 (resolve registryKey)) now) bootstrap) :
    Keeps (fun w : World Country => I w.registry w.bootstrap)
      (DNSFlattenMaintain.refresh keys resolve) := by
  unfold DNSFlattenMaintain.refresh
  refine keeps_readClock_flatten.bind fun now _ => ?_
  refine Ensures.get_bind_strengthen
    (fun w₀ w => I w.registry w.bootstrap ∧ w.bootstrap = w₀.bootstrap)
    (fun _ hw => ⟨hw, rfl⟩) (fun _ _ hw => hw.1) fun w₀ hw₀ =>
      Keeps.forM_of_mem _ fun ⟨registryKey, registryTtl, registryAccessedAt⟩ hmem => ?_
  obtain ⟨entry, hentry, rfl, rfl⟩ := DNSFlattenMaintain.mem_refreshRegister hmem
  refine DNSFlatten.keeps_flattenTask _ _ _ _ _ fun w now io ⟨hw, hb⟩ => ⟨?_, hb⟩
  rw [hb] at hw ⊢
  exact h _ _ hw₀ _ _ hentry _ now hw

theorem DNSFlattenMaintain.keeps_perform (keys : List DNSFlattenRegistryKey)
    (resolve : DNSFlattenRegistryKey → ResolveOutcome)
    (hexpire : ∀ registry bootstrap now, I registry bootstrap →
      I (DNSFlattenMaintain.expire registry now) bootstrap)
    (h : ∀ registry₀ bootstrap, I registry₀ bootstrap → ∀ registryKey entry,
      registry₀ registryKey = some entry → ∀ registry now, I registry bootstrap →
        I (DNSFlatten.flatten registry registryKey entry.value.ttl (some entry.accessedAt)
            (DNSFlatten.results registryKey.2 (resolve registryKey)) now) bootstrap) :
    Keeps (fun w : World Country => I w.registry w.bootstrap)
      (DNSFlattenMaintain.perform keys resolve) := by
  unfold DNSFlattenMaintain.perform
  refine keeps_readClock_flatten.bind fun now _ => ?_
  have hmodify : Keeps (fun w : World Country => I w.registry w.bootstrap)
      (modify fun w : World Country => { w with registry := DNSFlattenMaintain.expire w.registry now } :
        TaskM Country Unit) :=
    Keeps.modify fun w hw => hexpire w.registry w.bootstrap now hw
  exact hmodify.bind fun _ _ => DNSFlattenMaintain.keeps_refresh keys resolve h

end Keeps

/-! ## A pass, a flattening and an expiry, key by key -/

section Keys

variable {registry : DNSFlattenRegistry} {bootstrap : DNSBootstrap} {recordType : RecordType}
  {recordValue : RecordValue} {recordTtl : UInt32} {registryKey : DNSFlattenRegistryKey}
  {now : ℕ}

theorem DNSFlatten.pass_registry_of_ne (h : registryKey ≠ (recordValue, recordType)) :
    (DNSFlatten.pass registry bootstrap recordType recordValue recordTtl now).2.1 registryKey =
      registry registryKey := by
  cases hentry : registry (recordValue, recordType) with
  | none => simp only [DNSFlatten.pass_of_none hentry]
  | some entry => simp only [DNSFlatten.pass_of_some hentry, Map.insert_of_ne _ h]

/-- A pass bumps the access time of its key's entry. -/
theorem DNSFlatten.pass_registry_self :
    (DNSFlatten.pass registry bootstrap recordType recordValue recordTtl now).2.1
        (recordValue, recordType) =
      (registry (recordValue, recordType)).map fun entry => { entry with accessedAt := now } := by
  cases hentry : registry (recordValue, recordType) with
  | none => simp only [DNSFlatten.pass_of_none hentry, Option.map_none, hentry]
  | some entry => simp only [DNSFlatten.pass_of_some hentry, Map.insert_self, Option.map_some]

theorem DNSFlatten.pass_bootstrap_of_ne (h : registryKey ≠ (recordValue, recordType)) :
    (DNSFlatten.pass registry bootstrap recordType recordValue recordTtl now).2.2 registryKey =
      bootstrap registryKey := by
  cases hentry : registry (recordValue, recordType) with
  | none => simp only [DNSFlatten.pass_of_none hentry, Function.update_of_ne h]
  | some entry => simp only [DNSFlatten.pass_of_some hentry]

/-- A pass queues its key only when the key has no entry. -/
theorem DNSFlatten.pass_bootstrap_self :
    (DNSFlatten.pass registry bootstrap recordType recordValue recordTtl now).2.2
        (recordValue, recordType) =
      if (registry (recordValue, recordType)).isSome then bootstrap (recordValue, recordType)
      else some recordTtl := by
  cases hentry : registry (recordValue, recordType) with
  | none => simp [DNSFlatten.pass_of_none hentry]
  | some entry => simp [DNSFlatten.pass_of_some hentry]

/-- A pass that succeeds returns the values of its key's entry. -/
theorem DNSFlatten.pass_fst_eq_ok {values : RecordValues}
    (h : (DNSFlatten.pass registry bootstrap recordType recordValue recordTtl now).1 = .ok values) :
    ∃ entry, registry (recordValue, recordType) = some entry ∧ entry.value.values = values := by
  cases hentry : registry (recordValue, recordType) with
  | none =>
    rw [DNSFlatten.pass_of_none hentry] at h
    cases h
  | some entry =>
    rw [DNSFlatten.pass_of_some hentry] at h
    cases h
    exact ⟨entry, rfl, rfl⟩

/-- After `flatten`, the key has an entry. -/
theorem DNSFlatten.flatten_self_isSome (ttl : UInt32) (accessedAt : Option ℕ)
    (results : Option RecordValues) :
    (DNSFlatten.flatten registry registryKey ttl accessedAt results now registryKey).isSome := by
  unfold DNSFlatten.flatten
  split_ifs with hkeep
  · exact hkeep.2
  · rw [Map.insert_self, Option.isSome_some]

/-- A flattening with the access time and TTL an entry has keeps them. -/
theorem DNSFlatten.flatten_self_aged {accessedAt : ℕ} {ttl : UInt32}
    (h : ∀ entry, registry registryKey = some entry → entry.accessedAt = accessedAt ∧ entry.value.ttl = ttl)
    (results : Option RecordValues) :
    ∀ entry, DNSFlatten.flatten registry registryKey ttl (some accessedAt) results now registryKey =
      some entry → entry.accessedAt = accessedAt ∧ entry.value.ttl = ttl := by
  intro entry hentry
  unfold DNSFlatten.flatten at hentry
  split_ifs at hentry
  · exact h entry hentry
  · rw [Map.insert_self, Option.some.injEq] at hentry
    subst hentry
    exact ⟨rfl, rfl⟩

theorem DNSFlattenMaintain.expire_apply :
    DNSFlattenMaintain.expire registry now registryKey =
      if registry.expireRegister expireLimit now registryKey then none else registry registryKey :=
  rfl

/-- An expiry only drops entries. -/
theorem DNSFlattenMaintain.expire_eq_some {entry : Entry FlattenValues}
    (h : DNSFlattenMaintain.expire registry now registryKey = some entry) :
    registry registryKey = some entry := by
  rw [DNSFlattenMaintain.expire_apply] at h
  split_ifs at h
  exact h

end Keys

/-! ## What the resolver answered -/

section Sound

variable (answered : DNSFlattenRegistryKey → RecordValues → Prop)

/-- Every entry of the registry holds no value, or an answer of the resolver for its key. -/
def RegistrySound (registry : DNSFlattenRegistry) : Prop :=
  ∀ registryKey entry, registry registryKey = some entry →
    entry.value.values = [] ∨ answered registryKey entry.value.values

/-- What `flatten` computes from an answer is no value, or the answer's records. -/
theorem DNSFlatten.results_eq_some {recordType : RecordType} {outcome : ResolveOutcome}
    {values : RecordValues} (h : DNSFlatten.results recordType outcome = some values) :
    values = [] ∨ outcome = .records values := by
  cases outcome <;> cases recordType <;> simp_all [DNSFlatten.results]

variable {answered}

theorem registrySound_pass {registry : DNSFlattenRegistry} (hs : RegistrySound answered registry)
    (bootstrap : DNSBootstrap) (recordType : RecordType) (recordValue : RecordValue)
    (recordTtl : UInt32) (now : ℕ) :
    RegistrySound answered
      (DNSFlatten.pass registry bootstrap recordType recordValue recordTtl now).2.1 := by
  intro key entry hentry
  by_cases hkey : key = (recordValue, recordType)
  · subst hkey
    rw [DNSFlatten.pass_registry_self] at hentry
    obtain ⟨entry', hentry', rfl⟩ := Option.map_eq_some_iff.mp hentry
    exact hs _ entry' hentry'
  · rw [DNSFlatten.pass_registry_of_ne hkey] at hentry
    exact hs key entry hentry

theorem registrySound_flatten {registry : DNSFlattenRegistry} {registryKey : DNSFlattenRegistryKey}
    {outcome : ResolveOutcome} (hres : ∀ values, outcome = .records values → answered registryKey values)
    (hs : RegistrySound answered registry) (ttl : UInt32) (accessedAt : Option ℕ) (now : ℕ) :
    RegistrySound answered (DNSFlatten.flatten registry registryKey ttl accessedAt
      (DNSFlatten.results registryKey.2 outcome) now) := by
  intro key entry hentry
  by_cases hkey : key = registryKey
  · subst hkey
    unfold DNSFlatten.flatten at hentry
    split_ifs at hentry
    · exact hs key entry hentry
    · rw [Map.insert_self, Option.some.injEq] at hentry
      subst hentry
      -- the entry written holds what `flatten` computed from the answer
      cases hr : DNSFlatten.results key.2 outcome with
      | none => exact Or.inl (by simp [Entry.new])
      | some values =>
        rcases DNSFlatten.results_eq_some hr with rfl | rfl
        · exact Or.inl (by simp [Entry.new])
        · exact Or.inr (by simpa [Entry.new, hr] using hres values rfl)
  · rw [DNSFlatten.flatten_of_ne hkey] at hentry
    exact hs key entry hentry

theorem registrySound_expire {registry : DNSFlattenRegistry} (hs : RegistrySound answered registry)
    (now : ℕ) : RegistrySound answered (DNSFlattenMaintain.expire registry now) :=
  fun key entry hentry => hs key entry (DNSFlattenMaintain.expire_eq_some hentry)

/-- A pass returns no value, or an answer of the resolver for its key. -/
theorem ensures_flattenPass_sound (recordType : RecordType) (recordValue : RecordValue)
    (recordTtl : UInt32) :
    Ensures (fun w : World Country => RegistrySound answered w.registry)
      (fun result => ∀ values, result = .ok values →
        values = [] ∨ answered (recordValue, recordType) values)
      (flattenPass recordType recordValue recordTtl) :=
  ensures_flattenPass (I := fun registry _ => RegistrySound answered registry) _ _ _
    fun registry bootstrap now hs => by
      refine ⟨registrySound_pass hs bootstrap recordType recordValue recordTtl now,
        fun values hvalues => ?_⟩
      obtain ⟨entry, hentry, rfl⟩ := DNSFlatten.pass_fst_eq_ok hvalues
      exact hs _ entry hentry

theorem keeps_run_sound (step : FlattenStep) (hstep : step.Answers answered) :
    Keeps (fun w : World Country => RegistrySound answered w.registry) step.run := by
  cases step with
  | pass recordType recordValue recordTtl =>
    exact (ensures_flattenPass_sound recordType recordValue recordTtl).bind fun _ _ =>
      Ensures.pure trivial
  | tick keys resolve =>
    exact DNSFlattenBootstrap.keeps_tick (I := fun registry _ => RegistrySound answered registry)
      keys resolve fun _ _ _ bootstrapKey _ _ _ _ now hs =>
        registrySound_flatten (hstep bootstrapKey) hs _ _ now
  | maintain keys resolve =>
    exact DNSFlattenMaintain.keeps_perform (I := fun registry _ => RegistrySound answered registry)
      keys resolve (fun _ _ now hs => registrySound_expire hs now)
        fun _ _ _ registryKey _ _ _ now hs => registrySound_flatten (hstep registryKey) hs _ _ now

/-- The accumulator of the flattening loop gains only what the passes return. -/
theorem mem_foldl_dedup {α : Type} [BEq α] {value : α} :
    ∀ {flatPass acc : List α}, value ∈ flatPass.foldl
        (fun acc flatValue => if acc.contains flatValue then acc else acc ++ [flatValue]) acc →
      value ∈ acc ∨ value ∈ flatPass
  | [], _, h => Or.inl h
  | flatValue :: rest, acc, h => by
    rw [List.foldl_cons] at h
    rcases mem_foldl_dedup h with hacc | hrest
    · split at hacc
      · exact Or.inl hacc
      · rcases List.mem_append.mp hacc with hold | hnew
        · exact Or.inl hold
        · exact Or.inr (List.mem_singleton.mp hnew ▸ List.mem_cons_self)
    · exact Or.inr (List.mem_cons_of_mem flatValue hrest)

/-- When every pass returns no value or an answer of the resolver, the flattening loop adds
only values of the resolver's answers for the values it passes. -/
theorem ensures_flattenValues_sound {I : World Country → Prop}
    (hpass : ∀ recordType recordValue recordTtl, Ensures I
      (fun result => ∀ values, result = .ok values →
        values = [] ∨ answered (recordValue, recordType) values)
      (flattenPass recordType recordValue recordTtl))
    (recordType : RecordType) (recordTtl : UInt32) (preparedValues : List RecordValue) :
    ∀ (flatValuesList : List RecordValue) (hasFlattened : Bool),
      Ensures I
        (fun result => ∀ value ∈ result.1, value ∈ flatValuesList ∨
          ∃ target ∈ preparedValues, ∃ values, answered (target, recordType) values ∧ value ∈ values)
        (flattenValues recordType recordTtl preparedValues flatValuesList hasFlattened) := by
  induction preparedValues with
  | nil => exact fun _ _ => Ensures.pure fun _ hvalue => Or.inl hvalue
  | cons preparedValue rest ih =>
    intro flatValuesList hasFlattened
    unfold flattenValues
    refine (hpass recordType preparedValue recordTtl).bind fun result hresult => ?_
    -- what the rest of the loop finds was passed by the whole loop
    have hrest : ∀ {value : RecordValue}, (∃ target ∈ rest, ∃ values,
        answered (target, recordType) values ∧ value ∈ values) → ∃ target ∈ preparedValue :: rest,
          ∃ values, answered (target, recordType) values ∧ value ∈ values := by
      rintro value ⟨target, htarget, hfound⟩
      exact ⟨target, List.mem_cons_of_mem _ htarget, hfound⟩
    cases result with
    | ok flatPass =>
      refine (ih _ true).mono fun res hres value hvalue => ?_
      rcases hres value hvalue with hacc | hfound
      · rcases mem_foldl_dedup hacc with hold | hnew
        · exact Or.inl hold
        · rcases hresult flatPass rfl with hnil | hanswered
          · simp [hnil] at hnew
          · exact Or.inr ⟨preparedValue, List.mem_cons_self, flatPass, hanswered, hnew⟩
      · exact Or.inr (hrest hfound)
    | error _ =>
      refine (ih flatValuesList hasFlattened).mono fun res hres value hvalue => ?_
      exact (hres value hvalue).imp id hrest

theorem registrySound_run (steps : List FlattenStep)
    (hsteps : ∀ step ∈ steps, step.Answers answered) :
    Keeps (fun w : World Country => RegistrySound answered w.registry) (steps.forM FlattenStep.run) :=
  Keeps.forM_of_mem steps fun step hstep => keeps_run_sound step (hsteps step hstep)

end Sound

/-- A CNAME target of the examples, flattened to its address. -/
def targetKey : DNSFlattenRegistryKey := (⟨"target.example.net."⟩, .A)

/-- A resolver that answers every name with one address. -/
def answerAll : DNSFlattenRegistryKey → ResolveOutcome := fun _ => .records [⟨"192.0.2.1"⟩]

/-- A pass of the target misses and queues it; the next tick resolves it. -/
def bootstrapSteps : List FlattenStep :=
  [.pass .A ⟨"target.example.net."⟩ 300, .tick [targetKey] answerAll]

section Queue

variable {registry : DNSFlattenRegistry} {bootstrap : DNSBootstrap}

/-- No key is both queued and registered. -/
def QueuedUnregistered (registry : DNSFlattenRegistry) (bootstrap : DNSBootstrap) : Prop :=
  ∀ registryKey, (bootstrap registryKey).isSome → registry registryKey = none

theorem queuedUnregistered_pass (h : QueuedUnregistered registry bootstrap)
    (recordType : RecordType) (recordValue : RecordValue) (recordTtl : UInt32) (now : ℕ) :
    QueuedUnregistered (DNSFlatten.pass registry bootstrap recordType recordValue recordTtl now).2.1
      (DNSFlatten.pass registry bootstrap recordType recordValue recordTtl now).2.2 := by
  intro key hqueued
  by_cases hkey : key = (recordValue, recordType)
  · subst hkey
    rw [DNSFlatten.pass_bootstrap_self] at hqueued
    -- the key is queued after the pass only if it had no entry
    have hnone : registry (recordValue, recordType) = none := by
      split at hqueued
      · exact h _ hqueued
      · exact Option.not_isSome_iff_eq_none.mp ‹_›
    rw [DNSFlatten.pass_registry_self, hnone, Option.map_none]
  · rw [DNSFlatten.pass_bootstrap_of_ne hkey] at hqueued
    rw [DNSFlatten.pass_registry_of_ne hkey]
    exact h key hqueued

theorem queuedUnregistered_dequeue (h : QueuedUnregistered registry bootstrap)
    (registryKey : DNSFlattenRegistryKey) :
    QueuedUnregistered registry (Function.update bootstrap registryKey none) := by
  intro key hqueued
  by_cases hkey : key = registryKey
  · subst hkey
    simp at hqueued
  · rw [Function.update_of_ne hkey] at hqueued
    exact h key hqueued

/-- Flattening a key that is not queued keeps the queue and the registry apart. -/
theorem queuedUnregistered_flatten (h : QueuedUnregistered registry bootstrap)
    {registryKey : DNSFlattenRegistryKey} (hk : bootstrap registryKey = none) (ttl : UInt32)
    (accessedAt : Option ℕ) (results : Option RecordValues) (now : ℕ) :
    QueuedUnregistered (DNSFlatten.flatten registry registryKey ttl accessedAt results now)
      bootstrap := by
  intro key hqueued
  by_cases hkey : key = registryKey
  · subst hkey
    rw [hk] at hqueued
    cases hqueued
  · rw [DNSFlatten.flatten_of_ne hkey]
    exact h key hqueued

theorem queuedUnregistered_expire (h : QueuedUnregistered registry bootstrap) (now : ℕ) :
    QueuedUnregistered (DNSFlattenMaintain.expire registry now) bootstrap := by
  intro key hqueued
  rw [DNSFlattenMaintain.expire_apply, h key hqueued, ite_self]

theorem keeps_run_queuedUnregistered (step : FlattenStep) :
    Keeps (fun w : World Country => QueuedUnregistered w.registry w.bootstrap) step.run := by
  cases step with
  | pass recordType recordValue recordTtl =>
    exact (ensures_flattenPass (I := QueuedUnregistered) (Q := fun _ => True) recordType
      recordValue recordTtl fun _ _ now h => ⟨queuedUnregistered_pass h _ _ _ now, trivial⟩).bind
        fun _ _ => Ensures.pure trivial
  | tick keys resolve =>
    -- the key is taken off the queue before its entry is written
    exact DNSFlattenBootstrap.keeps_tick keys resolve fun _ _ _ bootstrapKey _ _ _ _ now h =>
      queuedUnregistered_flatten (queuedUnregistered_dequeue h bootstrapKey)
        (Function.update_self _ _ _) _ _ _ now
  | maintain keys resolve =>
    -- a refreshed entry was registered when the refresh scanned, so its key was not queued
    exact DNSFlattenMaintain.keeps_perform keys resolve
      (fun _ _ now h => queuedUnregistered_expire h now)
      fun registry₀ bootstrap h₀ registryKey entry hentry _ now h =>
        queuedUnregistered_flatten h (Option.not_isSome_iff_eq_none.mp fun hqueued =>
          by rw [h₀ registryKey hqueued] at hentry; cases hentry) _ _ _ now

theorem queuedUnregistered_run (steps : List FlattenStep) :
    Keeps (fun w : World Country => QueuedUnregistered w.registry w.bootstrap)
      (steps.forM FlattenStep.run) :=
  Keeps.forM keeps_run_queuedUnregistered steps

end Queue

/-! ## Entries no pass touches -/

section Aged

variable {registryKey : DNSFlattenRegistryKey} {accessedAt : ℕ} {ttl : UInt32}
  {registry : DNSFlattenRegistry} {bootstrap : DNSBootstrap}

/-- The key is not queued, and its entry, if it has one, was last accessed at `accessedAt` and
has TTL `ttl`. -/
def EntryAged (registryKey : DNSFlattenRegistryKey) (accessedAt : ℕ) (ttl : UInt32)
    (registry : DNSFlattenRegistry) (bootstrap : DNSBootstrap) : Prop :=
  bootstrap registryKey = none ∧
    ∀ entry, registry registryKey = some entry → entry.accessedAt = accessedAt ∧ entry.value.ttl = ttl

theorem entryAged_pass (h : EntryAged registryKey accessedAt ttl registry bootstrap)
    {recordType : RecordType} {recordValue : RecordValue} (hkey : registryKey ≠ (recordValue, recordType))
    (recordTtl : UInt32) (now : ℕ) :
    EntryAged registryKey accessedAt ttl
      (DNSFlatten.pass registry bootstrap recordType recordValue recordTtl now).2.1
      (DNSFlatten.pass registry bootstrap recordType recordValue recordTtl now).2.2 := by
  rw [EntryAged, DNSFlatten.pass_registry_of_ne hkey, DNSFlatten.pass_bootstrap_of_ne hkey]
  exact h

theorem entryAged_flatten_of_ne (h : EntryAged registryKey accessedAt ttl registry bootstrap)
    {key : DNSFlattenRegistryKey} (hkey : registryKey ≠ key) (ttl' : UInt32)
    (accessedAt' : Option ℕ) (results : Option RecordValues) (now : ℕ) :
    EntryAged registryKey accessedAt ttl (DNSFlatten.flatten registry key ttl' accessedAt' results now)
      bootstrap := by
  rw [EntryAged, DNSFlatten.flatten_of_ne hkey]
  exact h

theorem entryAged_dequeue (h : EntryAged registryKey accessedAt ttl registry bootstrap)
    (key : DNSFlattenRegistryKey) :
    EntryAged registryKey accessedAt ttl registry (Function.update bootstrap key none) := by
  refine ⟨?_, h.2⟩
  by_cases hkey : registryKey = key
  · rw [hkey, Function.update_self]
  · rw [Function.update_of_ne hkey]
    exact h.1

/-- The refresh of the entry writes it back with its access time and TTL. -/
theorem entryAged_refresh (h : EntryAged registryKey accessedAt ttl registry bootstrap)
    (results : Option RecordValues) (now : ℕ) :
    EntryAged registryKey accessedAt ttl
      (DNSFlatten.flatten registry registryKey ttl (some accessedAt) results now) bootstrap :=
  ⟨h.1, DNSFlatten.flatten_self_aged h.2 results⟩

theorem entryAged_expire (h : EntryAged registryKey accessedAt ttl registry bootstrap) (now : ℕ) :
    EntryAged registryKey accessedAt ttl (DNSFlattenMaintain.expire registry now) bootstrap :=
  ⟨h.1, fun entry hentry => h.2 entry (DNSFlattenMaintain.expire_eq_some hentry)⟩

theorem keeps_run_entryAged (step : FlattenStep) (hstep : step.passes ≠ some registryKey) :
    Keeps (fun w : World Country => EntryAged registryKey accessedAt ttl w.registry w.bootstrap)
      step.run := by
  cases step with
  | pass recordType recordValue recordTtl =>
    have hkey : registryKey ≠ (recordValue, recordType) := fun heq => hstep (by rw [heq]; rfl)
    exact (ensures_flattenPass (I := EntryAged registryKey accessedAt ttl) (Q := fun _ => True)
      recordType recordValue recordTtl fun _ _ now h => ⟨entryAged_pass h hkey _ now, trivial⟩).bind
        fun _ _ => Ensures.pure trivial
  | tick keys resolve =>
    -- the key was not queued when the tick scanned, so the tick flattens other keys only
    exact DNSFlattenBootstrap.keeps_tick keys resolve
      fun _ _ h₀ bootstrapKey _ hqueued _ _ now h =>
        have hkey : registryKey ≠ bootstrapKey := fun heq => by
          have hnone := h₀.1
          rw [heq, hqueued] at hnone
          cases hnone
        entryAged_dequeue (entryAged_flatten_of_ne h hkey _ _ _ now) bootstrapKey
  | maintain keys resolve =>
    -- a refresh of the key writes it back with the access time and TTL it scanned
    exact DNSFlattenMaintain.keeps_perform keys resolve (fun _ _ now h => entryAged_expire h now)
      fun _ _ h₀ key entry hentry _ now h => by
        by_cases hkey : registryKey = key
        · subst hkey
          obtain ⟨haccessed, httl⟩ := h₀.2 entry hentry
          rw [haccessed, httl]
          exact entryAged_refresh h _ now
        · exact entryAged_flatten_of_ne h hkey _ _ _ now

theorem entryAged_run (steps : List FlattenStep)
    (hsteps : ∀ step ∈ steps, step.passes ≠ some registryKey) :
    Keeps (fun w : World Country => EntryAged registryKey accessedAt ttl w.registry w.bootstrap)
      (steps.forM FlattenStep.run) :=
  Keeps.forM_of_mem steps fun step hstep => keeps_run_entryAged step (hsteps step hstep)

/-- A round of the maintain thread, at least the expiry limit past the access time of an entry
that has kept it, drops the entry: its expiry does, and its refresh writes only keys that have
an entry. -/
theorem registry_perform_of_aged (keys : List DNSFlattenRegistryKey)
    (resolve : DNSFlattenRegistryKey → ResolveOutcome) {w : World Country} {entry₀ : Entry FlattenValues}
    (h : EntryAged registryKey entry₀.accessedAt entry₀.value.ttl w.registry w.bootstrap)
    (hlimit : DNSFlattenMaintain.expireLimit entry₀.value ≤ elapsedSecs w.now entry₀.accessedAt) :
    (finalState ((DNSFlattenMaintain.perform keys resolve).run w)).registry registryKey = none := by
  obtain ⟨now, io, hle, hclock⟩ := readClock_run w
  have hexpired : DNSFlattenMaintain.expire w.registry now registryKey = none := by
    rw [DNSFlattenMaintain.expire_apply]
    cases hentry : w.registry registryKey with
    | none => simp
    | some entry =>
      obtain ⟨haccessed, httl⟩ := h.2 entry hentry
      have hsame : DNSFlattenMaintain.expireLimit entry.value =
          DNSFlattenMaintain.expireLimit entry₀.value := by
        simp [DNSFlattenMaintain.expireLimit, httl]
      have hidle : DNSFlattenMaintain.expireLimit entry.value ≤ elapsedSecs now entry.accessedAt := by
        rw [hsame, haccessed]
        exact hlimit.trans (elapsedSecs_le_elapsedSecs hle _)
      simp [Map.expireRegister, hentry, hidle]
  have hrefresh : Keeps (fun w : World Country => w.registry registryKey = none)
      (DNSFlattenMaintain.refresh keys resolve) :=
    DNSFlattenMaintain.keeps_refresh (I := fun registry _ => registry registryKey = none)
      keys resolve fun _ _ h₀ key _ hentry _ now' h => by
      have hkey : registryKey ≠ key := fun heq => by
        rw [heq] at h₀
        rw [h₀] at hentry
        cases hentry
      rw [DNSFlatten.flatten_of_ne hkey]
      exact h
  simp only [DNSFlattenMaintain.perform, EStateM.run_bind, hclock]
  exact (hrefresh _ hexpired).1

end Aged

theorem flatten_unpassed_entry_expires (keyspaces : List Keyspace) (now : ℕ) (io : Io)
    (before after : List FlattenStep) (registryKey : DNSFlattenRegistryKey) (entry : Entry FlattenValues)
    (keys : List DNSFlattenRegistryKey) (resolve : DNSFlattenRegistryKey → ResolveOutcome)
    (hentry : (finalState ((before.forM FlattenStep.run).run
      (World.init keyspaces now io : World Country))).registry registryKey = some entry)
    (hafter : ∀ step ∈ after, step.passes ≠ some registryKey) :
    let reached := finalState ((after.forM FlattenStep.run).run
      (finalState ((before.forM FlattenStep.run).run (World.init keyspaces now io : World Country))))
    (∀ entry', reached.registry registryKey = some entry' →
        entry'.accessedAt = entry.accessedAt ∧ entry'.value.ttl = entry.value.ttl) ∧
      (DNSFlattenMaintain.expireLimit entry.value ≤ elapsedSecs reached.now entry.accessedAt →
        (finalState ((DNSFlattenMaintain.perform keys resolve).run reached)).registry registryKey =
          none) := by
  intro reached
  have hqueue := (queuedUnregistered_run before (World.init keyspaces now io : World Country)
    fun _ h => by simp [World.init] at h).1
  -- registered, the key is not queued, so the entry's access time is the one to follow
  have hregistered : EntryAged registryKey entry.accessedAt entry.value.ttl
      (finalState ((before.forM FlattenStep.run).run
        (World.init keyspaces now io : World Country))).registry
      (finalState ((before.forM FlattenStep.run).run
        (World.init keyspaces now io : World Country))).bootstrap := by
    refine ⟨Option.not_isSome_iff_eq_none.mp fun hqueued => ?_, fun entry' hentry' => ?_⟩
    · rw [hqueue _ hqueued] at hentry
      cases hentry
    · rw [hentry, Option.some.injEq] at hentry'
      subst hentry'
      exact ⟨rfl, rfl⟩
  have haged := (entryAged_run after hafter _ hregistered).1
  exact ⟨haged.2, registry_perform_of_aged keys resolve haged⟩

theorem flatten_unpassed_entry_expires_target :
    (finalState ((bootstrapSteps.forM FlattenStep.run).run (World.init [] 0 {} : World Unit))).registry
        targetKey = some (Entry.new ⟨[⟨"192.0.2.1"⟩], 300⟩ 0 none) ∧
      (∀ step ∈ [FlattenStep.maintain [targetKey] answerAll], step.passes ≠ some targetKey) ∧
      let reached := finalState (([FlattenStep.maintain [targetKey] answerAll].forM FlattenStep.run).run
        (finalState ((bootstrapSteps.forM FlattenStep.run).run (World.init [] 0 {} : World Unit))))
      (∀ entry', reached.registry targetKey = some entry' →
          entry'.accessedAt = 0 ∧ entry'.value.ttl = 300) ∧
        (DNSFlattenMaintain.expireLimit ⟨[⟨"192.0.2.1"⟩], 300⟩ ≤ elapsedSecs reached.now 0 →
          (finalState ((DNSFlattenMaintain.perform [targetKey] answerAll).run reached)).registry
            targetKey = none) := by
  have hentry : (finalState ((bootstrapSteps.forM FlattenStep.run).run
      (World.init [] 0 {} : World Unit))).registry targetKey =
        some (Entry.new ⟨[⟨"192.0.2.1"⟩], 300⟩ 0 none) := by
    decide +kernel
  have hafter : ∀ step ∈ [FlattenStep.maintain [targetKey] answerAll],
      step.passes ≠ some targetKey := by
    intro step hstep
    rw [List.mem_singleton.mp hstep]
    exact fun h => by cases h
  exact ⟨hentry, hafter, flatten_unpassed_entry_expires [] 0 {} bootstrapSteps _ targetKey _
    [targetKey] answerAll hentry hafter⟩

/-! ## Keys served after a tick -/

section Registered

variable {registryKey : DNSFlattenRegistryKey} {registry : DNSFlattenRegistry}

theorem registered_pass (h : (registry registryKey).isSome) (bootstrap : DNSBootstrap)
    (recordType : RecordType) (recordValue : RecordValue) (recordTtl : UInt32) (now : ℕ) :
    ((DNSFlatten.pass registry bootstrap recordType recordValue recordTtl now).2.1
      registryKey).isSome := by
  by_cases hkey : registryKey = (recordValue, recordType)
  · subst hkey
    rw [DNSFlatten.pass_registry_self, Option.isSome_map]
    exact h
  · rw [DNSFlatten.pass_registry_of_ne hkey]
    exact h

theorem registered_flatten (h : (registry registryKey).isSome) (key : DNSFlattenRegistryKey)
    (ttl : UInt32) (accessedAt : Option ℕ) (results : Option RecordValues) (now : ℕ) :
    (DNSFlatten.flatten registry key ttl accessedAt results now registryKey).isSome := by
  by_cases hkey : registryKey = key
  · subst hkey
    exact DNSFlatten.flatten_self_isSome _ _ _
  · rw [DNSFlatten.flatten_of_ne hkey]
    exact h

theorem keeps_tick_registered (keys : List DNSFlattenRegistryKey)
    (resolve : DNSFlattenRegistryKey → ResolveOutcome) :
    Keeps (fun w : World Country => (w.registry registryKey).isSome)
      (DNSFlattenBootstrap.tick keys resolve) :=
  DNSFlattenBootstrap.keeps_tick (I := fun registry _ => (registry registryKey).isSome) keys resolve
    fun _ _ _ key _ _ _ _ now h => registered_flatten h key _ _ _ now

/-- Passes and ticks never drop an entry. -/
theorem keeps_run_registered (step : FlattenStep) (hstep : step.expires = false) :
    Keeps (fun w : World Country => (w.registry registryKey).isSome) step.run := by
  cases step with
  | pass recordType recordValue recordTtl =>
    exact (ensures_flattenPass (I := fun registry _ => (registry registryKey).isSome)
      (Q := fun _ => True) recordType recordValue recordTtl
        fun _ bootstrap now h => ⟨registered_pass h bootstrap _ _ _ now, trivial⟩).bind
      fun _ _ => Ensures.pure trivial
  | tick keys resolve => exact keeps_tick_registered keys resolve
  | maintain keys resolve => cases hstep

/-- A tick that visits a queued key registers it. -/
theorem registered_tick (keys : List DNSFlattenRegistryKey)
    (resolve : DNSFlattenRegistryKey → ResolveOutcome) (hkey : registryKey ∈ keys) (w : World Country)
    (h : (w.registry registryKey).isSome ∨ (w.bootstrap registryKey).isSome) :
    ((finalState ((DNSFlattenBootstrap.tick keys resolve).run w)).registry registryKey).isSome := by
  rcases h with hregistered | hqueued
  · exact (keeps_tick_registered keys resolve w hregistered).1
  obtain ⟨ttl, httl⟩ := Option.isSome_iff_exists.mp hqueued
  have hmem : (registryKey, ttl) ∈ keys.filterMap fun bootstrapKey =>
      (w.bootstrap bootstrapKey).map (bootstrapKey, ·) :=
    List.mem_filterMap.mpr ⟨registryKey, hkey, by rw [httl, Option.map_some]⟩
  simp only [DNSFlattenBootstrap.tick, EStateM.run_bind, getThe_run]
  refine Keeps.forM_establishes (P := fun s : World Country => (s.registry registryKey).isSome)
    ?total ?keeps (c := (registryKey, ttl)) ?registers _ hmem w
  case total =>
    rintro ⟨bootstrapKey, bootstrapTtl⟩ s
    obtain ⟨now, io, -, hrun⟩ :=
      DNSFlattenBootstrap.tickIteration_run s bootstrapKey bootstrapTtl (resolve bootstrapKey)
    exact ⟨_, hrun⟩
  case keeps =>
    rintro ⟨bootstrapKey, bootstrapTtl⟩
    refine Ensures.of_run fun s hs => ?_
    obtain ⟨now, io, -, hrun⟩ :=
      DNSFlattenBootstrap.tickIteration_run s bootstrapKey bootstrapTtl (resolve bootstrapKey)
    exact ⟨(), _, hrun, registered_flatten hs bootstrapKey _ _ _ now, trivial⟩
  case registers =>
    intro s
    obtain ⟨now, io, -, hrun⟩ :=
      DNSFlattenBootstrap.tickIteration_run s registryKey ttl (resolve registryKey)
    rw [hrun]
    exact DNSFlatten.flatten_self_isSome _ _ _

end Registered

theorem flatten_pass_served_after_tick (w : World Country) (recordType : RecordType)
    (recordValue : RecordValue) (recordTtl : UInt32) (keys : List DNSFlattenRegistryKey)
    (resolve : DNSFlattenRegistryKey → ResolveOutcome) (hkey : (recordValue, recordType) ∈ keys)
    (after : List FlattenStep) (hafter : ∀ step ∈ after, step.expires = false) :
    let queued := finalState ((flattenPass recordType recordValue recordTtl).run w)
    let served := finalState ((after.forM FlattenStep.run).run
      (finalState ((DNSFlattenBootstrap.tick keys resolve).run queued)))
    ∃ values, outcome ((flattenPass recordType recordValue recordTtl).run served) = .ok (.ok values) := by
  intro queued served
  -- the first pass leaves the key registered, or queued
  have hqueued : (queued.registry (recordValue, recordType)).isSome ∨
      (queued.bootstrap (recordValue, recordType)).isSome := by
    obtain ⟨now, io, -, hrun⟩ := flattenPass_run w recordType recordValue recordTtl
    simp only [queued, hrun, finalState, DNSFlatten.pass_registry_self, DNSFlatten.pass_bootstrap_self,
      Option.isSome_map]
    by_cases hregistered : (w.registry (recordValue, recordType)).isSome
    · exact Or.inl hregistered
    · exact Or.inr (by rw [if_neg hregistered, Option.isSome_some])
  have hticked := registered_tick keys resolve hkey queued hqueued
  have hserved : (served.registry (recordValue, recordType)).isSome :=
    (Keeps.forM_of_mem after (fun step hstep => keeps_run_registered step (hafter step hstep)) _
      hticked).1
  obtain ⟨entry, hentry⟩ := Option.isSome_iff_exists.mp hserved
  obtain ⟨now, io, -, hrun⟩ := flattenPass_run served recordType recordValue recordTtl
  refine ⟨entry.value.values, ?_⟩
  rw [hrun, DNSFlatten.pass_of_some hentry]
  rfl

theorem flatten_pass_served_after_tick_target :
    targetKey ∈ [targetKey] ∧
      (∀ step ∈ [FlattenStep.pass .AAAA ⟨"other.example.net."⟩ 300], step.expires = false) ∧
      ∃ values, outcome ((flattenPass .A ⟨"target.example.net."⟩ 300).run
        (finalState (([FlattenStep.pass .AAAA ⟨"other.example.net."⟩ 300].forM FlattenStep.run).run
          (finalState ((DNSFlattenBootstrap.tick [targetKey] answerAll).run
            (finalState ((flattenPass .A ⟨"target.example.net."⟩ 300).run
              (World.init [] 0 {} : World Unit)))))))) = .ok (.ok values) := by
  have hafter : ∀ step ∈ [FlattenStep.pass .AAAA ⟨"other.example.net."⟩ 300],
      step.expires = false := by
    intro step hstep
    rw [List.mem_singleton.mp hstep]
    rfl
  exact ⟨List.mem_singleton_self _, hafter, flatten_pass_served_after_tick _ .A ⟨"target.example.net."⟩
    300 [targetKey] answerAll (List.mem_singleton_self _) _ hafter⟩

end Constellation.Dns
