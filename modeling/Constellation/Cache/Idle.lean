import Constellation.Data.Update

/-! # Caches with idle expiry

A cache whose entries remember when they were last refreshed and last accessed.
A hit bumps the access time; an expiry pass drops the entries that have been
idle for at least their limit; a refresh pass reloads old entries and writes
them back with the access time it read when it scanned them.

The passes scan under a read lock and act later, so the steps of other tasks
fall in between. The run semantics makes each part a step of its own, and keeps
as ghost state the time of the last hit of each key, against which an expiry is
judged.
-/

namespace Constellation.Cache

/-- A second, in the nanoseconds the clock counts. -/
def SECOND : ℕ := 1000000000

/-- `now.duration_since(since).as_secs()`. -/
def elapsedSecs (now since : ℕ) : ℕ := (now - since) / SECOND

theorem elapsedSecs_le_elapsedSecs {now now' : ℕ} (h : now ≤ now') (since : ℕ) :
    elapsedSecs now since ≤ elapsedSecs now' since :=
  Nat.div_le_div_right (Nat.sub_le_sub_right h since)

/-- An entry: the value, and when it was last refreshed and last accessed. -/
structure Entry (V : Type) where
  value : V
  refreshedAt : ℕ
  accessedAt : ℕ
  deriving DecidableEq

/-- A new entry: refreshed now, accessed at the given time or now. -/
def Entry.new {V : Type} (value : V) (now : ℕ) (accessedAt : Option ℕ) : Entry V :=
  ⟨value, now, accessedAt.getD now⟩

/-- A cache: a map from keys to entries. -/
abbrev Map (K V : Type) := K → Option (Entry V)

namespace Map

variable {K V : Type} [DecidableEq K]

/-- A lookup that bumps the access time of the entry it finds. -/
def hit (m : Map K V) (k : K) (now : ℕ) : Option V × Map K V :=
  match m k with
  | some e => (some e.value, Function.update m k (some { e with accessedAt := now }))
  | none => (none, m)

def insert (m : Map K V) (k : K) (e : Entry V) : Map K V := Function.update m k (some e)

def erase (m : Map K V) (k : K) : Map K V := Function.update m k none

/-- The entries whose keys are registered are dropped. -/
def eraseWhere (m : Map K V) (register : K → Bool) : Map K V :=
  fun k => if register k then none else m k

/-- The register of an expiry pass: the keys whose entries are idle for at least their limit. -/
def expireRegister (m : Map K V) (limit : V → ℕ) (now : ℕ) : K → Bool :=
  fun k => (m k).any fun e => decide (limit e.value ≤ elapsedSecs now e.accessedAt)

/-- The register of a refresh pass: the keys whose entries were refreshed long enough ago,
with the access time each had. -/
def refreshRegister (m : Map K V) (interval : V → ℕ) (now : ℕ) : K → Option ℕ :=
  fun k => (m k).bind fun e =>
    if interval e.value ≤ elapsedSecs now e.refreshedAt then some e.accessedAt else none

@[simp] theorem insert_self (m : Map K V) (k : K) (e : Entry V) : m.insert k e k = some e := by
  simp [insert]

@[simp] theorem insert_of_ne (m : Map K V) {k k' : K} (h : k' ≠ k) (e : Entry V) :
    m.insert k e k' = m k' := by
  simp [insert, h]

@[simp] theorem erase_self (m : Map K V) (k : K) : m.erase k k = none := by
  simp [erase]

@[simp] theorem erase_of_ne (m : Map K V) {k k' : K} (h : k' ≠ k) : m.erase k k' = m k' := by
  simp [erase, h]

theorem hit_of_none {m : Map K V} {k : K} (h : m k = none) (now : ℕ) : m.hit k now = (none, m) := by
  simp [hit, h]

theorem hit_of_some {m : Map K V} {k : K} {e : Entry V} (h : m k = some e) (now : ℕ) :
    m.hit k now = (some e.value, m.insert k { e with accessedAt := now }) := by
  simp [hit, h, insert]

/-- A hit at `k` sees only the entry at `k`. -/
theorem hit_onlyAt (m : Map K V) (k : K) (now : ℕ) :
    hit (onlyAt k m) k now = ((m.hit k now).1, onlyAt k (m.hit k now).2) := by
  cases h : m k with
  | none => simp [hit, h]
  | some e => simp [hit, h]

end Map

/-! ## Runs -/

/-- A cache with its clock, the registers of the passes in progress, and the time of the
last hit of each key (ghost). -/
structure Runtime (K V : Type) where
  map : Map K V
  now : ℕ
  expiring : K → Bool
  refreshing : K → Option ℕ
  lastHit : K → Option ℕ

/-- The steps of the tasks sharing a cache. `load` stores what a task that missed has read;
`refreshWrite` writes back what a refresh reloaded, if anything. -/
inductive Step (K V : Type)
  | tick (d : ℕ)
  | hit (k : K)
  | load (k : K) (v : V)
  | expireScan
  | expireRemove
  | refreshScan
  | refreshWrite (k : K) (v : Option V)

namespace Runtime

variable {K V : Type} [DecidableEq K] (limit interval : V → ℕ)

def step (s : Runtime K V) : Step K V → Runtime K V
  | .tick d => { s with now := s.now + d }
  | .hit k =>
    match s.map k with
    | some _ => { s with map := (s.map.hit k s.now).2, lastHit := Function.update s.lastHit k (some s.now) }
    | none => s
  | .load k v =>
    { s with map := s.map.insert k (Entry.new v s.now none),
             lastHit := Function.update s.lastHit k (some s.now) }
  | .expireScan => { s with expiring := s.map.expireRegister limit s.now }
  | .expireRemove => { s with map := s.map.eraseWhere s.expiring, expiring := fun _ => false }
  | .refreshScan => { s with refreshing := s.map.refreshRegister interval s.now }
  | .refreshWrite k v =>
    match s.refreshing k, v with
    | some accessedAt, some v =>
      { s with map := s.map.insert k (Entry.new v s.now (some accessedAt)),
               refreshing := Function.update s.refreshing k none }
    | some _, none => { s with refreshing := Function.update s.refreshing k none }
    | none, _ => s

def run (s : Runtime K V) (steps : List (Step K V)) : Runtime K V :=
  steps.foldl (step limit interval) s

/-- The next removal drops `k` although less than its idle limit has elapsed since its last
hit. -/
def RemovesEarly (idle : V → ℕ) (s : Runtime K V) (k : K) : Prop :=
  s.expiring k = true ∧
    ∃ e t, s.map k = some e ∧ s.lastHit k = some t ∧ elapsedSecs s.now t < idle e.value

instance (idle : V → ℕ) (s : Runtime K V) (k : K) : Decidable (RemovesEarly idle s k) :=
  match h : s.map k, h' : s.lastHit k with
  | some e, some t =>
    decidable_of_iff (s.expiring k = true ∧ elapsedSecs s.now t < idle e.value)
      ⟨fun ⟨hx, hlt⟩ => ⟨hx, e, t, h, h', hlt⟩,
       fun ⟨hx, e', t', he, ht, hlt⟩ => by
        rw [h] at he; rw [h'] at ht; cases he; cases ht; exact ⟨hx, hlt⟩⟩
  | none, _ => isFalse fun ⟨_, e, _, he, _⟩ => by rw [h] at he; cases he
  | some _, none => isFalse fun ⟨_, _, _, _, ht, _⟩ => by rw [h'] at ht; cases ht

/-! ## Passes that act on what they scanned -/

/-- An expiry scan registers an entry idle for its limit. -/
theorem expireScan_expiring {s : Runtime K V} {k : K} {e : Entry V} (he : s.map k = some e)
    (hx : limit e.value ≤ elapsedSecs s.now e.accessedAt) :
    (s.step limit interval .expireScan).expiring k = true := by
  simp [step, Map.expireRegister, he, hx]

/-- A hit between an expiry's scan and its removal does not save the entry: the removal that
follows drops an entry hit at this very moment. -/
theorem removesEarly_hit_after_expireScan {s : Runtime K V} {k : K} {e : Entry V}
    (he : s.map k = some e) (hx : limit e.value ≤ elapsedSecs s.now e.accessedAt)
    {idle : V → ℕ} (hidle : 0 < idle e.value) :
    RemovesEarly idle ((s.step limit interval .expireScan).step limit interval (.hit k)) k := by
  have hscan := expireScan_expiring limit interval he hx
  refine ⟨by simpa [step, he] using hscan, { e with accessedAt := s.now }, s.now, ?_, ?_, ?_⟩
  · simp [step, he, Map.hit_of_some he]
  · simp [step, he]
  · simpa [step, he, elapsedSecs] using hidle

/-- A hit between a refresh's scan and its write-back is forgotten: the entry is written back
with the access time the scan read. -/
theorem refreshWrite_after_hit {s : Runtime K V} {k : K} {e : Entry V} (he : s.map k = some e)
    (hr : interval e.value ≤ elapsedSecs s.now e.refreshedAt) (v : V) :
    (((s.step limit interval .refreshScan).step limit interval (.hit k)).step limit interval
      (.refreshWrite k (some v))).map k = some (Entry.new v s.now (some e.accessedAt)) := by
  simp [step, he, Map.refreshRegister, hr]

end Runtime

end Constellation.Cache
