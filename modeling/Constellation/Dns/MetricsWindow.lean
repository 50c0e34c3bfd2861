import Constellation.Dns.Metrics

/-! # The metrics window

Over any run of `MetricsStore::stack` and `DNSMetricsTick::perform` from the
empty store, slot `i` of a zone holds, key by key, the stacks made `i` ticks
before the end of the run. `aggregate` over a timespan of `L` minutes adds up
slots `1` to `L`: the stacks made after the `(L+1)`-th most recent tick, or from
the start, and before the most recent one. Counts are those numbers modulo
`2^32`, and a key is there exactly when its number is positive.
-/

namespace Constellation.Dns

open Data

/-! ## The slots slide one minute -/

@[simp] theorem val_slotAt {index : ℕ} (h : index < METRICS_BACKLOG_MINUTES + 1) :
    (slotAt index).val = index := by
  simp [slotAt, Nat.mod_eq_of_lt h]

theorem slotAt_val (i : Fin (METRICS_BACKLOG_MINUTES + 1)) : slotAt i.val = i :=
  Fin.ext (val_slotAt i.isLt)

/-- The loop of `gen_metrics_tick_perform_item!` over `0 .. n-1`, from the top down, moves
each of those slots one up. -/
theorem shiftLoop_apply {K : Type} :
    ∀ (n : ℕ), n ≤ METRICS_BACKLOG_MINUTES →
      ∀ (store : Fin (METRICS_BACKLOG_MINUTES + 1) → MetricsCounters K)
        (i : Fin (METRICS_BACKLOG_MINUTES + 1)),
      (List.range n).reverse.foldl (fun store index =>
          Function.update store (slotAt (index + 1)) (store (slotAt index))) store i =
        if 1 ≤ i.val ∧ i.val ≤ n then store (slotAt (i.val - 1)) else store i
  | 0, _, store, i => by
    rw [if_neg (by omega)]
    rfl
  | n + 1, hn, store, i => by
    rw [List.range_succ, List.reverse_append, List.reverse_singleton, List.singleton_append,
      List.foldl_cons, shiftLoop_apply n (by omega)]
    -- slot `n + 1` took slot `n`; the loop then moved the slots below it
    have hnext : (slotAt (n + 1)).val = n + 1 := val_slotAt (by omega)
    by_cases hlow : 1 ≤ i.val ∧ i.val ≤ n
    · have hne : slotAt (i.val - 1) ≠ slotAt (n + 1) := by
        intro he
        have := congrArg Fin.val he
        rw [val_slotAt (by omega), hnext] at this
        omega
      rw [if_pos hlow, if_pos (by omega), Function.update_of_ne hne]
    · rw [if_neg hlow]
      by_cases htop : i.val = n + 1
      · have hi : i = slotAt (n + 1) := Fin.ext (by rw [hnext, htop])
        rw [if_pos (by omega), hi, Function.update_self, hnext, Nat.add_sub_cancel]
      · have hne : i ≠ slotAt (n + 1) := fun he => htop (by rw [he, hnext])
        rw [if_neg (by omega), Function.update_of_ne hne]

/-- After a tick, the current slot is empty and every other slot holds the one below it. -/
theorem tickPerformItem_apply {K : Type}
    (store : Fin (METRICS_BACKLOG_MINUTES + 1) → MetricsCounters K)
    (i : Fin (METRICS_BACKLOG_MINUTES + 1)) :
    tickPerformItem store i = if i.val = 0 then [] else store (slotAt (i.val - 1)) := by
  unfold tickPerformItem
  by_cases hi : i.val = 0
  · have hzero : i = 0 := Fin.ext hi
    rw [if_pos hi, hzero, Function.update_self]
  · have hne : i ≠ 0 := fun he => hi (by rw [he]; rfl)
    rw [if_neg hi, Function.update_of_ne hne, shiftLoop_apply _ le_rfl,
      if_pos ⟨by omega, by have := i.isLt; unfold METRICS_BACKLOG_MINUTES at this ⊢; omega⟩]

/-! ## Runs of the store -/

/-- What changes the metrics store: a `stack` on a zone, or the minute tick. -/
inductive MetricsEvent (Country : Type)
  | stack (zoneName : ZoneName) (metricsValue : MetricsValue Country)
  | tick

variable {Country : Type}

def MetricsEvent.isTick : MetricsEvent Country → Bool
  | .tick => true
  | .stack _ _ => false

/-- The ticks of a run. -/
def ticksIn (events : List (MetricsEvent Country)) : ℕ :=
  (events.filter MetricsEvent.isTick).length

@[simp] theorem ticksIn_append_tick (events : List (MetricsEvent Country)) :
    ticksIn (events ++ [.tick]) = ticksIn events + 1 := by
  rw [ticksIn, ticksIn, List.filter_append, List.length_append]
  rfl

@[simp] theorem ticksIn_append_stack (events : List (MetricsEvent Country)) (zoneName : ZoneName)
    (metricsValue : MetricsValue Country) :
    ticksIn (events ++ [.stack zoneName metricsValue]) = ticksIn events := by
  simp [ticksIn, MetricsEvent.isTick]

/-! ## How long ago each stack was made -/

section Counts

variable {K : Type} [DecidableEq K] (keyOf : MetricsValue Country → Option K)
  (zoneName : ZoneName) (key : K)

/-- The stacks on the zone counted under `key` with `age` ticks after them. -/
def stackedAgo (age : ℕ) : List (MetricsEvent Country) → ℕ
  | [] => 0
  | .stack other metricsValue :: rest =>
    (if other = zoneName ∧ keyOf metricsValue = some key ∧ ticksIn rest = age then 1 else 0) +
      stackedAgo age rest
  | .tick :: rest => stackedAgo age rest

/-- The stacks on the zone counted under `key` with between `1` and `limit` ticks after them:
made after the `(limit + 1)`-th most recent tick, or from the start, and before the most
recent one. -/
def stackedWithin (limit : ℕ) : List (MetricsEvent Country) → ℕ
  | [] => 0
  | .stack other metricsValue :: rest =>
    (if other = zoneName ∧ keyOf metricsValue = some key ∧ 1 ≤ ticksIn rest ∧
        ticksIn rest ≤ limit then 1 else 0) +
      stackedWithin limit rest
  | .tick :: rest => stackedWithin limit rest

/-- A stack appended is one more of its key, on its zone, made no tick ago. -/
theorem stackedAgo_append_stack (age : ℕ) (other : ZoneName) (metricsValue : MetricsValue Country) :
    ∀ events : List (MetricsEvent Country),
      stackedAgo keyOf zoneName key age (events ++ [.stack other metricsValue]) =
        stackedAgo keyOf zoneName key age events +
          if other = zoneName ∧ keyOf metricsValue = some key ∧ age = 0 then 1 else 0
  | [] => by simp [stackedAgo, ticksIn, eq_comm]
  | .stack other' metricsValue' :: rest => by
    simp only [List.cons_append, stackedAgo, ticksIn_append_stack,
      stackedAgo_append_stack age other metricsValue rest]
    omega
  | .tick :: rest => by
    simp only [List.cons_append, stackedAgo, stackedAgo_append_stack age other metricsValue rest]

/-- A tick appended makes every stack one tick older. -/
theorem stackedAgo_append_tick (age : ℕ) :
    ∀ events : List (MetricsEvent Country),
      stackedAgo keyOf zoneName key age (events ++ [.tick]) =
        if age = 0 then 0 else stackedAgo keyOf zoneName key (age - 1) events
  | [] => by simp [stackedAgo]
  | .stack other metricsValue :: rest => by
    simp only [List.cons_append, stackedAgo, ticksIn_append_tick, stackedAgo_append_tick age rest]
    by_cases hage : age = 0
    · simp [hage]
    · have hticks : ticksIn rest + 1 = age ↔ ticksIn rest = age - 1 := by omega
      simp [hage, hticks]
  | .tick :: rest => by
    simp only [List.cons_append, stackedAgo, stackedAgo_append_tick age rest]

/-- Of the ages `1` to `limit`, one is `t` when `t` is among them. -/
theorem sum_window_indicator (t : ℕ) :
    ∀ limit : ℕ, ((List.range' 1 limit).map fun age => if t = age then 1 else 0).sum =
      if 1 ≤ t ∧ t ≤ limit then 1 else 0
  | 0 => by
    rw [if_neg (by omega)]
    rfl
  | limit + 1 => by
    rw [List.range'_concat, List.map_append, List.sum_append, sum_window_indicator t limit]
    simp only [List.map_cons, List.map_nil, List.sum_cons, List.sum_nil, Nat.one_mul]
    split_ifs <;> omega

/-- The stacks within `limit` ticks are those of each age from `1` to `limit`. -/
theorem stackedWithin_eq_sum (limit : ℕ) :
    ∀ events : List (MetricsEvent Country), stackedWithin keyOf zoneName key limit events =
      ((List.range' 1 limit).map fun age => stackedAgo keyOf zoneName key age events).sum
  | [] => by simp [stackedWithin, stackedAgo]
  | .stack other metricsValue :: rest => by
    simp only [stackedWithin, stackedAgo, List.sum_map_add, stackedWithin_eq_sum limit rest]
    congr 1
    -- the stack is of one age: it counts within the window when that age is in it
    by_cases hkey : other = zoneName ∧ keyOf metricsValue = some key
    · simp only [hkey, true_and]
      rw [sum_window_indicator]
    · have hzero : ∀ age, (if other = zoneName ∧ keyOf metricsValue = some key ∧
          ticksIn rest = age then 1 else 0) = 0 := fun age => if_neg fun h => hkey ⟨h.1, h.2.1⟩
      rw [if_neg fun h => hkey ⟨h.1, h.2.1⟩]
      simp [hzero]
  | .tick :: rest => by
    simp only [stackedWithin, stackedAgo, stackedWithin_eq_sum limit rest]

end Counts

variable [DecidableEq Country]

namespace MetricsStore

theorem stack_apply (store : MetricsStore Country) (zoneName other : ZoneName)
    (metricsValue : MetricsValue Country) :
    store.stack zoneName metricsValue other =
      if other = zoneName then some (((store zoneName).getD .new).stackValue metricsValue)
      else store other := by
  cases metricsValue <;>
    simp [MetricsStore.stack, MetricsStoreZone.stackValue, Function.update_apply]

def step (store : MetricsStore Country) : MetricsEvent Country → MetricsStore Country
  | .stack zoneName metricsValue => store.stack zoneName metricsValue
  | .tick => DNSMetricsTick.perform store

/-- The store after the events, from the empty one the process starts with. -/
def run (events : List (MetricsEvent Country)) : MetricsStore Country :=
  events.foldl step fun _ => none

theorem run_append_singleton (events : List (MetricsEvent Country)) (event : MetricsEvent Country) :
    run (events ++ [event]) = (run events).step event := by
  simp [run, List.foldl_append]

end MetricsStore

/-- A kind of metric: the key a stacked value counts under in it, if it counts there, and
the slots that hold it in the store of a zone. -/
structure MetricsCategory (Country K : Type) [DecidableEq Country] [DecidableEq K] where
  keyOf : MetricsValue Country → Option K
  slots : MetricsStoreZone Country → Fin (METRICS_BACKLOG_MINUTES + 1) → MetricsCounters K
  slots_new : slots .new = fun _ => []
  slots_stackValue : ∀ zoneStore metricsValue, slots (zoneStore.stackValue metricsValue) =
    match keyOf metricsValue with
    | some key => Function.update (slots zoneStore) 0 ((slots zoneStore 0).stackItem key)
    | none => slots zoneStore
  slots_tick : ∀ zoneStore, slots zoneStore.tick = tickPerformItem (slots zoneStore)

def MetricsValue.queryTypeKey : MetricsValue Country → Option (Option RecordType)
  | .QueryType recordType => some recordType
  | _ => none

def MetricsValue.queryOriginKey : MetricsValue Country → Option (Option Country)
  | .QueryOrigin originCountry => some originCountry
  | _ => none

def MetricsValue.answerCodeKey : MetricsValue Country → Option (Option CodeName)
  | .AnswerCode code => some code
  | _ => none

def queryTypeCategory : MetricsCategory Country (Option RecordType) where
  keyOf := MetricsValue.queryTypeKey
  slots := MetricsStoreZone.queryType
  slots_new := rfl
  slots_stackValue := by
    intro zoneStore metricsValue
    cases metricsValue <;> rfl
  slots_tick _ := rfl

def queryOriginCategory : MetricsCategory Country (Option Country) where
  keyOf := MetricsValue.queryOriginKey
  slots := MetricsStoreZone.queryOrigin
  slots_new := rfl
  slots_stackValue := by
    intro zoneStore metricsValue
    cases metricsValue <;> rfl
  slots_tick _ := rfl

def answerCodeCategory : MetricsCategory Country (Option CodeName) where
  keyOf := MetricsValue.answerCodeKey
  slots := MetricsStoreZone.answerCode
  slots_new := rfl
  slots_stackValue := by
    intro zoneStore metricsValue
    cases metricsValue <;> rfl
  slots_tick _ := rfl

/-! ## The slots hold the stacks by age -/

section Window

variable {K : Type} [DecidableEq K] (category : MetricsCategory Country K)

/-- Slot `i` of the store of every zone holds, key by key, the stacks on the zone made `i`
ticks ago; a zone with no store yet holds none. -/
def WindowHolds (events : List (MetricsEvent Country)) (store : MetricsStore Country) : Prop :=
  ∀ zoneName (i : Fin (METRICS_BACKLOG_MINUTES + 1)),
    Tallies UInt32.ofNat (category.slots ((store zoneName).getD .new) i) id
      fun key => stackedAgo category.keyOf zoneName key i events

theorem windowHolds_nil : WindowHolds category [] fun _ => none := by
  intro zoneName i
  rw [Option.getD_none, category.slots_new]
  exact tallies_nil

variable {category} {events : List (MetricsEvent Country)} {store : MetricsStore Country}

/-- A stack counts one more of its key in the current slot of its zone. -/
theorem WindowHolds.stack (h : WindowHolds category events store) (zoneName : ZoneName)
    (metricsValue : MetricsValue Country) :
    WindowHolds category (events ++ [.stack zoneName metricsValue])
      (store.stack zoneName metricsValue) := by
  intro other i
  have hcount : ∀ key, _ := fun key =>
    stackedAgo_append_stack category.keyOf other key (i : ℕ) zoneName metricsValue events
  rw [MetricsStore.stack_apply]
  by_cases hz : other = zoneName
  · subst hz
    rw [if_pos rfl, Option.getD_some, category.slots_stackValue]
    cases hkey : category.keyOf metricsValue with
    | none =>
      -- a value of another kind counts nothing here
      dsimp only
      simpa [hcount, hkey] using h other i
    | some key₀ =>
      dsimp only
      by_cases hi : i = 0
      · subst hi
        have hadd := (h other 0).addCount UInt32.ofNat_add Function.injective_id key₀ Nat.one_ne_zero
        have hfun : (fun key => stackedAgo category.keyOf other key ((0 : Fin (METRICS_BACKLOG_MINUTES + 1)) : ℕ)
              (events ++ [.stack other metricsValue])) =
            fun key => if key = key₀ then
                stackedAgo category.keyOf other key ((0 : Fin (METRICS_BACKLOG_MINUTES + 1)) : ℕ) events + 1
              else stackedAgo category.keyOf other key ((0 : Fin (METRICS_BACKLOG_MINUTES + 1)) : ℕ) events := by
          funext key
          rw [hcount]
          by_cases hk : key = key₀
          · simp [hk, hkey]
          · simp [hk, hkey, Ne.symm hk]
        rw [hfun, Function.update_self, MetricsCounters.stackItem_eq_addCount]
        simpa [UInt32.ofNat_one] using hadd
      · have hi' : (i : ℕ) ≠ 0 := fun h0 => hi (Fin.ext h0)
        rw [Function.update_of_ne hi]
        simpa [hcount, hi'] using h other i
  · rw [if_neg hz]
    simpa [hcount, Ne.symm hz] using h other i

theorem slots_perform (store : MetricsStore Country) (zoneName : ZoneName) :
    category.slots ((DNSMetricsTick.perform store zoneName).getD .new) =
      tickPerformItem (category.slots ((store zoneName).getD .new)) := by
  cases hz : store zoneName with
  | none =>
    -- a zone with no store stays without one: its slots are empty before and after
    have hnone : DNSMetricsTick.perform store zoneName = none := by
      simp [DNSMetricsTick.perform, hz]
    rw [hnone, Option.getD_none, category.slots_new]
    funext i
    rw [tickPerformItem_apply]
    split <;> rfl
  | some zoneStore =>
    have hsome : DNSMetricsTick.perform store zoneName = some zoneStore.tick := by
      simp [DNSMetricsTick.perform, hz, MetricsStoreZone.tick]
    rw [hsome, Option.getD_some, Option.getD_some, category.slots_tick]

/-- A tick slides every slot one up, and the stacks get one tick older. -/
theorem WindowHolds.tick (h : WindowHolds category events store) :
    WindowHolds category (events ++ [.tick]) (DNSMetricsTick.perform store) := by
  intro zoneName i
  have hcount : ∀ key, _ := fun key =>
    stackedAgo_append_tick category.keyOf zoneName key (i : ℕ) events
  rw [slots_perform, tickPerformItem_apply]
  by_cases hi : (i : ℕ) = 0
  · have hzero : (fun key => stackedAgo category.keyOf zoneName key (i : ℕ) (events ++ [.tick])) =
        fun _ => 0 := funext fun key => by rw [hcount, if_pos hi]
    rw [if_pos hi, hzero]
    exact tallies_nil
  · rw [if_neg hi]
    have hprev := h zoneName (slotAt ((i : ℕ) - 1))
    rw [val_slotAt (by omega)] at hprev
    simpa [hcount, hi] using hprev

/-- Over every run from the empty store, the slots hold the stacks by age. -/
theorem windowHolds_run (events : List (MetricsEvent Country)) :
    WindowHolds category events (MetricsStore.run events) := by
  induction events using List.reverseRecOn with
  | nil => exact windowHolds_nil category
  | append_singleton events event ih =>
    rw [MetricsStore.run_append_singleton]
    cases event with
    | stack zoneName metricsValue => exact ih.stack zoneName metricsValue
    | tick => exact ih.tick

end Window

/-! ## What `aggregate` returns -/

section Aggregate

variable {K : Type} [DecidableEq K] {category : MetricsCategory Country (Option K)}
  {events : List (MetricsEvent Country)} {store : MetricsStore Country}

/-- Over slots that hold the stacks by age, `gen_metrics_aggregate_item!` adds up, under the
text of each key, the stacks of ages `1` to `min(limit, 15)`. -/
theorem WindowHolds.aggregateItem (h : WindowHolds category events store) (zoneName : ZoneName)
    {toStr : K → String} (hinj : Function.Injective (aggregateKey toStr)) (limit : UInt8) :
    Tallies UInt32.ofNat
      (aggregateItem toStr (category.slots ((store zoneName).getD .new)) limit)
      (aggregateKey toStr) fun key =>
        stackedWithin category.keyOf zoneName key (min limit.toNat METRICS_BACKLOG_MINUTES)
          events := by
  have hsum := Tallies.foldl_addAll UInt32.ofNat_add hinj
    (fun index => category.slots ((store zoneName).getD .new) (slotAt index))
    (fun index key => stackedAgo category.keyOf zoneName key (slotAt index).val events)
    (fun index => h zoneName (slotAt index))
    (List.range' 1 (min limit.toNat METRICS_BACKLOG_MINUTES)) tallies_nil
  -- the slots summed are those of ages `1` to `min(limit, 15)`, all below `16`
  have hwindow : ∀ key, 0 + ((List.range' 1 (min limit.toNat METRICS_BACKLOG_MINUTES)).map
        fun index => stackedAgo category.keyOf zoneName key (slotAt index).val events).sum =
      stackedWithin category.keyOf zoneName key (min limit.toNat METRICS_BACKLOG_MINUTES)
        events := by
    intro key
    rw [Nat.zero_add, stackedWithin_eq_sum]
    congr 1
    apply List.map_congr_left
    intro index hindex
    have hlt : index < METRICS_BACKLOG_MINUTES + 1 := by
      rw [List.mem_range'_1] at hindex
      omega
    rw [val_slotAt hlt]
  simp only [hwindow] at hsum
  exact hsum

end Aggregate

omit [DecidableEq Country] in
theorem aggregateItem_empty {K : Type} (toStr : K → String) (limit : UInt8) :
    aggregateItem toStr (fun _ => []) limit = [] := by
  simp [aggregateItem, Data.addAll]

omit [DecidableEq Country] in
/-- For a zone of the configuration, `aggregate` reads the slots of the kind it is asked
for, and a zone with no store has empty ones. -/
theorem aggregate_of_zoneExists {dns : ConfigDNS} {zoneName : ZoneName}
    (hzone : dns.zoneExists zoneName.toStr = true) (countryToStr : Country → String)
    (store : MetricsStore Country) (metricsType : MetricsType) (metricsTimespan : MetricsTimespan) :
    MetricsStore.aggregate dns countryToStr store zoneName metricsType metricsTimespan =
      some (match metricsType with
        | .QueryType => aggregateItem RecordType.toStr
            ((store zoneName).getD .new).queryType metricsTimespan.asMinutes
        | .QueryOrigin => aggregateItem countryToStr
            ((store zoneName).getD .new).queryOrigin metricsTimespan.asMinutes
        | .AnswerCode => aggregateItem CodeName.toStr
            ((store zoneName).getD .new).answerCode metricsTimespan.asMinutes) := by
  cases hz : store zoneName <;> cases metricsType <;>
    simp [MetricsStore.aggregate, hzone, hz, MetricsStoreZone.new, aggregateItem_empty]

theorem min_asMinutes (metricsTimespan : MetricsTimespan) :
    min metricsTimespan.asMinutes.toNat METRICS_BACKLOG_MINUTES = metricsTimespan.asMinutes.toNat := by
  cases metricsTimespan <;> rfl

/-- A function is injective when a list of all its arguments maps to distinct values. -/
theorem injective_of_nodup_map {α β : Type} {f : α → β} (l : List α) (hall : ∀ a, a ∈ l)
    (hnodup : (l.map f).Nodup) : Function.Injective f :=
  fun a b h => List.inj_on_of_nodup_map hnodup (hall a) (hall b) h

theorem aggregateKey_recordType_injective : Function.Injective (aggregateKey RecordType.toStr) := by
  refine injective_of_nodup_map (none :: RecordType.listChoices.map some) ?_ (by decide)
  rintro (_ | recordType)
  · exact List.mem_cons_self
  · exact List.mem_cons_of_mem _ (List.mem_map_of_mem (RecordType.mem_listChoices recordType))

theorem aggregateKey_codeName_injective : Function.Injective (aggregateKey CodeName.toStr) := by
  refine injective_of_nodup_map [none, some .NoError, some .FormErr, some .ServFail,
    some .NXDomain, some .NotImp, some .Refused, some .YXDomain, some .YXRRSet, some .NXRRSet,
    some .NotAuth, some .NotZone] ?_ (by decide)
  rintro (_ | code)
  · decide
  · cases code <;> decide

/-- Over any run of stacks and ticks from the empty store, for a zone of the configuration
and each timespan of `L` minutes, `aggregate` maps the lowercase text of every key to the
number, modulo `2^32`, of the stacks of it made after the `(L+1)`-th most recent tick (or from
the start) and before the most recent one; it has the keys of which there are such stacks,
and no other. `countryToStr` renders distinct countries distinctly, and none as `other`. -/
theorem metrics_window_aggregate (dns : ConfigDNS) (countryToStr : Country → String)
    (hcountry : Function.Injective (aggregateKey countryToStr))
    (events : List (MetricsEvent Country)) (zoneName : ZoneName)
    (hzone : dns.zoneExists zoneName.toStr = true) (metricsTimespan : MetricsTimespan) :
    (∃ aggregated, MetricsStore.aggregate dns countryToStr (MetricsStore.run events) zoneName
        .QueryType metricsTimespan = some aggregated ∧
      Tallies UInt32.ofNat aggregated (aggregateKey RecordType.toStr) fun key =>
        stackedWithin MetricsValue.queryTypeKey zoneName key metricsTimespan.asMinutes.toNat
          events) ∧
    (∃ aggregated, MetricsStore.aggregate dns countryToStr (MetricsStore.run events) zoneName
        .QueryOrigin metricsTimespan = some aggregated ∧
      Tallies UInt32.ofNat aggregated (aggregateKey countryToStr) fun key =>
        stackedWithin MetricsValue.queryOriginKey zoneName key metricsTimespan.asMinutes.toNat
          events) ∧
    (∃ aggregated, MetricsStore.aggregate dns countryToStr (MetricsStore.run events) zoneName
        .AnswerCode metricsTimespan = some aggregated ∧
      Tallies UInt32.ofNat aggregated (aggregateKey CodeName.toStr) fun key =>
        stackedWithin MetricsValue.answerCodeKey zoneName key metricsTimespan.asMinutes.toNat
          events) := by
  -- each kind of metric: its slots hold the stacks by age, and aggregate adds up the window
  have hqueryType :=
    (windowHolds_run events : WindowHolds queryTypeCategory events _).aggregateItem zoneName
      aggregateKey_recordType_injective metricsTimespan.asMinutes
  have hqueryOrigin :=
    (windowHolds_run events : WindowHolds queryOriginCategory events _).aggregateItem zoneName
      hcountry metricsTimespan.asMinutes
  have hanswerCode :=
    (windowHolds_run events : WindowHolds answerCodeCategory events _).aggregateItem zoneName
      aggregateKey_codeName_injective metricsTimespan.asMinutes
  rw [min_asMinutes] at hqueryType hqueryOrigin hanswerCode
  refine ⟨⟨_, aggregate_of_zoneExists hzone _ _ _ _, hqueryType⟩,
    ⟨_, aggregate_of_zoneExists hzone _ _ _ _, hqueryOrigin⟩,
    ⟨_, aggregate_of_zoneExists hzone _ _ _ _, hanswerCode⟩⟩

/-- The zone `example.com`. -/
def metricsZone : ZoneName := exampleZoneName

/-- A configuration with no zone. -/
def zonelessDns : ConfigDNS := { nameservers := [], soaMaster := "", soaResponsible := "" }

/-- One A query counted on `example.com`, then a tick. -/
def oneQueryRun : List (MetricsEvent Unit) := [.stack metricsZone (.QueryType (some .A)), .tick]

/-- The configuration with the zone `example.com`. -/
def metricsDns : ConfigDNS := { zonelessDns with zone := ["example.com"] }

theorem aggregateKey_unit_injective : Function.Injective (aggregateKey fun _ : Unit => "FR") := by
  refine injective_of_nodup_map [none, some ()] ?_ (by decide)
  intro key
  cases key with
  | none => decide
  | some country =>
    cases country
    decide

theorem metrics_window_aggregate_oneQuery :
    Function.Injective (aggregateKey fun _ : Unit => "FR") ∧
      metricsDns.zoneExists metricsZone.toStr = true ∧
      (∃ aggregated, MetricsStore.aggregate metricsDns (fun _ => "FR")
          (MetricsStore.run oneQueryRun) metricsZone .QueryType .OneMinute = some aggregated ∧
        Tallies UInt32.ofNat aggregated (aggregateKey RecordType.toStr) fun key =>
          stackedWithin MetricsValue.queryTypeKey metricsZone key
            MetricsTimespan.OneMinute.asMinutes.toNat oneQueryRun) ∧
      (∃ aggregated, MetricsStore.aggregate metricsDns (fun _ => "FR")
          (MetricsStore.run oneQueryRun) metricsZone .QueryOrigin .OneMinute = some aggregated ∧
        Tallies UInt32.ofNat aggregated (aggregateKey fun _ : Unit => "FR") fun key =>
          stackedWithin MetricsValue.queryOriginKey metricsZone key
            MetricsTimespan.OneMinute.asMinutes.toNat oneQueryRun) ∧
      (∃ aggregated, MetricsStore.aggregate metricsDns (fun _ => "FR")
          (MetricsStore.run oneQueryRun) metricsZone .AnswerCode .OneMinute = some aggregated ∧
        Tallies UInt32.ofNat aggregated (aggregateKey CodeName.toStr) fun key =>
          stackedWithin MetricsValue.answerCodeKey metricsZone key
            MetricsTimespan.OneMinute.asMinutes.toNat oneQueryRun) :=
  ⟨aggregateKey_unit_injective, rfl,
    metrics_window_aggregate metricsDns (fun _ => "FR") aggregateKey_unit_injective oneQueryRun
      metricsZone rfl .OneMinute⟩

/-- The minute closed holds the query, and yet `aggregate` has nothing for a zone the
configuration does not have. -/
theorem aggregate_unconfigured_zone :
    stackedWithin MetricsValue.queryTypeKey metricsZone (some RecordType.A) 1 oneQueryRun = 1 ∧
      MetricsStore.aggregate zonelessDns (fun _ => "") (MetricsStore.run oneQueryRun)
        metricsZone .QueryType .OneMinute = none :=
  ⟨by decide, rfl⟩

end Constellation.Dns
