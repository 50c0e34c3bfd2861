import Mathlib

/-! # Counter maps as association lists

A counter map holds each key once, with its count. `addCount` adds to the count
of a key, inserting the key when it is absent. A map *tallies* `n : K → ℕ`
through `render` when it holds `render k`, with the value of `n k`, exactly for
the `k` counted at least once, and holds no other key. Counting one more keeps
a tally, and so does merging a tallying map into another key by key; the
counts are then added.

Values are read through `val : ℕ → V`, additive, so that counts may wrap.
-/

namespace Constellation.Data

variable {K S V : Type} [DecidableEq S] [Add V]

/-- Add `count` to the count of `key`, inserting the key when it is absent. -/
def addCount : List (S × V) → S → V → List (S × V)
  | [], key, count => [(key, count)]
  | (k, n) :: rest, key, count =>
    if k = key then (k, n + count) :: rest else (k, n) :: addCount rest key count

omit [Add V] in
theorem lookup_cons_of_ne {s k : S} (h : s ≠ k) (n : V) (rest : List (S × V)) :
    ((k, n) :: rest).lookup s = rest.lookup s := by
  have hb : (s == k) = false := beq_eq_false_iff_ne.mpr h
  simp [List.lookup, hb]

theorem lookup_addCount (counters : List (S × V)) (key : S) (count : V) (s : S) :
    (addCount counters key count).lookup s =
      if s = key then some ((counters.lookup key).elim count (· + count))
      else counters.lookup s := by
  induction counters with
  | nil => by_cases h : s = key <;> simp [addCount, List.lookup, h, lookup_cons_of_ne]
  | cons entry rest ih =>
    obtain ⟨k, n⟩ := entry
    by_cases hk : k = key
    · -- the key is at the head: its count grows there
      subst hk
      by_cases h : s = k
      · simp [addCount, List.lookup, h]
      · simp [addCount, h, lookup_cons_of_ne]
    · rw [addCount, if_neg hk]
      by_cases h : s = k
      · subst h
        simp [List.lookup, hk]
      · rw [lookup_cons_of_ne h, lookup_cons_of_ne h, ih, lookup_cons_of_ne (Ne.symm hk)]

theorem keys_addCount (counters : List (S × V)) (key : S) (count : V) :
    (addCount counters key count).map Prod.fst =
      if key ∈ counters.map Prod.fst then counters.map Prod.fst
      else counters.map Prod.fst ++ [key] := by
  induction counters with
  | nil => simp [addCount]
  | cons entry rest ih =>
    obtain ⟨k, n⟩ := entry
    by_cases hk : k = key
    · simp [addCount, hk]
    · simp only [addCount, if_neg hk, List.map_cons, ih, List.mem_cons, Ne.symm hk, false_or]
      split <;> simp

theorem nodup_addCount {counters : List (S × V)} (h : (counters.map Prod.fst).Nodup)
    (key : S) (count : V) : ((addCount counters key count).map Prod.fst).Nodup := by
  rw [keys_addCount]
  split
  · exact h
  · rename_i hnew
    rw [List.nodup_append]
    refine ⟨h, List.nodup_cons.mpr ⟨List.not_mem_nil, List.nodup_nil⟩, fun a ha b hb => ?_⟩
    rw [List.mem_singleton] at hb
    subst hb
    exact fun he => hnew (he ▸ ha)

omit [Add V] in
/-- With distinct keys, an entry is what the lookup of its key finds. -/
theorem lookup_of_mem {counters : List (S × V)} (h : (counters.map Prod.fst).Nodup)
    {entry : S × V} (hmem : entry ∈ counters) : counters.lookup entry.1 = some entry.2 := by
  induction counters with
  | nil => cases hmem
  | cons head rest ih =>
    obtain ⟨k, n⟩ := head
    rw [List.map_cons, List.nodup_cons] at h
    rcases List.mem_cons.mp hmem with rfl | hrest
    · simp [List.lookup]
    · have hne : entry.1 ≠ k := fun he => h.1 (List.mem_map.mpr ⟨entry, hrest, he⟩)
      rw [lookup_cons_of_ne hne]
      exact ih h.2 hrest

/-- Merge the counts of `entries` into `counters`, each under the rendering of its key. -/
def addAll (render : K → S) (counters : List (S × V)) (entries : List (K × V)) :
    List (S × V) :=
  entries.foldl (fun counters entry => addCount counters (render entry.1) entry.2) counters

section Tallies

variable (val : ℕ → V)

/-- `counters` holds `render k`, with the value `val (n k)`, exactly for the `k` with
`n k ≠ 0`, each once, and holds no key that is not a rendering. -/
structure Tallies (counters : List (S × V)) (render : K → S) (n : K → ℕ) : Prop where
  nodup : (counters.map Prod.fst).Nodup
  lookup_render : ∀ k, counters.lookup (render k) = if n k = 0 then none else some (val (n k))
  lookup_other : ∀ s, (∀ k, render k ≠ s) → counters.lookup s = none

variable {val} {render : K → S}

omit [Add V] in
theorem tallies_nil : Tallies val ([] : List (S × V)) render fun _ => 0 :=
  ⟨List.nodup_nil, fun _ => rfl, fun _ _ => rfl⟩

variable [DecidableEq K] (hval : ∀ a b, val (a + b) = val a + val b)
  (hinj : Function.Injective render)
include hval hinj

/-- Adding `c` counts of `key`, `c` positive, tallies one key more. -/
theorem Tallies.addCount {counters : List (S × V)} {n : K → ℕ}
    (h : Tallies val counters render n) (key : K) {c : ℕ} (hc : c ≠ 0) :
    Tallies val (addCount counters (render key) (val c)) render
      (fun k => if k = key then n k + c else n k) := by
  refine ⟨nodup_addCount h.nodup _ _, fun k => ?_, fun s hs => ?_⟩
  · rw [lookup_addCount, h.lookup_render]
    by_cases hk : k = key
    · -- the key counted: its value is the old one, or nothing, plus `c`
      subst hk
      by_cases hz : n k = 0 <;> simp [hz, hc, hval]
    · have hr : render k ≠ render key := fun he => hk (hinj he)
      simp [hr, hk, h.lookup_render]
  · have hne : s ≠ render key := fun he => hs key he.symm
    rw [lookup_addCount, if_neg hne, h.lookup_other s hs]

/-- Merging entries with distinct keys, each `k` with the value `val (n k)` and `n k`
positive, adds `n k` to the count of each `k` among them. -/
theorem Tallies.addAll_of_entries {m n : K → ℕ} :
    ∀ {counters : List (S × V)} (entries : List (K × V)), Tallies val counters render m →
      (entries.map Prod.fst).Nodup → (∀ entry ∈ entries, entry.2 = val (n entry.1) ∧ n entry.1 ≠ 0) →
      Tallies val (addAll render counters entries) render
        (fun k => m k + if k ∈ entries.map Prod.fst then n k else 0)
  | counters, [], h, _, _ => by simpa [addAll] using h
  | counters, (k₀, v₀) :: rest, h, hnodup, hentries => by
    obtain ⟨hv, hpos⟩ := hentries (k₀, v₀) List.mem_cons_self
    rw [List.map_cons, List.nodup_cons] at hnodup
    -- the head is counted first, then the rest
    have hhead := h.addCount hval hinj k₀ hpos
    rw [← hv] at hhead
    have hrest := Tallies.addAll_of_entries (m := fun k => if k = k₀ then m k + n k₀ else m k)
      rest hhead hnodup.2 fun entry hentry => hentries entry (List.mem_cons_of_mem _ hentry)
    have hsum : (fun k => (if k = k₀ then m k + n k₀ else m k) +
          if k ∈ rest.map Prod.fst then n k else 0) =
        fun k => m k + if k ∈ ((k₀, v₀) :: rest).map Prod.fst then n k else 0 := by
      funext k
      by_cases hk : k = k₀
      · subst hk
        simp [hnodup.1]
      · have hmem : k ∈ ((k₀, v₀) :: rest).map Prod.fst ↔ k ∈ rest.map Prod.fst := by
          simp [hk]
        simp only [hk, if_false, hmem]
    rw [hsum] at hrest
    simpa [addAll] using hrest

/-- Merging a map that tallies `n` into one that tallies `m` tallies their sum. -/
theorem Tallies.addAll {counters : List (S × V)} {entries : List (K × V)} {m n : K → ℕ}
    (h : Tallies val counters render m) (hentries : Tallies val entries id n) :
    Tallies val (addAll render counters entries) render (fun k => m k + n k) := by
  have hvalues : ∀ entry ∈ entries, entry.2 = val (n entry.1) ∧ n entry.1 ≠ 0 := by
    intro entry hentry
    have hlookup := hentries.lookup_render entry.1
    rw [id, lookup_of_mem hentries.nodup hentry] at hlookup
    by_cases hz : n entry.1 = 0
    · simp [hz] at hlookup
    · simp only [hz, if_false, Option.some.injEq] at hlookup
      exact ⟨hlookup, hz⟩
  -- every key counted in `entries` is one of its keys
  have hkeys : ∀ k, (if k ∈ entries.map Prod.fst then n k else 0) = n k := by
    intro k
    split
    · rfl
    · have hnone : entries.lookup k = none := by
        rw [List.lookup_eq_none_iff]
        intro entry hentry
        have hne : k ≠ entry.1 := fun he => ‹k ∉ _› (List.mem_map.mpr ⟨entry, hentry, he.symm⟩)
        simpa using hne
      have hlookup := hentries.lookup_render k
      rw [id, hnone] at hlookup
      by_contra hne
      simp [Ne.symm hne] at hlookup
  simpa [hkeys] using h.addAll_of_entries hval hinj entries hentries.nodup hvalues

/-- Merging the maps `slots i`, for `i` in `indices`, each tallying `n i`, tallies the sums. -/
theorem Tallies.foldl_addAll {ι : Type} (slots : ι → List (K × V)) (n : ι → K → ℕ)
    (hslots : ∀ i, Tallies val (slots i) id (n i)) :
    ∀ (indices : List ι) {counters : List (S × V)} {m : K → ℕ}, Tallies val counters render m →
      Tallies val (indices.foldl (fun counters i => Data.addAll render counters (slots i)) counters)
        render (fun k => m k + (indices.map fun i => n i k).sum)
  | [], _, _, h => by simpa using h
  | i :: indices, _, _, h => by
    have hrest := Tallies.foldl_addAll slots n hslots indices (h.addAll hval hinj (hslots i))
    simpa [Nat.add_assoc] using hrest

end Tallies

end Constellation.Data
