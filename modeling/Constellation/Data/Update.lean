import Mathlib

/-! # Maps updated at a key, lists updated at an index

Two facts about a partial map `K → Option V` restricted to one key: an update at
that key commutes with the restriction, and an update elsewhere is invisible to
it. And the facts about `List.modify` that a list of servers, updated one at a
time, needs: what it contains afterwards, and which projections it keeps.
-/

namespace Constellation

section OnlyAt

variable {K V : Type} [DecidableEq K]

/-- The map with every key but `k` removed. -/
def onlyAt (k : K) (m : K → Option V) : K → Option V :=
  fun k' => if k' = k then m k' else none

@[simp] theorem onlyAt_self (k : K) (m : K → Option V) : onlyAt k m k = m k := by
  simp [onlyAt]

theorem onlyAt_congr {k : K} {m m' : K → Option V} (h : m k = m' k) : onlyAt k m = onlyAt k m' := by
  funext k'
  by_cases hk : k' = k
  · subst hk
    simp [h]
  · simp [onlyAt, hk]

@[simp] theorem onlyAt_update_self (k : K) (m : K → Option V) (v : Option V) :
    onlyAt k (Function.update m k v) = Function.update (onlyAt k m) k v := by
  funext k'
  by_cases hk : k' = k
  · subst hk
    simp
  · simp [onlyAt, hk]

theorem onlyAt_update_of_ne {k k' : K} (h : k ≠ k') (m : K → Option V) (v : Option V) :
    onlyAt k' (Function.update m k v) = onlyAt k' m :=
  onlyAt_congr (Function.update_of_ne h.symm v m)

end OnlyAt

section Modify

variable {α β : Type}

theorem mem_of_mem_modify {l : List α} {i : ℕ} {f : α → α} {x : α}
    (h : x ∈ l.modify i f) : x ∈ l ∨ ∃ y ∈ l, x = f y := by
  obtain ⟨j, hj⟩ := List.mem_iff_getElem?.mp h
  rw [List.getElem?_modify] at hj
  cases hl : l[j]? with
  | none => simp [hl] at hj
  | some y =>
    simp only [hl, Option.map_eq_map, Option.map_some, Option.some.injEq] at hj
    have hy : y ∈ l := List.mem_of_getElem? hl
    split at hj
    · exact .inr ⟨y, hy, hj.symm⟩
    · exact .inl (hj ▸ hy)

/-- A projection that turns `f` into `f'` turns `modify f` into `modify f'`. -/
theorem map_modify {f : α → α} {g : α → β} {f' : β → β} (h : ∀ a, g (f a) = f' (g a))
    (l : List α) (i : ℕ) : (l.modify i f).map g = (l.map g).modify i f' := by
  apply List.ext_getElem?
  intro j
  simp only [List.getElem?_map, List.getElem?_modify]
  cases l[j]? with
  | none => rfl
  | some a =>
    simp only [Option.map_eq_map, Option.map_some, Option.some.injEq]
    split
    · exact h a
    · rfl

/-- A projection that does not see `f` does not see `modify f`. -/
theorem map_modify_of_comp {f : α → α} {g : α → β} (h : ∀ a, g (f a) = g a) (l : List α)
    (i : ℕ) : (l.modify i f).map g = l.map g := by
  have hid : ∀ a, g (f a) = id (g a) := h
  rw [map_modify hid, List.modify_id]

end Modify

end Constellation
