import Mathlib

/-! # A register and the log of its changes

A register is a finite set of keys. Putting a key in logs an entry when the key
was out, and taking it out logs an exit when it was in; a change that does
nothing logs nothing. Then the changes logged for each key alternate entry,
exit, entry, ..., starting with an entry, and they end with an entry exactly
when the key is in the register.
-/

namespace Constellation.Data

variable {K : Type} [DecidableEq K]

/-- Entry, exit, entry, ...: the first `n` changes of a key that starts out. -/
def alternating (n : ℕ) : List Bool := (List.range n).map fun i => decide (i % 2 = 0)

theorem alternating_succ (n : ℕ) : alternating (n + 1) = alternating n ++ [decide (n % 2 = 0)] := by
  simp [alternating, List.range_succ]

/-- A register with the log of its changes: a key and whether it entered. -/
structure LoggedRegister (K : Type) where
  register : Finset K
  log : List (K × Bool)

namespace LoggedRegister

variable {r : LoggedRegister K}

/-- Put `k` in, logging an entry if it was out. -/
def enter (r : LoggedRegister K) (k : K) : LoggedRegister K :=
  ⟨insert k r.register, if k ∈ r.register then r.log else r.log ++ [(k, true)]⟩

/-- Take `k` out, logging an exit if it was in. -/
def leave (r : LoggedRegister K) (k : K) : LoggedRegister K :=
  ⟨r.register.erase k, if k ∈ r.register then r.log ++ [(k, false)] else r.log⟩

/-- The changes logged for `k`, in order. -/
def changes (r : LoggedRegister K) (k : K) : List Bool :=
  (r.log.filter fun change => change.1 = k).map Prod.snd

/-- Every key's changes alternate from an entry, and end with an entry exactly when the key
is in. -/
def Alternates (r : LoggedRegister K) : Prop :=
  ∀ k, r.changes k = alternating (r.changes k).length ∧
    (k ∈ r.register ↔ (r.changes k).length % 2 = 1)

theorem changes_append_of_ne (register : Finset K) {k k' : K} (h : k' ≠ k) (b : Bool) :
    (⟨register, r.log ++ [(k', b)]⟩ : LoggedRegister K).changes k = r.changes k := by
  simp [changes, h]

theorem changes_append_self (register : Finset K) (k : K) (b : Bool) :
    (⟨register, r.log ++ [(k, b)]⟩ : LoggedRegister K).changes k = r.changes k ++ [b] := by
  simp [changes]

theorem alternates_empty : (⟨∅, []⟩ : LoggedRegister K).Alternates := by
  intro k
  simp [changes, alternating]

/-- A key whose changes alternate gets one more change of the kind its count calls for. -/
theorem alternating_append {changes : List Bool} (h : changes = alternating changes.length) :
    changes ++ [decide (changes.length % 2 = 0)] =
      alternating (changes ++ [decide (changes.length % 2 = 0)]).length := by
  rw [List.length_append, List.length_singleton, alternating_succ, ← h]

/-- Putting a key in keeps every key's changes alternating. -/
theorem Alternates.enter (h : r.Alternates) (k : K) : (r.enter k).Alternates := by
  intro k'
  obtain ⟨hseq, hmem⟩ := h k'
  by_cases hin : k ∈ r.register
  · -- nothing logged: the key was in already
    have he : r.enter k = r := by simp [LoggedRegister.enter, hin, Finset.insert_eq_of_mem hin]
    rw [he]
    exact ⟨hseq, hmem⟩
  · have he : r.enter k = ⟨insert k r.register, r.log ++ [(k, true)]⟩ := by
      simp [LoggedRegister.enter, hin]
    rw [he]
    by_cases hk : k' = k
    · subst hk
      -- an entry after an even number of changes
      have heven : (r.changes k').length % 2 = 0 := by
        by_contra hodd
        exact hin (hmem.mpr (by omega))
      have hentry : decide ((r.changes k').length % 2 = 0) = true := by simp [heven]
      rw [changes_append_self]
      refine ⟨?_, ?_⟩
      · simpa [hentry] using alternating_append hseq
      · simp only [Finset.mem_insert, true_or, true_iff, List.length_append,
          List.length_singleton]
        omega
    · rw [changes_append_of_ne _ (Ne.symm hk)]
      exact ⟨hseq, by simp [hk, hmem]⟩

/-- Taking a key out keeps every key's changes alternating. -/
theorem Alternates.leave (h : r.Alternates) (k : K) : (r.leave k).Alternates := by
  intro k'
  obtain ⟨hseq, hmem⟩ := h k'
  by_cases hin : k ∈ r.register
  · have hl : r.leave k = ⟨r.register.erase k, r.log ++ [(k, false)]⟩ := by
      simp [LoggedRegister.leave, hin]
    rw [hl]
    by_cases hk : k' = k
    · subst hk
      -- an exit after an odd number of changes
      have hodd : (r.changes k').length % 2 = 1 := hmem.mp hin
      have hexit : decide ((r.changes k').length % 2 = 0) = false := by simp [hodd]
      rw [changes_append_self]
      refine ⟨?_, ?_⟩
      · simpa [hexit] using alternating_append hseq
      · simp only [Finset.mem_erase, ne_eq, not_true_eq_false, false_and, false_iff,
          List.length_append, List.length_singleton]
        omega
    · rw [changes_append_of_ne _ (Ne.symm hk)]
      exact ⟨hseq, by simp [hk, hmem]⟩
  · -- nothing logged: the key was out already
    have hl : r.leave k = r := by simp [LoggedRegister.leave, hin]
    rw [hl]
    exact ⟨hseq, hmem⟩

end LoggedRegister

end Constellation.Data
