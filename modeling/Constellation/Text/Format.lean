import Mathlib

/-! # Printing numbers and reading joined fields back

`format!("{:x}", n)` and `n.to_string()` print the digit characters that
`Nat.toDigits` returns in base 16 and 10, so the printed forms are read back by
folding the digits. Fields joined by a separator that none of them contains
determine each field, which is how a composite key stays injective.
-/

namespace Constellation.Text

/-- Every character that `Nat.toDigits` prints is the digit character of a digit. -/
theorem mem_toDigits {b n : ℕ} (hb : 1 < b) {c : Char} (hc : c ∈ Nat.toDigits b n) :
    ∃ d < b, c = d.digitChar := by
  induction n using Nat.base_induction b hb with
  | single m hm =>
    rw [Nat.toDigits_of_lt_base hm, List.mem_singleton] at hc
    exact ⟨m, hm, hc⟩
  | digit m k hk hm ih =>
    rw [← Nat.toDigits_append_toDigits hb hm hk, List.mem_append,
      Nat.toDigits_of_lt_base hk, List.mem_singleton] at hc
    rcases hc with hc | rfl
    · exact ih hc
    · exact ⟨k, hk, rfl⟩

/-! ## Hexadecimal -/

/-- The value of a lowercase hexadecimal digit character. -/
def hexValue (c : Char) : ℕ :=
  if c.isDigit then c.toNat - '0'.toNat else c.toNat - 'a'.toNat + 10

/-- Reads lowercase hexadecimal digits back into a number. -/
def ofHexChars (l : List Char) : ℕ := l.foldl (fun n c => 16 * n + hexValue c) 0

theorem hexValue_digitChar {d : ℕ} (h : d < 16) : hexValue d.digitChar = d := by
  have key : ∀ d < 16, hexValue d.digitChar = d := by decide
  exact key d h

theorem ofHexChars_append_singleton (l : List Char) (c : Char) :
    ofHexChars (l ++ [c]) = 16 * ofHexChars l + hexValue c := by
  simp [ofHexChars, List.foldl_append]

theorem ofHexChars_toDigits (n : ℕ) : ofHexChars (Nat.toDigits 16 n) = n := by
  induction n using Nat.base_induction 16 (by decide) with
  | single m hm =>
    rw [Nat.toDigits_of_lt_base hm, ← List.nil_append [_], ofHexChars_append_singleton,
      hexValue_digitChar hm]
    simp [ofHexChars]
  | digit m k hk hm ih =>
    rw [← Nat.toDigits_append_toDigits (by decide) hm hk, Nat.toDigits_of_lt_base hk,
      ofHexChars_append_singleton, ih, hexValue_digitChar hk]

theorem toDigits_hex_injective {a b : ℕ} (h : Nat.toDigits 16 a = Nat.toDigits 16 b) :
    a = b := by
  rw [← ofHexChars_toDigits a, h, ofHexChars_toDigits]

theorem colon_not_mem_toDigits_hex (n : ℕ) : ':' ∉ Nat.toDigits 16 n := by
  intro h
  obtain ⟨d, hd, he⟩ := mem_toDigits (by decide) h
  have key : ∀ d < 16, Nat.digitChar d ≠ ':' := by decide
  exact key d hd he.symm

/-! ## Decimal -/

/-- `str::parse::<u32>` as the Redis client applies it to a field: an optional `+`,
then decimal digits, with a value below `2 ^ 32`. -/
def parseU32 (l : List Char) : Option ℕ :=
  let digits := match l with
    | '+' :: rest => rest
    | _ => l
  if digits ≠ [] ∧ digits.all Char.isDigit ∧ Nat.ofDigitChars 10 digits 0 < 2 ^ 32 then
    some (Nat.ofDigitChars 10 digits 0)
  else none

theorem parseU32_toDigits {n : ℕ} (h : n < 2 ^ 32) : parseU32 (Nat.toDigits 10 n) = some n := by
  have hd : (Nat.toDigits 10 n).all Char.isDigit := List.all_eq_true.mpr fun c hc =>
    Nat.isDigit_of_mem_toDigits (by decide) (by decide) hc
  have hs : (match Nat.toDigits 10 n with
      | '+' :: rest => rest
      | _ => Nat.toDigits 10 n) = Nat.toDigits 10 n := by
    split
    · rename_i rest heq
      have := List.all_eq_true.mp hd '+' (by simp [heq])
      simp at this
    · rfl
  simp only [parseU32, hs, ne_eq, Nat.toDigits_ne_nil, not_false_eq_true, hd,
    Nat.ofDigitChars_ten_toDigits, h, and_self, if_true]

/-! ## Fields joined by a separator -/

section Join

variable {α : Type*}

/-- Two joins at a separator absent from both first fields agree field by field. -/
theorem append_cons_eq_iff {sep : α} {x x' y y' : List α} (hx : sep ∉ x) (hx' : sep ∉ x') :
    x ++ sep :: y = x' ++ sep :: y' ↔ x = x' ∧ y = y' := by
  induction x generalizing x' with
  | nil =>
    cases x' with
    | nil => simp
    | cons a x' =>
      simp only [List.nil_append, List.cons_append, List.cons.injEq, reduceCtorEq, false_and,
        iff_false, not_and]
      rintro rfl
      exact absurd List.mem_cons_self hx'
  | cons a x ih =>
    cases x' with
    | nil =>
      simp only [List.nil_append, List.cons_append, List.cons.injEq, reduceCtorEq, false_and,
        iff_false, not_and]
      rintro rfl
      exact absurd List.mem_cons_self hx
    | cons a' x' =>
      have hx₁ : sep ∉ x := fun h => hx (List.mem_cons_of_mem _ h)
      have hx₁' : sep ∉ x' := fun h => hx' (List.mem_cons_of_mem _ h)
      simp only [List.cons_append, List.cons.injEq, ih hx₁ hx₁', and_assoc]

theorem not_mem_of_mem_splitOn [DecidableEq α] {sep : α} {xs p : List α}
    (h : p ∈ xs.splitOn sep) : sep ∉ p := by
  induction xs generalizing p with
  | nil =>
    rw [List.splitOn_nil, List.mem_singleton] at h
    subst h
    simp
  | cons x xs ih =>
    rw [List.splitOn_cons_eq_if_modifyHead] at h
    split at h
    · rcases List.mem_cons.mp h with rfl | h
      · simp
      · exact ih h
    · rename_i hx
      obtain ⟨q, qs, hq⟩ := List.exists_cons_of_ne_nil (List.splitOn_ne_nil sep xs)
      rw [hq, List.modifyHead_cons, List.mem_cons] at h
      rcases h with rfl | h
      · have hne : x ≠ sep := fun he => hx (by simp [he])
        exact fun hm => (List.mem_cons.mp hm).elim (fun he => hne he.symm)
          (ih (by rw [hq]; exact List.mem_cons_self))
      · exact ih (by rw [hq]; exact List.mem_cons_of_mem _ h)

theorem intercalate_append_nil (sep : α) (ls : List (List α)) :
    [sep].intercalate (ls ++ [[]]) = (ls.map (· ++ [sep])).flatten := by
  induction ls with
  | nil => simp
  | cons x ls ih =>
    rw [List.cons_append, List.intercalate_cons_of_ne_nil (by simp), ih]
    simp

/-- Parts each closed by a separator they do not contain split back into the parts and a
final empty piece. -/
theorem splitOn_flatten_map_append [DecidableEq α] {sep : α} {ls : List (List α)}
    (h : ∀ l ∈ ls, sep ∉ l) : (ls.map (· ++ [sep])).flatten.splitOn sep = ls ++ [[]] := by
  rw [← intercalate_append_nil, List.splitOn_intercalate]
  · intro l hl
    rcases List.mem_append.mp hl with hl | hl
    · exact h l hl
    · simp_all
  · simp

end Join

end Constellation.Text
