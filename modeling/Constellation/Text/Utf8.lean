import Mathlib

/-! # Byte offsets and case in UTF-8 text

Rust strings are sequences of characters stored as UTF-8; their lengths and the
offsets that `split_at` takes count bytes, and an offset that falls inside a
character makes `split_at` panic. Text is modelled by its characters, and byte
lengths and character boundaries come from the UTF-8 width of each character.

Case folding is the ASCII one. It agrees with `str::to_lowercase` on ASCII text,
which is all that DNS labels and the configuration names here contain.
-/

namespace Constellation.Text

/-- The length in bytes of the UTF-8 encoding, as `str::len` returns it. -/
def byteLen (s : List Char) : ℕ := (s.map Char.utf8Size).sum

@[simp] theorem byteLen_nil : byteLen [] = 0 := rfl

@[simp] theorem byteLen_cons (c : Char) (s : List Char) :
    byteLen (c :: s) = c.utf8Size + byteLen s := by
  simp [byteLen]

@[simp] theorem byteLen_append (s t : List Char) :
    byteLen (s ++ t) = byteLen s + byteLen t := by
  simp [byteLen]

theorem length_le_byteLen (s : List Char) : s.length ≤ byteLen s := by
  induction s with
  | nil => simp
  | cons c s ih =>
    have := c.utf8Size_pos
    simp only [List.length_cons, byteLen_cons]
    omega

theorem byteLen_eq_zero_iff {s : List Char} : byteLen s = 0 ↔ s = [] := by
  cases s with
  | nil => simp
  | cons c s =>
    have := c.utf8Size_pos
    simp only [byteLen_cons, reduceCtorEq, iff_false]
    omega

/-- One-byte characters, the ASCII range. -/
def IsAscii (s : List Char) : Prop := ∀ c ∈ s, c.utf8Size = 1

theorem byteLen_of_isAscii {s : List Char} (h : IsAscii s) : byteLen s = s.length := by
  induction s with
  | nil => rfl
  | cons c s ih =>
    rw [byteLen_cons, h c (by simp), ih fun d hd => h d (by simp [hd]), List.length_cons]
    omega

/-- A byte offset of `s` that lies between two characters, or at an end. -/
def IsCharBoundary (s : List Char) (n : ℕ) : Prop :=
  ∃ a b, s = a ++ b ∧ byteLen a = n

/-- `str::split_at`: the text before and after a byte offset, or `none` where the
code panics, the offset lying inside a character or past the end. -/
def splitAt : List Char → ℕ → Option (List Char × List Char)
  | s, 0 => some ([], s)
  | [], _ + 1 => none
  | c :: s, n + 1 =>
    if c.utf8Size ≤ n + 1 then (splitAt s (n + 1 - c.utf8Size)).map fun p => (c :: p.1, p.2)
    else none

theorem splitAt_eq_some_iff {s a b : List Char} {n : ℕ} :
    splitAt s n = some (a, b) ↔ s = a ++ b ∧ byteLen a = n := by
  induction s generalizing n a with
  | nil =>
    cases n with
    | zero =>
      simp only [splitAt, Option.some.injEq, Prod.mk.injEq, List.nil_eq, List.append_eq_nil_iff]
      constructor
      · rintro ⟨rfl, rfl⟩; simp
      · rintro ⟨⟨rfl, rfl⟩, -⟩; simp
    | succ n =>
      simp only [splitAt, reduceCtorEq, false_iff, not_and, List.nil_eq,
        List.append_eq_nil_iff]
      rintro ⟨rfl, -⟩
      simp
  | cons c s ih =>
    cases n with
    | zero =>
      simp only [splitAt, Option.some.injEq, Prod.mk.injEq]
      constructor
      · rintro ⟨rfl, rfl⟩; simp
      · rintro ⟨he, ha⟩
        obtain rfl := byteLen_eq_zero_iff.mp ha
        exact ⟨rfl, by simpa using he⟩
    | succ n =>
      have hc := c.utf8Size_pos
      simp only [splitAt]
      constructor
      · intro h
        split at h
        · obtain ⟨⟨a', b'⟩, hs, he⟩ := Option.map_eq_some_iff.mp h
          simp only [Prod.mk.injEq] at he
          obtain ⟨rfl, rfl⟩ := he
          obtain ⟨rfl, hl⟩ := ih.mp hs
          simp only [List.cons_append, byteLen_cons, true_and]
          omega
        · cases h
      · rintro ⟨he, hl⟩
        cases a with
        | nil => simp at hl
        | cons d a =>
          simp only [List.cons_append, List.cons.injEq] at he
          obtain ⟨rfl, rfl⟩ := he
          simp only [byteLen_cons] at hl
          rw [if_pos (by omega), ih.mpr ⟨rfl, by omega⟩]
          rfl

theorem splitAt_isSome_iff {s : List Char} {n : ℕ} :
    (splitAt s n).isSome ↔ IsCharBoundary s n := by
  rw [Option.isSome_iff_exists]
  constructor
  · rintro ⟨⟨a, b⟩, h⟩
    exact ⟨a, b, splitAt_eq_some_iff.mp h⟩
  · rintro ⟨a, b, h⟩
    exact ⟨(a, b), splitAt_eq_some_iff.mpr h⟩

theorem splitAt_eq_none_iff {s : List Char} {n : ℕ} :
    splitAt s n = none ↔ ¬ IsCharBoundary s n := by
  rw [← splitAt_isSome_iff, Option.not_isSome_iff_eq_none]

@[simp] theorem byteLen_replicate (n : ℕ) (c : Char) :
    byteLen (List.replicate n c) = n * c.utf8Size := by
  simp [byteLen, List.sum_replicate]

/-- A run of two-byte characters has no character boundary at an odd offset. -/
theorem splitAt_replicate_odd {c : Char} (hc : c.utf8Size = 2) :
    ∀ (n k : ℕ), splitAt (List.replicate n c) (2 * k + 1) = none
  | 0, k => rfl
  | n + 1, 0 => by simp [List.replicate_succ, splitAt, hc]
  | n + 1, k + 1 => by
    rw [List.replicate_succ, show 2 * (k + 1) + 1 = (2 * k + 2) + 1 by omega, splitAt,
      if_pos (by omega), show 2 * k + 2 + 1 - c.utf8Size = 2 * k + 1 by omega,
      splitAt_replicate_odd hc n k, Option.map_none]

theorem isCharBoundary_byteLen (s : List Char) : IsCharBoundary s (byteLen s) :=
  ⟨s, [], by simp, rfl⟩

/-- Past a prefix, the boundaries of a text are those of its remainder. -/
theorem isCharBoundary_append_iff {a b : List Char} {m : ℕ} :
    IsCharBoundary (a ++ b) (byteLen a + m) ↔ IsCharBoundary b m := by
  constructor
  · rintro ⟨x, y, he, hx⟩
    rcases List.append_eq_append_iff.mp he with ⟨a', rfl, rfl⟩ | ⟨c', rfl, rfl⟩
    · exact ⟨a', y, rfl, by simpa using hx⟩
    · have hc : byteLen c' = 0 := by simp at hx; omega
      obtain rfl := byteLen_eq_zero_iff.mp hc
      exact ⟨[], b, rfl, by simp at hx; omega⟩
  · rintro ⟨x, y, rfl, rfl⟩
    exact ⟨a ++ x, y, by simp, by simp⟩

/-- Every offset of ASCII text up to its length is a character boundary. -/
theorem isCharBoundary_of_isAscii {s : List Char} (h : IsAscii s) {n : ℕ}
    (hn : n ≤ s.length) : IsCharBoundary s n := by
  refine ⟨s.take n, s.drop n, (List.take_append_drop n s).symm, ?_⟩
  rw [byteLen_of_isAscii fun c hc => h c (List.mem_of_mem_take hc), List.length_take]
  omega

/-! ## ASCII case folding -/

/-- `str::to_lowercase`, folding the ASCII letters. -/
def toLowercase (s : List Char) : List Char := s.map Char.toLower

@[simp] theorem toLower_toLower (c : Char) : c.toLower.toLower = c.toLower := by
  simp only [Char.toLower]
  grind

@[simp] theorem toLowercase_nil : toLowercase [] = [] := rfl

@[simp] theorem toLowercase_cons (c : Char) (s : List Char) :
    toLowercase (c :: s) = c.toLower :: toLowercase s := rfl

@[simp] theorem toLowercase_append (s t : List Char) :
    toLowercase (s ++ t) = toLowercase s ++ toLowercase t := List.map_append

@[simp] theorem length_toLowercase (s : List Char) : (toLowercase s).length = s.length :=
  List.length_map _

@[simp] theorem toLowercase_toLowercase (s : List Char) :
    toLowercase (toLowercase s) = toLowercase s := by
  simp [toLowercase, Function.comp_def]

/-- A text lowercased and stored is lowercase. -/
theorem toLowercase_ofList_toLowercase (value : String) :
    toLowercase (String.ofList (toLowercase value.toList)).toList =
      (String.ofList (toLowercase value.toList)).toList := by
  rw [String.toList_ofList, toLowercase_toLowercase]

theorem toLower_eq_self {c : Char} (h : c.isUpper = false) : c.toLower = c := by
  simp only [Char.isUpper, decide_eq_false_iff_not] at h
  unfold Char.toLower
  rw [dif_neg h]

theorem isLower_toLower {c : Char} (h : c.isUpper = true) : c.toLower.isLower = true := by
  simp only [Char.isUpper, decide_eq_true_eq] at h
  simp only [Char.toLower, dif_pos h, Char.isLower]
  simp only [UInt32.le_iff_toNat_le, UInt32.toNat_add] at *
  simp at *
  omega

/-- Folding leaves alone, and never produces, a character that is not an ASCII letter. -/
theorem toLower_eq_iff_of_not_isAlpha {c d : Char} (hd : d.isAlpha = false) :
    c.toLower = d ↔ c = d := by
  simp only [Char.isAlpha, Bool.or_eq_false_iff] at hd
  cases hc : c.isUpper
  · rw [toLower_eq_self hc]
  · constructor
    · rintro rfl
      have := isLower_toLower hc
      simp_all
    · rintro rfl
      simp_all

/-- Membership in a set of characters that are not ASCII letters survives folding. -/
theorem toLower_beq_of_not_isAlpha {d : Char} (hd : d.isAlpha = false) (c : Char) :
    (c.toLower == d) = (c == d) := by
  rw [Bool.eq_iff_iff, beq_iff_eq, beq_iff_eq, toLower_eq_iff_of_not_isAlpha hd]

theorem contains_toLower {l : List Char} (hl : ∀ d ∈ l, d.isAlpha = false) (c : Char) :
    l.contains c.toLower = l.contains c := by
  induction l with
  | nil => rfl
  | cons d l ih =>
    rw [List.contains_cons, List.contains_cons, toLower_beq_of_not_isAlpha (hl d (by simp)),
      ih fun e he => hl e (by simp [he])]


theorem toLower_utf8Size (c : Char) : c.toLower.utf8Size = c.utf8Size := by
  cases hc : c.isUpper
  · rw [toLower_eq_self hc]
  · have h1 := isLower_toLower hc
    simp only [Char.isUpper, decide_eq_true_eq, Char.isLower, Bool.and_eq_true,
      UInt32.le_iff_toNat_le] at hc h1
    rw [Char.utf8Size_eq_one_iff.mpr, Char.utf8Size_eq_one_iff.mpr] <;>
      simp only [UInt32.le_iff_toNat_le] <;> simp at hc h1 ⊢ <;> omega

@[simp] theorem byteLen_toLowercase (s : List Char) : byteLen (toLowercase s) = byteLen s := by
  induction s with
  | nil => rfl
  | cons c s ih => simp [ih, toLower_utf8Size]

end Constellation.Text
