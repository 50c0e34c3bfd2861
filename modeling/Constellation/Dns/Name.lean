import Constellation.Text.Utf8
import Constellation.Text.Format

/-! # Domain names as hickory holds them

hickory keeps a name as its labels and prints it with a dot after each label,
the root as a lone dot. A label is modelled by its text: non-empty, without a
dot, at most 63 bytes; a name fits the 255 bytes of the wire format. A
`LowerName` is a name whose labels are lowercase, which is how queries and zone
origins reach the handler.

`Name::parse` splits at the dots and checks the lengths. Escape sequences and
internationalised labels are not modelled.
-/

namespace Constellation.Dns

open Text

structure Label where
  text : List Char
  ne_nil : text ≠ []
  no_dot : '.' ∉ text
  short : byteLen text ≤ 63
  deriving DecidableEq

/-- The length of a name in the wire format: a length byte per label, and the root. -/
def wireLen (texts : List (List Char)) : ℕ := (texts.map fun t => byteLen t + 1).sum + 1

@[simp] theorem wireLen_map_toLowercase (texts : List (List Char)) :
    wireLen (texts.map toLowercase) = wireLen texts := by
  simp [wireLen, Function.comp_def]

theorem wireLen_nil_le : wireLen [] ≤ 255 := by decide

structure Name where
  labels : List Label
  short : wireLen (labels.map Label.text) ≤ 255
  deriving DecidableEq

structure LowerName where
  labels : List Label
  short : wireLen (labels.map Label.text) ≤ 255
  lower : ∀ l ∈ labels, toLowercase l.text = l.text
  deriving DecidableEq

namespace Label

theorem ext {a b : Label} (h : a.text = b.text) : a = b := by
  cases a; cases b; cases h; rfl

def toLower (l : Label) : Label where
  text := toLowercase l.text
  ne_nil := by simpa [toLowercase] using l.ne_nil
  no_dot := by
    simp only [toLowercase, List.mem_map, not_exists, not_and]
    intro c hc he
    exact l.no_dot ((toLower_eq_iff_of_not_isAlpha (by decide)).mp he ▸ hc)
  short := by simpa using l.short

theorem toLower_eq_self {l : Label} (h : toLowercase l.text = l.text) : l.toLower = l :=
  ext h

/-- The single-character label `*`. -/
def wildcard : Label := ⟨['*'], by simp, by simp, by decide⟩

end Label

/-- The printed form of a fully qualified name: each label followed by a dot, the root
as a lone dot. -/
def labelsToString (labels : List Label) : List Char :=
  if labels = [] then ['.'] else (labels.map fun l => l.text ++ ['.']).flatten

/-- `LowerName::new`. -/
def LowerName.new (name : Name) : LowerName where
  labels := name.labels.map Label.toLower
  short := by
    rw [List.map_map, show Label.text ∘ Label.toLower = toLowercase ∘ Label.text from rfl,
      ← List.map_map, wireLen_map_toLowercase]
    exact name.short
  lower := by simp [Label.toLower]

theorem labelsToString_cons (l : Label) (rest : List Label) :
    labelsToString (l :: rest) = l.text ++ '.' :: (rest.map fun l => l.text ++ ['.']).flatten := by
  simp [labelsToString]

namespace LowerName

theorem ext {a b : LowerName} (h : a.labels = b.labels) : a = b := by
  cases a; cases b; cases h; rfl

def toString (name : LowerName) : List Char := labelsToString name.labels

/-- `Name::from(LowerName)`. -/
def toName (name : LowerName) : Name := ⟨name.labels, name.short⟩

def isRoot (name : LowerName) : Bool := name.labels.isEmpty

/-- `base_name`: the name without its leftmost label; the root is its own base. -/
def baseName (name : LowerName) : LowerName where
  labels := name.labels.tail
  short := by
    have := name.short
    cases h : name.labels with
    | nil => simp [wireLen]
    | cons l ls => simp_all [wireLen]; omega
  lower := fun l hl => name.lower l (List.mem_of_mem_tail hl)

end LowerName

/-! ## Parsing -/

/-- The parts of a dotted name: the pieces between dots, less the empty piece after a
closing dot. -/
def Name.parts (s : List Char) : List (List Char) :=
  if s.getLast? = some '.' then (s.splitOn '.').dropLast else s.splitOn '.'

theorem Name.dot_not_mem_parts {s p : List Char} (hp : p ∈ Name.parts s) : '.' ∉ p := by
  unfold Name.parts at hp
  split at hp
  · exact not_mem_of_mem_splitOn (List.dropLast_subset _ hp)
  · exact not_mem_of_mem_splitOn hp

/-- The labels of parts already checked. -/
def Name.mkLabels : (parts : List (List Char)) →
    (∀ p ∈ parts, p ≠ [] ∧ '.' ∉ p ∧ byteLen p ≤ 63) → List Label
  | [], _ => []
  | p :: ps, h =>
    ⟨p, (h p List.mem_cons_self).1, (h p List.mem_cons_self).2.1, (h p List.mem_cons_self).2.2⟩ ::
      Name.mkLabels ps fun q hq => h q (List.mem_cons_of_mem _ hq)

@[simp] theorem Name.map_text_mkLabels (parts : List (List Char))
    (h : ∀ p ∈ parts, p ≠ [] ∧ '.' ∉ p ∧ byteLen p ≤ 63) :
    (Name.mkLabels parts h).map Label.text = parts := by
  induction parts with
  | nil => rfl
  | cons p ps ih => simp [Name.mkLabels, ih]

/-- `Name::parse` relative to the root: the parts between dots, a final dot closing the
name, each part a label of at most 63 bytes, the whole within 255 bytes. -/
def Name.parse (s : List Char) : Option Name :=
  if s = ['.'] then some ⟨[], wireLen_nil_le⟩
  else if h : (∀ p ∈ Name.parts s, p ≠ [] ∧ byteLen p ≤ 63) ∧ wireLen (Name.parts s) ≤ 255 then
    some ⟨Name.mkLabels (Name.parts s) fun p hp =>
        ⟨(h.1 p hp).1, Name.dot_not_mem_parts hp, (h.1 p hp).2⟩,
      by rw [Name.map_text_mkLabels]; exact h.2⟩
  else none

theorem Name.mkLabels_eq {ps : List (List Char)} {labels : List Label}
    (he : ps = labels.map Label.text) (h) : Name.mkLabels ps h = labels := by
  subst he
  induction labels with
  | nil => rfl
  | cons l ls ih => simp only [List.map_cons, Name.mkLabels, ih]

theorem Name.parts_flatten {texts : List (List Char)} (h : ∀ t ∈ texts, '.' ∉ t)
    (hne : texts ≠ []) : Name.parts (texts.map (· ++ ['.'])).flatten = texts := by
  have hlast : ((texts.map (· ++ ['.'])).flatten).getLast? = some '.' := by
    obtain ⟨init, t, rfl⟩ := List.eq_nil_or_concat texts |>.resolve_left hne
    simp
  rw [Name.parts, if_pos hlast, splitOn_flatten_map_append h, List.dropLast_concat]

/-- A printed fully qualified name parses back into its labels. -/
theorem Name.parse_labels {labels : List Label} (hne : labels ≠ [])
    (hw : wireLen (labels.map Label.text) ≤ 255) :
    (Name.parse ((labels.map fun l => l.text ++ ['.']).flatten)).map Name.labels =
      some labels := by
  have hs : (labels.map fun l => l.text ++ ['.']).flatten =
      ((labels.map Label.text).map (· ++ ['.'])).flatten := by
    simp [List.map_map, Function.comp_def]
  have hparts : Name.parts ((labels.map fun l => l.text ++ ['.']).flatten) =
      labels.map Label.text := by
    rw [hs, Name.parts_flatten]
    · simpa using fun l _ => l.no_dot
    · simpa using hne
  have hdot : (labels.map fun l => l.text ++ ['.']).flatten ≠ ['.'] := by
    obtain ⟨l, ls, rfl⟩ := List.exists_cons_of_ne_nil hne
    obtain ⟨c, cs, hc⟩ := List.exists_cons_of_ne_nil l.ne_nil
    have : c ≠ '.' := fun h => l.no_dot (hc ▸ h ▸ List.mem_cons_self)
    simp [hc, this]
  have hcond : (∀ p ∈ Name.parts ((labels.map fun l => l.text ++ ['.']).flatten),
      p ≠ [] ∧ byteLen p ≤ 63) ∧
      wireLen (Name.parts ((labels.map fun l => l.text ++ ['.']).flatten)) ≤ 255 := by
    rw [hparts]
    exact ⟨by simpa using fun l _ => ⟨l.ne_nil, l.short⟩, hw⟩
  rw [Name.parse, if_neg hdot, dif_pos hcond, Option.map_some]
  exact congrArg some (Name.mkLabels_eq hparts _)

/-- What follows the first dot, `splitn(2, ".").nth(1)`. -/
def afterFirstDot : List Char → Option (List Char)
  | [] => none
  | c :: s => if c = '.' then some s else afterFirstDot s

theorem afterFirstDot_append {t r : List Char} (ht : '.' ∉ t) :
    afterFirstDot (t ++ '.' :: r) = some r := by
  induction t with
  | nil => simp [afterFirstDot]
  | cons c t ih =>
    have hc : c ≠ '.' := fun h => ht (h ▸ List.mem_cons_self)
    rw [List.cons_append, afterFirstDot, if_neg hc, ih fun h => ht (List.mem_cons_of_mem _ h)]

/-- The wildcard `records_from_store` tries for a query name: `*.` followed by what
follows the first dot of the printed name. -/
def wildcardOf (queryName : LowerName) : Option LowerName :=
  match afterFirstDot queryName.toString with
  | some base => (Name.parse ('*' :: '.' :: base)).map LowerName.new
  | none => none

/-- The wildcard of `l.rest` is `*.rest`. -/
theorem wildcardOf_labels {q : LowerName} {l : Label} {rest : List Label}
    (hq : q.labels = l :: rest) :
    (wildcardOf q).map LowerName.labels = some (Label.wildcard :: rest) := by
  have hstr : q.toString = l.text ++ '.' :: (rest.map fun l => l.text ++ ['.']).flatten := by
    rw [LowerName.toString, hq, labelsToString_cons]
  have hbase : '*' :: '.' :: (rest.map fun l => l.text ++ ['.']).flatten =
      ((Label.wildcard :: rest).map fun l => l.text ++ ['.']).flatten := by
    simp [Label.wildcard]
  have hw : wireLen ((Label.wildcard :: rest).map Label.text) ≤ 255 := by
    have hq' := q.short
    have hl : byteLen l.text ≠ 0 := fun h => l.ne_nil (byteLen_eq_zero_iff.mp h)
    rw [hq] at hq'
    simp only [wireLen, List.map_cons, List.sum_cons] at hq' ⊢
    simp only [Label.wildcard, byteLen_cons, byteLen_nil]
    have : ('*' : Char).utf8Size = 1 := by decide
    omega
  obtain ⟨n, hn, hlab⟩ := Option.map_eq_some_iff.mp (Name.parse_labels (by simp) hw)
  rw [wildcardOf, hstr, afterFirstDot_append l.no_dot]
  dsimp only
  rw [hbase, hn, Option.map_some, Option.map_some]
  have hrest : ∀ m ∈ rest, m.toLower = m := fun m hm =>
    Label.toLower_eq_self (q.lower m (by rw [hq]; exact List.mem_cons_of_mem _ hm))
  simp only [LowerName.new, hlab, List.map_cons, List.map_congr_left hrest, List.map_id']
  exact congrArg (some <| · :: rest) (Label.toLower_eq_self (l := Label.wildcard) (by decide))

end Constellation.Dns
