/-!
# Flags

The six flags that may follow a pattern, each written as one letter.  `Flag.all` lists them in
their canonical order, which is independent of the order they are written in.
-/

namespace PatternTree

/-- A flag of a pattern literal. -/
inductive Flag where
  | global
  | ignoreCase
  | multiline
  | dotAll
  | unicode
  | sticky
  deriving DecidableEq, Repr

namespace Flag

/-- The flags in canonical order. -/
def all : List Flag :=
  [global, ignoreCase, multiline, dotAll, unicode, sticky]

/-- The name of the attribute that records a flag. -/
def name : Flag → String
  | global => "global"
  | ignoreCase => "ignoreCase"
  | multiline => "multiline"
  | dotAll => "dotAll"
  | unicode => "unicode"
  | sticky => "sticky"

/-- The letter a flag is written as. -/
def letter : Flag → Char
  | global => 'g'
  | ignoreCase => 'i'
  | multiline => 'm'
  | dotAll => 's'
  | unicode => 'u'
  | sticky => 'y'

/-- The letters of all flags, in canonical order. -/
def letters : List Char :=
  all.map letter

/-- The place of a letter in the canonical order of flags. -/
def index? (c : Char) : Option Nat :=
  letters.findIdx? (· == c)

/-- The letter of a flag is found at the place of the flag. -/
theorem index?_letter {flag : Flag} {index : Nat} (h : all[index]? = some flag) :
    index? flag.letter = some index := by
  have hall : ∀ entry ∈ all.zipIdx, index? entry.1.letter = some entry.2 := by decide
  exact hall (flag, index) (List.mem_zipIdx_iff_getElem?.mpr h)

theorem mem_all (flag : Flag) : flag ∈ all := by
  cases flag <;> simp [all]

/-- Different flags are written differently. -/
theorem letter_injective {a b : Flag} (h : a.letter = b.letter) : a = b := by
  cases a <;> cases b <;> first | rfl | simp [letter] at h

/-- Every letter of a flag is that of the flag at some place. -/
theorem exists_index {c : Char} (h : c ∈ letters) :
    ∃ (index : Nat) (flag : Flag), all[index]? = some flag ∧ flag.letter = c := by
  obtain ⟨flag, hflag, hletter⟩ := List.mem_map.mp h
  obtain ⟨index, hindex⟩ := List.mem_iff_getElem?.mp hflag
  exact ⟨index, flag, hindex, hletter⟩

end Flag

end PatternTree
