import PatternTree.Flag
import PatternTree.Region
import PatternTree.Text.Numeral

/-!
# The grammar of pattern literals

A pattern literal is derived from the grammar

    Literal     = '/' Body '/' flags
    Body        = Alternative ('|' Alternative)*
    Alternative = (Atom Quantifier?)*
    Atom        = character | '\' keyword | '^' | '$' | '.'
                | '[' '^'? Unit* ']' | '(?:' Body ')' | '(' Body ')'
    Unit        = character | '\' keyword

where a character is plain or escaped and every region has its own reserved characters, special
characters and keywords.  The types of this file are the derivations of the grammar, one
constructor to a rule; the terminal conditions of a rule are fields of its constructor, so that
only proper derivations can be built.  `text` is what a derivation derives.

Three conditions on derivations cannot be told from a single rule (`Admissible`): no atom without
a quantifier is followed by the beginning of one, no quantifier is followed by bounds in braces,
and groups nest to a limited depth.
-/

namespace PatternTree.Grammar

/-! ## Characters -/

/-- The letters of the fixed escapes. -/
def fixedLetters : List Char := ['\\', '/', 'n', 'r', 't', '0']

/-- The characters that a backslash makes literal in a region. -/
def specials (region : Region) : List Char :=
  region.specials?.getD []

/-- The characters, besides the backslash, that never stand for themselves in a region. -/
def reserved : Region → List Char
  | .pattern => ['/', '|', ')', '(', '[', '^', '$', '.', '*', '+', '?']
  | .characterClass => [']']
  | .escape => []

/-- The letters that name a node of their own when a backslash stands before them. -/
def keywordLetters : Region → List Char
  | .pattern => ['b', 'B', 'g', 'd', 'D', 's', 'S', 'w', 'W']
  | .characterClass => ['d', 'D', 's', 'S', 'w', 'W', 'g']
  | .escape => []

/-- The code of a character behind a backslash. -/
inductive Code where
  /-- `x` and two hexadecimal digits. -/
  | byte (digits : List Char) (hex : digits.all (Numeral.isDigit 16) = true)
      (size : digits.length = 2)
  /-- `u` and four hexadecimal digits. -/
  | quad (digits : List Char) (hex : digits.all (Numeral.isDigit 16) = true)
      (size : digits.length = 4)
  /-- `u` and one to six hexadecimal digits in braces that name a code point. -/
  | braced (digits : List Char) (hex : digits.all (Numeral.isDigit 16) = true)
      (size : 1 ≤ digits.length ∧ digits.length ≤ 6)
      (bounded : Numeral.value 16 digits ≤ 0x10ffff)

/-- The digits of a code. -/
def Code.digits : Code → List Char
  | .byte digits _ _ => digits
  | .quad digits _ _ => digits
  | .braced digits _ _ _ => digits

/-- A code has digits. -/
theorem Code.digits_ne_nil (code : Code) : code.digits ≠ [] := by
  have hpos : 0 < code.digits.length := by
    cases code with
    | byte digits hex size => simp [Code.digits, size]
    | quad digits hex size => simp [Code.digits, size]
    | braced digits hex size bounded => exact size.1
  exact List.length_pos_iff.mp hpos

/-- The text of a code. -/
def Code.text : Code → List Char
  | .byte digits _ _ => 'x' :: digits
  | .quad digits _ _ => 'u' :: digits
  | .braced digits _ _ _ => 'u' :: '{' :: (digits ++ ['}'])

/-- An escape, by what stands behind its backslash. -/
inductive Escape (region : Region) where
  /-- A single character, fixed or special in the region. -/
  | single (c : Char) (known : c ∈ fixedLetters ∨ c ∈ specials region)
  | coded (code : Code)

/-- The text of an escape behind its backslash. -/
def Escape.body {region : Region} : Escape region → List Char
  | .single c _ => [c]
  | .coded code => code.text

/-- The text of an escape. -/
def Escape.text {region : Region} (inner : Escape region) : List Char :=
  '\\' :: inner.body

/-- A character of a region. -/
inductive Character (region : Region) where
  /-- Any character that stands for itself. -/
  | plain (c : Char) (free : c ∉ ['\r', '\n', '\t', '\\'] ∧ c ∉ reserved region)
  | escape (inner : Escape region)

/-- The text of a character. -/
def Character.text {region : Region} : Character region → List Char
  | .plain c _ => [c]
  | .escape inner => inner.text

@[simp] theorem Character.text_plain {region : Region} (c : Char)
    (free : c ∉ ['\r', '\n', '\t', '\\'] ∧ c ∉ reserved region) :
    (Character.plain c free).text = [c] := rfl

@[simp] theorem Character.text_escape {region : Region} (inner : Escape region) :
    (Character.escape inner).text = inner.text := rfl

/-! ## Bracket expressions -/

/-- A unit of a bracket expression. -/
inductive ClassUnit where
  | character (inner : Character .characterClass)
  | keyword (letter : Char) (known : letter ∈ keywordLetters .characterClass)

/-- The text of a unit. -/
def ClassUnit.text : ClassUnit → List Char
  | .character inner => inner.text
  | .keyword letter _ => ['\\', letter]

@[simp] theorem ClassUnit.text_character (inner : Character .characterClass) :
    (ClassUnit.character inner).text = inner.text := rfl

/-- The caret of a negated bracket expression. -/
def caretText (negated : Bool) : List Char :=
  if negated then ['^'] else []

/-- The text of a bracket expression. -/
def classText (negated : Bool) (units : List ClassUnit) : List Char :=
  '[' :: (caretText negated ++ units.flatMap ClassUnit.text ++ [']'])

/-! ## Quantifiers -/

/-- A number of repetitions. -/
structure Count where
  digits : List Char
  nonempty : digits ≠ []
  decimal : digits.all (Numeral.isDigit 10) = true
  bounded : Numeral.value 10 digits < UInt64.size

/-- The number that a count denotes. -/
def Count.value (count : Count) : Nat :=
  Numeral.value 10 count.digits

/-- A quantifier. -/
inductive Quantifier where
  | sigil (c : Char) (known : c ∈ ['*', '+', '?'])
  | exactly (count : Count)
  | atLeast (least : Count)
  | between (least most : Count) (ordered : least.value ≤ most.value)

/-- The text of a quantifier. -/
def Quantifier.text : Quantifier → List Char
  | .sigil c _ => [c]
  | .exactly count => '{' :: (count.digits ++ ['}'])
  | .atLeast least => '{' :: (least.digits ++ [',', '}'])
  | .between least most _ => '{' :: (least.digits ++ ',' :: (most.digits ++ ['}']))

/-- The text of a quantifier that may be missing. -/
def quantifierText (quantifier : Option Quantifier) : List Char :=
  quantifier.elim [] Quantifier.text

/-! ## Atoms -/

/-- An atom of an alternative.  A group holds a first alternative and others behind bars. -/
inductive Atom where
  | character (inner : Character .pattern)
  | keyword (letter : Char) (known : letter ∈ keywordLetters .pattern)
  | sigil (c : Char) (known : c ∈ ['^', '$', '.'])
  | charClass (negated : Bool) (units : List ClassUnit)
  | group (capturing : Bool) (first : List (Atom × Option Quantifier))
      (others : List (List (Atom × Option Quantifier)))

/-- An atom with or without a quantifier. -/
abbrev Item := Atom × Option Quantifier

/-- What opens a group. -/
def opener (capturing : Bool) : List Char :=
  if capturing then ['('] else ['(', '?', ':']

mutual
/-- The text of an atom. -/
def Atom.text : Atom → List Char
  | .character inner => inner.text
  | .keyword letter _ => ['\\', letter]
  | .sigil c _ => [c]
  | .charClass negated units => classText negated units
  | .group capturing first others =>
    opener capturing ++ alternativeText first ++ othersText others ++ [')']
/-- The text of an alternative. -/
def alternativeText : List Item → List Char
  | [] => []
  | (atom, quantifier) :: rest => atom.text ++ quantifierText quantifier ++ alternativeText rest
/-- The text of alternatives behind bars. -/
def othersText : List (List Item) → List Char
  | [] => []
  | alternative :: rest => '|' :: alternativeText alternative ++ othersText rest
end

/-- The text of an atom with its quantifier. -/
def itemText (item : Item) : List Char :=
  item.1.text ++ quantifierText item.2

theorem alternativeText_eq (items : List Item) :
    alternativeText items = items.flatMap itemText := by
  induction items with
  | nil => simp [alternativeText]
  | cons item rest ih =>
      obtain ⟨atom, quantifier⟩ := item
      simp [alternativeText, itemText, ih]

theorem othersText_eq (others : List (List Item)) :
    othersText others = others.flatMap fun alternative => '|' :: alternativeText alternative := by
  induction others with
  | nil => simp [othersText]
  | cons alternative rest ih => simp [othersText, ih]

/-- To show a fact of all atoms, show it of a group whose atoms have it, and of all other
atoms. -/
theorem Atom.induction {motive : Atom → Prop}
    (character : ∀ inner, motive (.character inner))
    (keyword : ∀ letter known, motive (.keyword letter known))
    (sigil : ∀ c known, motive (.sigil c known))
    (charClass : ∀ negated units, motive (.charClass negated units))
    (group : ∀ capturing first others,
      (∀ alternative ∈ first :: others, ∀ item ∈ alternative, motive item.1) →
        motive (.group capturing first others))
    (atom : Atom) : motive atom :=
  @Atom.rec motive
    (fun items => ∀ item ∈ items, motive item.1)
    (fun others => ∀ items ∈ others, ∀ item ∈ items, motive item.1)
    (fun item => motive item.1)
    character keyword sigil charClass
    (fun capturing first others hfirst hothers =>
      group capturing first others (List.forall_mem_cons.mpr ⟨hfirst, hothers⟩))
    (fun _ h => nomatch h)
    (fun _ _ hhead htail => List.forall_mem_cons.mpr ⟨hhead, htail⟩)
    (fun _ h => nomatch h)
    (fun _ _ hhead htail => List.forall_mem_cons.mpr ⟨hhead, htail⟩)
    (fun _ _ hatom => hatom)
    atom

/-! ## Conditions on derivations -/

/-- Whether a text begins with bounds in braces. -/
def beginsBounds : List Char → Bool
  | '{' :: c :: _ => Numeral.isDigit 10 c
  | _ => false

/-- An item may stand before a text: an atom without a quantifier not before the beginning of
one, and a quantifier not before bounds in braces. -/
def Joins (item : Item) (rest : List Char) : Prop :=
  match item.2 with
  | none => ∀ c ∈ rest.head?, c ∉ ['*', '+', '?', '{']
  | some _ => beginsBounds rest = false

/-- Every item of an alternative may stand before the next one. -/
def Seamless : List Item → Prop
  | [] => True
  | item :: rest => Joins item (alternativeText rest) ∧ Seamless rest

/-- Groups nest to at most the given number of levels, and the alternatives in them are
seamless. -/
def Atom.Admissible : Nat → Atom → Prop
  | levels + 1, .group _ first others =>
    ∀ alternative ∈ first :: others,
      Seamless alternative ∧ ∀ item ∈ alternative, item.1.Admissible levels
  | 0, .group .. => False
  | _, _ => True

section Admissible

variable {levels : Nat}

@[simp] theorem Atom.admissible_character {inner : Character .pattern} :
    (Atom.character inner).Admissible levels := by
  simp [Atom.Admissible]

@[simp] theorem Atom.admissible_keyword {letter : Char}
    {known : letter ∈ keywordLetters .pattern} :
    (Atom.keyword letter known).Admissible levels := by
  simp [Atom.Admissible]

@[simp] theorem Atom.admissible_sigil {c : Char} {known : c ∈ ['^', '$', '.']} :
    (Atom.sigil c known).Admissible levels := by
  simp [Atom.Admissible]

@[simp] theorem Atom.admissible_charClass {negated : Bool} {units : List ClassUnit} :
    (Atom.charClass negated units).Admissible levels := by
  simp [Atom.Admissible]

end Admissible

/-- An alternative is seamless, and the groups in it nest to at most the given number of
levels. -/
def AdmissibleAlternative (levels : Nat) (alternative : List Item) : Prop :=
  Seamless alternative ∧ ∀ item ∈ alternative, item.1.Admissible levels

/-! ## Literals -/

/-- A pattern literal. -/
structure Literal where
  first : List Item
  others : List (List Item)
  flags : List Char
  known : ∀ c ∈ flags, c ∈ ['g', 'i', 'm', 's', 'u', 'y']
  distinct : flags.Nodup

/-- The text of a pattern literal. -/
def Literal.text (literal : Literal) : List Char :=
  '/' :: (alternativeText literal.first ++ othersText literal.others ++ '/' :: literal.flags)

/-- All alternatives are seamless, and groups nest to at most 64 levels. -/
def Literal.Admissible (literal : Literal) : Prop :=
  ∀ alternative ∈ literal.first :: literal.others, AdmissibleAlternative 64 alternative

end PatternTree.Grammar
