import PatternTree.Flag

/-!
# The schema of trees

Every node has a kind.  The kind decides the slots its children may be recorded under, how
often each may be filled, and the attributes it carries.  The tables here are what a builder
checks its input against and what a printer consults to mark repeated slots.
-/

namespace PatternTree

/-- What a node of the tree stands for. -/
inductive NodeKind where
  | pattern
  | flags
  | alternative
  | group
  | capturingGroup
  | startOfInputAssertion
  | endOfInputAssertion
  | wordBoundaryAssertion
  | gap
  | character
  | characterClass
  | characterClassRange
  | anyCharacterSet
  | digitCharacterSet
  | spaceCharacterSet
  | wordCharacterSet
  | quantifier
  | escapeSequence
  | escapeCode
  | unsignedInteger
  | digit
  deriving DecidableEq, Repr

/-- The name of a child position. -/
inductive Slot where
  | openToken
  | alternatives
  | separatorTokens
  | closeToken
  | flags
  | tokens
  | elements
  | sigilToken
  | escapeToken
  | value
  | escape
  | negateToken
  | min
  | max
  | element
  | separator
  | code
  | type
  | digits
  deriving DecidableEq, Repr

/-- How many children a slot holds. -/
inductive Multiplicity where
  | one
  /-- At most one; its absence may be recorded explicitly. -/
  | optional
  | many
  deriving DecidableEq, Repr

/-- The name of an attribute. -/
inductive AttributeName where
  | flag (flag : Flag)
  | negate
  | min
  | max
  | cooked
  deriving DecidableEq, Repr

namespace Slot

def all : List Slot :=
  [openToken, alternatives, separatorTokens, closeToken, flags, tokens, elements, sigilToken,
    escapeToken, value, escape, negateToken, min, max, element, separator, code, type, digits]

/-- The name a slot is printed by. -/
def name : Slot → String
  | openToken => "openToken"
  | alternatives => "alternatives"
  | separatorTokens => "separatorTokens"
  | closeToken => "closeToken"
  | flags => "flags"
  | tokens => "tokens"
  | elements => "elements"
  | sigilToken => "sigilToken"
  | escapeToken => "escapeToken"
  | value => "value"
  | escape => "escape"
  | negateToken => "negateToken"
  | min => "min"
  | max => "max"
  | element => "element"
  | separator => "separator"
  | code => "code"
  | type => "type"
  | digits => "digits"

def ofName? (name : String) : Option Slot :=
  all.find? (·.name == name)

theorem mem_all (slot : Slot) : slot ∈ all := by
  cases slot <;> simp [all]

end Slot

/-- The name a multiplicity is listed by. -/
def Multiplicity.name : Multiplicity → String
  | one => "One"
  | optional => "Optional"
  | many => "Many"

namespace AttributeName

def all : List AttributeName :=
  Flag.all.map flag ++ [negate, min, max, cooked]

/-- The name an attribute is printed by. -/
def name : AttributeName → String
  | flag f => f.name
  | negate => "negate"
  | min => "min"
  | max => "max"
  | cooked => "cooked"

def ofName? (name : String) : Option AttributeName :=
  all.find? (·.name == name)

theorem mem_all (name : AttributeName) : name ∈ all := by
  cases name with
  | flag f => simp [all, Flag.mem_all]
  | _ => simp [all]

end AttributeName

namespace NodeKind

def all : List NodeKind :=
  [pattern, flags, alternative, group, capturingGroup, startOfInputAssertion,
    endOfInputAssertion, wordBoundaryAssertion, gap, character, characterClass,
    characterClassRange, anyCharacterSet, digitCharacterSet, spaceCharacterSet,
    wordCharacterSet, quantifier, escapeSequence, escapeCode, unsignedInteger, digit]

/-- The name a kind of node is printed by. -/
def name : NodeKind → String
  | pattern => "Pattern"
  | flags => "Flags"
  | alternative => "Alternative"
  | group => "Group"
  | capturingGroup => "CapturingGroup"
  | startOfInputAssertion => "StartOfInputAssertion"
  | endOfInputAssertion => "EndOfInputAssertion"
  | wordBoundaryAssertion => "WordBoundaryAssertion"
  | gap => "Gap"
  | character => "Character"
  | characterClass => "CharacterClass"
  | characterClassRange => "CharacterClassRange"
  | anyCharacterSet => "AnyCharacterSet"
  | digitCharacterSet => "DigitCharacterSet"
  | spaceCharacterSet => "SpaceCharacterSet"
  | wordCharacterSet => "WordCharacterSet"
  | quantifier => "Quantifier"
  | escapeSequence => "EscapeSequence"
  | escapeCode => "EscapeCode"
  | unsignedInteger => "UnsignedInteger"
  | digit => "Digit"

def ofName? (name : String) : Option NodeKind :=
  all.find? (·.name == name)

/-- The slots of a kind of node, in source order. -/
def slots : NodeKind → List (Slot × Multiplicity)
  | pattern =>
    [(.openToken, .one), (.alternatives, .many), (.separatorTokens, .many), (.closeToken, .one),
      (.flags, .one)]
  | flags => [(.tokens, .many)]
  | alternative => [(.elements, .many)]
  | group | capturingGroup =>
    [(.openToken, .one), (.alternatives, .many), (.separatorTokens, .many), (.closeToken, .one)]
  | startOfInputAssertion | endOfInputAssertion | anyCharacterSet => [(.sigilToken, .one)]
  | wordBoundaryAssertion | gap | digitCharacterSet | spaceCharacterSet | wordCharacterSet =>
    [(.escapeToken, .one), (.value, .one)]
  | character => [(.value, .optional), (.escape, .optional)]
  | characterClass =>
    [(.openToken, .one), (.negateToken, .optional), (.elements, .many), (.closeToken, .one)]
  | characterClassRange => [(.min, .one), (.sigilToken, .one), (.max, .one)]
  | quantifier =>
    [(.element, .one), (.sigilToken, .optional), (.openToken, .optional), (.min, .optional),
      (.separator, .optional), (.max, .optional), (.closeToken, .optional)]
  | escapeSequence => [(.escape, .one), (.code, .one)]
  | escapeCode =>
    [(.type, .one), (.openToken, .optional), (.value, .one), (.closeToken, .optional)]
  | unsignedInteger => [(.digits, .many)]
  | digit => [(.value, .one)]

/-- How often a slot may be filled in a kind of node, if the kind has the slot at all. -/
def multiplicity? (kind : NodeKind) (slot : Slot) : Option Multiplicity :=
  kind.slots.lookup slot

/-- The attributes of a kind of node, in the order they are recorded in. -/
def attributeNames : NodeKind → List AttributeName
  | flags => Flag.all.map .flag
  | wordBoundaryAssertion | characterClass | digitCharacterSet | spaceCharacterSet
  | wordCharacterSet => [.negate]
  | quantifier => [.min, .max]
  | escapeSequence | escapeCode => [.cooked]
  | _ => []

theorem mem_all (kind : NodeKind) : kind ∈ all := by
  cases kind <;> simp [all]

/-- No kind of node lists a slot twice. -/
theorem slots_nodup (kind : NodeKind) : (kind.slots.map Prod.fst).Nodup := by
  cases kind <;> decide

end NodeKind

end PatternTree
