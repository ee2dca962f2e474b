import Mathlib.Data.Nat.Init
import PatternTree.Escape
import PatternTree.Production.Flags
import PatternTree.Production.Quantifier
import PatternTree.Proofs.Grammar.Basic
import PatternTree.Proofs.Layout

/-!
# The trees of derivations

Every derivation of the grammar has a tree.  The trees here have not been laid out yet; their
spans say nothing until `Node.place` puts them at a position.  The tree of a derivation is
spelled like the derivation itself, from the smallest parts (`Escape.sourceText_tree`) up to
whole literals (`Literal.sourceText_tree`).

The units of a bracket expression are paired into ranges from left to right (`pair`), and a
caret right behind the bracket negates the expression even where the grammar would allow it to
stand for itself (`caret`).
-/

namespace PatternTree.Grammar

/-! ## Characters -/

/-- The number that a code denotes. -/
def Code.value (code : Code) : Nat :=
  Numeral.value 16 code.digits

/-- The letter in front of a code. -/
def Code.letter : Code → Char
  | .byte .. => 'x'
  | .quad .. => 'u'
  | .braced .. => 'u'

/-- A code begins with its letter. -/
theorem Code.text_eq_cons (code : Code) : ∃ text, code.text = code.letter :: text := by
  cases code <;> exact ⟨_, rfl⟩

theorem Code.letter_mem (code : Code) : code.letter ∈ PatternTree.Escape.codeLetters := by
  cases code <;> simp [Code.letter, PatternTree.Escape.codeLetters]

/-- The children that record the digits of a code. -/
def Code.digitProperties : Code → List Property
  | .byte digits _ _ =>
    [(.openToken, .null), (.value, .token (.bare .literal digits)), (.closeToken, .null)]
  | .quad digits _ _ =>
    [(.openToken, .null), (.value, .token (.bare .literal digits)), (.closeToken, .null)]
  | .braced digits _ _ _ =>
    [(.openToken, .token (.bare .punctuator ['{'])), (.value, .token (.bare .literal digits)),
      (.closeToken, .token (.bare .punctuator ['}']))]

/-- The tree of a code. -/
def Code.tree (code : Code) : Node :=
  .bare .escapeCode [(.cooked, .text (Numeral.decimal code.value))]
    ((.type, .token (.bare .keyword [code.letter])) :: code.digitProperties)

@[simp] theorem Code.sourceText_tree (code : Code) : code.tree.sourceText = code.text := by
  cases code <;> simp [Code.tree, Code.letter, Code.digitProperties, Code.text]

/-- What an escape denotes: a character, or the number of a code in decimal. -/
def Escape.cooked {region : Region} : Escape region → List Char
  | .single c _ => [(Escape.fixed? c).getD c]
  | .coded code => Numeral.decimal code.value

/-- What records the part of an escape behind its backslash. -/
def Escape.child {region : Region} : Escape region → Child Node
  | .single c _ => .token { Token.bare .keyword [c] with closeRegion := some .escape }
  | .coded code => .node code.tree

/-- The tree of an escape. -/
def Escape.tree {region : Region} (inner : Escape region) : Node :=
  .bare .escapeSequence [(.cooked, .text inner.cooked)]
    [(.escape, .token { Token.bare .punctuator ['\\'] with openRegion := some .escape }),
      (.code, inner.child)]

@[simp] theorem Escape.sourceText_tree {region : Region} (inner : Escape region) :
    inner.tree.sourceText = inner.text := by
  cases inner <;> simp [Escape.tree, Escape.child, Escape.text, Escape.body]

/-- The tree of a character. -/
def Character.tree {region : Region} : Character region → Node
  | .plain c _ => .bare .character [] [(.value, .token (.bare .literal [c]))]
  | .escape inner => .bare .character [] [(.escape, .node inner.tree)]

@[simp] theorem Character.sourceText_tree {region : Region} (inner : Character region) :
    inner.tree.sourceText = inner.text := by
  cases inner <;> simp [Character.tree]

/-- The kind of node that a letter names. -/
def keywordKind (letter : Char) : NodeKind :=
  if letter ∈ ['b', 'B'] then .wordBoundaryAssertion
  else if letter = 'g' then .gap
  else if letter ∈ ['d', 'D'] then .digitCharacterSet
  else if letter ∈ ['s', 'S'] then .spaceCharacterSet
  else .wordCharacterSet

/-- The tree of a keyword.  Where a kind of node can be negated, an upper-case letter negates
it. -/
def keywordTree (letter : Char) : Node :=
  .bare (keywordKind letter)
    (if AttributeName.negate ∈ (keywordKind letter).attributeNames then
      [(.negate, .bool letter.isUpper)] else [])
    [(.escapeToken, .token (.bare .punctuator ['\\'])), (.value, .token (.bare .keyword [letter]))]

@[simp] theorem sourceText_keywordTree (letter : Char) :
    (keywordTree letter).sourceText = ['\\', letter] := by
  simp [keywordTree]

/-! ## Bracket expressions -/

/-- The tree of a unit. -/
def ClassUnit.tree : ClassUnit → Node
  | .character inner => inner.tree
  | .keyword letter _ => keywordTree letter

@[simp] theorem ClassUnit.sourceText_tree (unit : ClassUnit) :
    unit.tree.sourceText = unit.text := by
  cases unit <;> simp [ClassUnit.tree, ClassUnit.text]

/-- An element of a bracket expression. -/
inductive ClassElement where
  | unit (inner : ClassUnit)
  | range (lower upper : Character .characterClass)

/-- The text of an element. -/
def ClassElement.text : ClassElement → List Char
  | .unit inner => inner.text
  | .range lower upper => lower.text ++ '-' :: upper.text

/-- The tree of an element. -/
def ClassElement.tree : ClassElement → Node
  | .unit inner => inner.tree
  | .range lower upper =>
    .bare .characterClassRange []
      [(.min, .node lower.tree), (.sigilToken, .token (.bare .punctuator ['-'])),
        (.max, .node upper.tree)]

@[simp] theorem ClassElement.sourceText_tree (element : ClassElement) :
    element.tree.sourceText = element.text := by
  cases element <;> simp [ClassElement.tree, ClassElement.text]

/-- The elements that a list of units makes: from left to right, a hyphen between two characters
makes a range. -/
def pair : List ClassUnit → List ClassElement
  | .character lower :: .character (.plain '-' _) :: .character upper :: rest =>
    .range lower upper :: pair rest
  | unit :: rest => .unit unit :: pair rest
  | [] => []

/-- Whether a bracket expression is negated and the units that it lists: a caret in front of
them negates it. -/
def caret : Bool → List ClassUnit → Bool × List ClassUnit
  | false, .character (.plain '^' _) :: rest => (true, rest)
  | negated, units => (negated, units)

/-- The children that record the elements of a bracket expression. -/
def elementProperties (elements : List ClassElement) : List Property :=
  elements.map fun element => (.elements, .node element.tree)

/-- The child that records the mark of a negated bracket expression. -/
def caretChild (negated : Bool) : Child Node :=
  .ofToken? (if negated then some (.bare .keyword ['^']) else none)

/-- The tree of a bracket expression. -/
def classTree (negated : Bool) (units : List ClassUnit) : Node :=
  .bare .characterClass [(.negate, .bool (caret negated units).1)]
    ((.openToken, .token (.opening ['['] ']' (some .characterClass)))
      :: (.negateToken, caretChild (caret negated units).1)
      :: elementProperties (pair (caret negated units).2)
      ++ [(.closeToken, .token (.closing ']'))])

@[simp] theorem spell_elementProperties (elements : List ClassElement) :
    Node.spell (elementProperties elements) = elements.flatMap ClassElement.text := by
  induction elements with
  | nil => rfl
  | cons element rest ih => simpa [elementProperties] using ih

@[simp] theorem spell_caretChild (slot : Slot) (negated : Bool) (rest : List Property) :
    Node.spell ((slot, caretChild negated) :: rest) = caretText negated ++ Node.spell rest := by
  cases negated <;> simp [caretChild, caretText, Child.ofToken?]

/-- Pairing loses nothing of the text. -/
theorem text_pair (units : List ClassUnit) :
    (pair units).flatMap ClassElement.text = units.flatMap ClassUnit.text := by
  fun_induction pair units with
  | case1 lower _ upper rest ih =>
      simp [ClassElement.text, ih]
  | case2 unit rest _ ih => simp [ClassElement.text, ih]
  | case3 => rfl

/-- A caret is the same text whether it is a mark or a unit. -/
theorem text_caret (negated : Bool) (units : List ClassUnit) :
    caretText (caret negated units).1 ++ (caret negated units).2.flatMap ClassUnit.text
      = caretText negated ++ units.flatMap ClassUnit.text := by
  unfold caret
  split <;> simp [caretText]

@[simp] theorem sourceText_classTree (negated : Bool) (units : List ClassUnit) :
    (classTree negated units).sourceText = classText negated units := by
  have hcaret := text_caret negated units
  simp only [classTree, classText, Node.sourceText_bare, Node.spell_token, Node.spell_append,
    spell_caretChild, spell_elementProperties, text_pair, List.cons_append]
  simp only [Token.opening_text, Token.closing_text, Node.spell_nil, ← hcaret]
  simp

/-! ## Quantifiers -/

/-- The tree of a digit. -/
def digitTree (c : Char) : Node :=
  .bare .digit [] [(.value, .token (.bare .literal [c]))]

/-- The children that record the digits of a number. -/
def digitsProperties (digits : List Char) : List Property :=
  digits.map fun c => (.digits, .node (digitTree c))

/-- The tree of a count. -/
def Count.tree (count : Count) : Node :=
  .bare .unsignedInteger [] (digitsProperties count.digits)

@[simp] theorem spell_digitsProperties (digits : List Char) :
    Node.spell (digitsProperties digits) = digits := by
  induction digits with
  | nil => rfl
  | cons c rest ih => simpa [digitsProperties, digitTree] using ih

@[simp] theorem Count.sourceText_tree (count : Count) : count.tree.sourceText = count.digits := by
  simp [Count.tree]

/-- The bounds that a quantifier stands for. -/
def Quantifier.bounds : Quantifier → Bounds
  | .sigil c _ => Production.sigilBounds [c]
  | .exactly count => ⟨count.value, some count.value⟩
  | .atLeast least => ⟨least.value, none⟩
  | .between least most _ => ⟨least.value, some most.value⟩

/-- The children that record bounds in braces. -/
def bracedProperties (least : Count) (upper : List Property) : List Property :=
  (.openToken, .token (.opening ['{'] '}' none)) :: (.min, .node least.tree)
    :: upper ++ [(.closeToken, .token (.closing '}'))]

/-- The children that record a quantifier behind its element. -/
def Quantifier.properties : Quantifier → List Property
  | .sigil c _ => [(.sigilToken, .token (.bare .keyword [c]))]
  | .exactly count => bracedProperties count [(.separator, .null), (.max, .null)]
  | .atLeast least =>
    bracedProperties least [(.separator, .token (.bare .punctuator [','])), (.max, .null)]
  | .between least most _ =>
    bracedProperties least
      [(.separator, .token (.bare .punctuator [','])), (.max, .node most.tree)]

@[simp] theorem Quantifier.spell_properties (quantifier : Quantifier) :
    Node.spell quantifier.properties = quantifier.text := by
  cases quantifier <;> simp [Quantifier.properties, Quantifier.text, bracedProperties]

/-- The tree of an element under a quantifier that may be missing. -/
def quantifiedTree (element : Node) : Option Quantifier → Node
  | none => element
  | some quantifier =>
    .bare .quantifier quantifier.bounds.attributes
      ((.element, .node element) :: quantifier.properties)

@[simp] theorem sourceText_quantifiedTree (element : Node) (quantifier : Option Quantifier) :
    (quantifiedTree element quantifier).sourceText
      = element.sourceText ++ quantifierText quantifier := by
  cases quantifier <;> simp [quantifiedTree, quantifierText]

/-! ## Atoms -/

/-- The kind of node of a sigil. -/
def sigilKind (c : Char) : NodeKind :=
  if c = '^' then .startOfInputAssertion
  else if c = '$' then .endOfInputAssertion
  else .anyCharacterSet

/-- The kind of node of a group. -/
def groupKind (capturing : Bool) : NodeKind :=
  if capturing then .capturingGroup else .group

mutual
/-- The tree of an atom. -/
def Atom.tree : Atom → Node
  | .character inner => inner.tree
  | .keyword letter _ => keywordTree letter
  | .sigil c _ => .bare (sigilKind c) [] [(.sigilToken, .token (.bare .keyword [c]))]
  | .charClass negated units => classTree negated units
  | .group capturing first others =>
    .bare (groupKind capturing) []
      ((.openToken, .token (.opening (opener capturing) ')' none))
        :: (.alternatives, .node (.bare .alternative [] (itemProperties first)))
        :: otherProperties others ++ [(.closeToken, .token (.closing ')'))])
/-- The children that record the items of an alternative. -/
def itemProperties : List Item → List Property
  | [] => []
  | (atom, quantifier) :: rest =>
    (.elements, .node (quantifiedTree atom.tree quantifier)) :: itemProperties rest
/-- The children that record alternatives behind bars. -/
def otherProperties : List (List Item) → List Property
  | [] => []
  | alternative :: rest =>
    (.separatorTokens, .token (.bare .punctuator ['|']))
      :: (.alternatives, .node (.bare .alternative [] (itemProperties alternative)))
      :: otherProperties rest
end

/-- The tree of an item. -/
def itemTree (item : Item) : Node :=
  quantifiedTree item.1.tree item.2

/-- The tree of an alternative. -/
def alternativeTree (items : List Item) : Node :=
  .bare .alternative [] (itemProperties items)

/-- The children that record a body: a first alternative and others behind bars. -/
def bodyProperties (first : List Item) (others : List (List Item)) : List Property :=
  (.alternatives, .node (alternativeTree first)) :: otherProperties others

/-- A group is its body between parentheses. -/
theorem Atom.tree_group (capturing : Bool) (first : List Item) (others : List (List Item)) :
    (Atom.group capturing first others).tree
      = .bare (groupKind capturing) []
        ((.openToken, .token (.opening (opener capturing) ')' none))
          :: (bodyProperties first others ++ [(.closeToken, .token (.closing ')'))])) := by
  rw [Atom.tree]
  rfl

theorem itemProperties_eq (items : List Item) :
    itemProperties items = items.map fun item => (.elements, .node (itemTree item)) := by
  induction items with
  | nil => simp [itemProperties]
  | cons item rest ih =>
      obtain ⟨atom, quantifier⟩ := item
      simp [itemProperties, itemTree, ih]

theorem otherProperties_eq (others : List (List Item)) :
    otherProperties others = others.flatMap fun alternative =>
      [(.separatorTokens, .token (.bare .punctuator ['|'])),
        (.alternatives, .node (alternativeTree alternative))] := by
  induction others with
  | nil => simp [otherProperties]
  | cons alternative rest ih => simp [otherProperties, alternativeTree, ih]

mutual
/-- The tree of an atom is spelled like the atom. -/
theorem Atom.sourceText_tree : ∀ atom : Atom, atom.tree.sourceText = atom.text
  | .character inner => by simp [Atom.tree, Atom.text]
  | .keyword letter _ => by simp [Atom.tree, Atom.text]
  | .sigil c _ => by simp [Atom.tree, Atom.text]
  | .charClass negated units => by simp [Atom.tree, Atom.text]
  | .group capturing first others => by
      simp [Atom.tree, Atom.text, spell_itemProperties first, spell_otherProperties others]
/-- The children that record items are spelled like the items. -/
theorem spell_itemProperties : ∀ items : List Item,
    Node.spell (itemProperties items) = alternativeText items
  | [] => by simp [itemProperties, alternativeText]
  | (atom, quantifier) :: rest => by
      simp [itemProperties, alternativeText, Atom.sourceText_tree atom, spell_itemProperties rest]
/-- The children that record alternatives behind bars are spelled like them. -/
theorem spell_otherProperties : ∀ others : List (List Item),
    Node.spell (otherProperties others) = othersText others
  | [] => by simp [otherProperties, othersText]
  | alternative :: rest => by
      simp [otherProperties, othersText, spell_itemProperties alternative,
        spell_otherProperties rest]
end

attribute [simp] Atom.sourceText_tree spell_itemProperties spell_otherProperties

@[simp] theorem sourceText_itemTree (item : Item) : (itemTree item).sourceText = itemText item := by
  simp [itemTree, itemText]

@[simp] theorem sourceText_alternativeTree (items : List Item) :
    (alternativeTree items).sourceText = alternativeText items := by
  simp [alternativeTree]

@[simp] theorem spell_bodyProperties (first : List Item) (others : List (List Item)) :
    Node.spell (bodyProperties first others) = alternativeText first ++ othersText others := by
  simp [bodyProperties]

/-! ## Literals -/

/-- What letters set the flags to. -/
def flagSettings (letters : List Char) : List (AttributeName × Attribute) :=
  Flag.all.map fun flag => (.flag flag, .bool (letters.contains flag.letter))

/-- The tree of flags. -/
def flagsTree (letters : List Char) : Node :=
  .bare .flags (flagSettings letters)
    (letters.map fun c => (.tokens, .token (.bare .keyword [c])))

@[simp] theorem sourceText_flagsTree (letters : List Char) :
    (flagsTree letters).sourceText = letters := by
  rw [flagsTree, Node.sourceText_bare]
  induction letters with
  | nil => rfl
  | cons c rest ih => simpa using ih

/-- The tree of a pattern literal. -/
def Literal.tree (literal : Literal) : Node :=
  .bare .pattern []
    ((.openToken, .token (.opening ['/'] '/' (some .pattern)))
      :: bodyProperties literal.first literal.others
      ++ [(.closeToken, .token (.closing '/')), (.flags, .node (flagsTree literal.flags))])

/-- The children of a pattern literal in front of its flags. -/
def slashedProperties (first : List Item) (others : List (List Item)) : List Property :=
  (.openToken, .token (.opening ['/'] '/' (some .pattern)))
    :: bodyProperties first others ++ [(.closeToken, .token (.closing '/'))]

theorem Literal.properties_tree (literal : Literal) :
    literal.tree.properties = slashedProperties literal.first literal.others
      ++ [(.flags, .node (flagsTree literal.flags))] := by
  simp [Literal.tree, slashedProperties]

/-- There are no flags in front of the flags. -/
theorem slot_ne_flags {first : List Item} {others : List (List Item)} {start : Nat}
    {property : Property}
    (h : property ∈ Node.placeAll start (slashedProperties first others)) :
    property.1 ≠ .flags := by
  obtain ⟨original, horiginal, heq⟩ := Node.exists_slot_of_mem_placeAll h
  have hslot := List.mem_map_of_mem (f := Prod.fst) horiginal
  rw [heq] at hslot
  intro hflags
  rw [hflags] at hslot
  simp [slashedProperties, bodyProperties, otherProperties_eq] at hslot

@[simp] theorem Literal.sourceText_tree (literal : Literal) :
    literal.tree.sourceText = literal.text := by
  simp [Literal.tree, Literal.text]

end PatternTree.Grammar
