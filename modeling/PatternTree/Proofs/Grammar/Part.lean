import PatternTree.Proofs.Grammar.Tree

/-!
# The parts of trees

Whatever the tree of an admissible derivation contains is the tree of some part of the
derivation, and a part of an admissible derivation is admissible (`Literal.part_of_contains`).
So a fact about all nodes of all trees has to be shown for one tree to each rule of the grammar
only.
-/

namespace PatternTree.Grammar

/-- An atom that needs a number of levels has room in more of them. -/
theorem Atom.Admissible.mono {atom : Atom} {levels more : Nat} (h : atom.Admissible levels)
    (hle : levels ≤ more) : atom.Admissible more := by
  induction atom using Atom.induction generalizing levels more with
  | character inner => exact Atom.admissible_character
  | keyword letter known => exact Atom.admissible_keyword
  | sigil c known => exact Atom.admissible_sigil
  | charClass negated units => exact Atom.admissible_charClass
  | group capturing first others ih =>
      cases levels with
      | zero => simp [Atom.Admissible] at h
      | succ levels =>
          cases more with
          | zero => omega
          | succ more =>
              rw [Atom.Admissible] at h ⊢
              intro alternative hmem
              obtain ⟨hseamless, hatoms⟩ := h alternative hmem
              exact ⟨hseamless, fun item hitem =>
                ih alternative hmem item hitem (hatoms item hitem) (by omega)⟩

/-- An alternative inside a group has room in the levels of the group. -/
theorem AdmissibleAlternative.mono {items : List Item} {levels more : Nat}
    (h : AdmissibleAlternative levels items) (hle : levels ≤ more) :
    AdmissibleAlternative more items :=
  ⟨h.1, fun item hitem => (h.2 item hitem).mono hle⟩

/-- The trees of the parts of an admissible derivation. -/
inductive Part : Node → Prop where
  | literal (inner : Literal) (admissible : inner.Admissible) : Part inner.tree
  | flags (letters : List Char) : Part (flagsTree letters)
  | alternative (items : List Item) (admissible : AdmissibleAlternative 64 items) :
      Part (alternativeTree items)
  | item (inner : Item) (admissible : inner.1.Admissible 64) : Part (itemTree inner)
  | classElement (inner : ClassElement) : Part inner.tree
  | character {region : Region} (inner : Character region) : Part inner.tree
  | escape {region : Region} (inner : Escape region) : Part inner.tree
  | code (inner : Code) : Part inner.tree
  | count (inner : Count) : Part inner.tree
  | digit (c : Char) : Part (digitTree c)

/-- A node among the children that record a body is the tree of an alternative. -/
theorem mem_bodyProperties {first : List Item} {others : List (List Item)} {slot : Slot}
    {child : Node} (h : (slot, .node child) ∈ bodyProperties first others) :
    slot = .alternatives ∧ ∃ items ∈ first :: others, child = alternativeTree items := by
  rw [bodyProperties, otherProperties_eq] at h
  simp only [List.mem_cons, Prod.mk.injEq, Child.node.injEq, List.mem_flatMap, reduceCtorEq,
    and_false, List.not_mem_nil, or_false, false_or] at h
  rcases h with ⟨rfl, rfl⟩ | ⟨items, hitems, rfl, rfl⟩
  · exact ⟨rfl, first, List.mem_cons_self, rfl⟩
  · exact ⟨rfl, items, List.mem_cons_of_mem first hitems, rfl⟩

/-- The children of an alternative are its items. -/
theorem mem_itemProperties {items : List Item} {slot : Slot} {child : Node}
    (h : (slot, .node child) ∈ itemProperties items) :
    slot = .elements ∧ ∃ item ∈ items, child = itemTree item := by
  rw [itemProperties_eq, List.mem_map] at h
  obtain ⟨item, hitem, heq⟩ := h
  simp only [Prod.mk.injEq, Child.node.injEq] at heq
  exact ⟨heq.1.symm, item, hitem, heq.2.symm⟩

/-- The nodes that record the bounds of a quantifier are numbers. -/
theorem Quantifier.mem_properties {quantifier : Quantifier} {slot : Slot} {child : Node}
    (h : (slot, .node child) ∈ quantifier.properties) :
    (slot = .min ∨ slot = .max) ∧ ∃ count : Count, child = count.tree := by
  cases quantifier <;>
    simp [Quantifier.properties, bracedProperties] at h
  · exact ⟨.inl h.1, _, h.2⟩
  · exact ⟨.inl h.1, _, h.2⟩
  · rcases h with h | h
    · exact ⟨.inl h.1, _, h.2⟩
    · exact ⟨.inr h.1, _, h.2⟩

/-- The element of a bracket expression is recorded under its slot. -/
theorem mem_classTree {negated : Bool} {units : List ClassUnit} {slot : Slot} {child : Node}
    (h : (slot, .node child) ∈ (classTree negated units).properties) :
    slot = .elements ∧ ∃ element : ClassElement, child = element.tree := by
  have hcaret : ∀ mark, (slot, .node child) ≠ (Slot.negateToken, caretChild mark) := by
    intro mark heq
    cases mark <;> simp [caretChild, Child.ofToken?] at heq
  simp only [classTree, Node.bare_properties, elementProperties, List.cons_append, List.mem_cons,
    List.mem_append, List.mem_map, Prod.mk.injEq, Child.node.injEq, reduceCtorEq, and_false,
    List.not_mem_nil, or_false, false_or] at h
  rcases h with h | ⟨element, -, rfl, rfl⟩
  · exact absurd (Prod.ext h.1 h.2) (hcaret _)
  · exact ⟨rfl, element, rfl⟩

/-- The children of a group are its body between parentheses. -/
theorem mem_groupTree {capturing : Bool} {first : List Item} {others : List (List Item)}
    {slot : Slot} {child : Node}
    (h : (slot, .node child) ∈ (Atom.group capturing first others).tree.properties) :
    slot = .alternatives ∧ ∃ items ∈ first :: others, child = alternativeTree items := by
  simp only [Atom.tree_group, Node.bare_properties, List.mem_cons, List.mem_append, Prod.mk.injEq,
    reduceCtorEq, and_false, List.not_mem_nil, or_false, false_or] at h
  exact mem_bodyProperties h

/-- The children of a pattern literal are its body and its flags. -/
theorem Literal.mem_tree {literal : Literal} {slot : Slot} {child : Node}
    (h : (slot, .node child) ∈ literal.tree.properties) :
    (slot = .alternatives ∧ ∃ items ∈ literal.first :: literal.others,
      child = alternativeTree items) ∨ (slot = .flags ∧ child = flagsTree literal.flags) := by
  simp only [Literal.tree, Node.bare_properties, List.cons_append, List.mem_cons, List.mem_append,
    Prod.mk.injEq, Child.node.injEq, reduceCtorEq, and_false, List.not_mem_nil, or_false,
    false_or] at h
  rcases h with h | h
  · exact .inl (mem_bodyProperties h)
  · exact .inr h

/-- A child of a character is an escape. -/
theorem Character.mem_tree {region : Region} {inner : Character region} {slot : Slot}
    {child : Node} (h : (slot, .node child) ∈ inner.tree.properties) :
    slot = .escape ∧ ∃ escape : Escape region, child = escape.tree := by
  cases inner with
  | plain c free => simp [Character.tree] at h
  | escape escape =>
      simp only [Character.tree, Node.bare_properties, List.mem_singleton, Prod.mk.injEq,
        Child.node.injEq] at h
      exact ⟨h.1, escape, h.2⟩

theorem not_mem_keywordTree {letter : Char} {slot : Slot} {child : Node} :
    (slot, .node child) ∉ (keywordTree letter).properties := by
  simp [keywordTree]

/-- A child of an element of a bracket expression is a character or an escape. -/
theorem ClassElement.part_of_mem {element : ClassElement} {slot : Slot} {child : Node}
    (h : (slot, .node child) ∈ element.tree.properties) : Part child := by
  cases element with
  | unit inner =>
      cases inner with
      | character inner =>
          obtain ⟨-, escape, rfl⟩ := inner.mem_tree h
          exact .escape escape
      | keyword letter known => exact absurd h not_mem_keywordTree
  | range lower upper =>
      simp only [ClassElement.tree, Node.bare_properties, List.mem_cons, Prod.mk.injEq,
        Child.node.injEq, reduceCtorEq, and_false, List.not_mem_nil, or_false, false_or] at h
      rcases h with ⟨-, rfl⟩ | ⟨-, rfl⟩
      · exact .character lower
      · exact .character upper

/-- A child of an admissible atom is a part. -/
theorem Atom.part_of_mem {atom : Atom} {slot : Slot} {child : Node}
    (admissible : atom.Admissible 64) (h : (slot, .node child) ∈ atom.tree.properties) :
    Part child := by
  cases atom with
  | character inner =>
      rw [Atom.tree] at h
      obtain ⟨-, escape, rfl⟩ := inner.mem_tree h
      exact .escape escape
  | keyword letter known =>
      rw [Atom.tree] at h
      exact absurd h not_mem_keywordTree
  | sigil c known => simp [Atom.tree] at h
  | charClass negated units =>
      rw [Atom.tree] at h
      obtain ⟨-, element, rfl⟩ := mem_classTree h
      exact .classElement element
  | group capturing first others =>
      obtain ⟨-, items, hitems, rfl⟩ := mem_groupTree h
      rw [Atom.Admissible] at admissible
      have hitems' : AdmissibleAlternative 63 items := admissible items hitems
      exact .alternative items (hitems'.mono (by omega))

/-- What a part contains next is a part. -/
theorem Part.child {node child : Node} {slot : Slot} (h : Part node)
    (recorded : (slot, .node child) ∈ node.properties) : Part child := by
  cases h with
  | literal inner admissible =>
      rcases inner.mem_tree recorded with ⟨-, items, hitems, rfl⟩ | ⟨-, rfl⟩
      · exact .alternative items (admissible items hitems)
      · exact .flags inner.flags
  | flags letters => simp [flagsTree] at recorded
  | alternative items admissible =>
      obtain ⟨-, item, hitem, rfl⟩ := mem_itemProperties recorded
      exact .item item (admissible.2 item hitem)
  | item inner admissible =>
      obtain ⟨atom, quantifier⟩ := inner
      cases quantifier with
      | none => exact atom.part_of_mem admissible recorded
      | some quantifier =>
          rcases List.mem_cons.mp recorded with heq | hmem
          · simp only [Prod.mk.injEq, Child.node.injEq] at heq
            rw [heq.2]
            exact .item (atom, none) admissible
          · obtain ⟨-, count, rfl⟩ := quantifier.mem_properties hmem
            exact .count count
  | classElement inner => exact inner.part_of_mem recorded
  | character inner =>
      obtain ⟨-, escape, rfl⟩ := inner.mem_tree recorded
      exact .escape escape
  | escape inner =>
      cases inner with
      | single c known => simp [Escape.tree, Escape.child] at recorded
      | coded code =>
          simp only [Escape.tree, Escape.child, Node.bare_properties, List.mem_cons,
            Prod.mk.injEq, Child.node.injEq, reduceCtorEq, and_false, List.not_mem_nil, or_false,
            false_or] at recorded
          rw [recorded.2]
          exact .code code
  | code inner => cases inner <;> simp [Code.tree, Code.digitProperties] at recorded
  | count inner =>
      simp only [Count.tree, Node.bare_properties, digitsProperties, List.mem_map, Prod.mk.injEq,
        Child.node.injEq] at recorded
      obtain ⟨c, -, -, rfl⟩ := recorded
      exact .digit c
  | digit c => simp [digitTree] at recorded

/-- Whatever a part contains is a part. -/
theorem Part.of_contains {root node : Node} (h : Part root) (below : root.Contains node) :
    Part node := by
  induction below with
  | self => exact h
  | step _ recorded ih => exact ih.child recorded

/-- **Whatever the tree of an admissible literal contains is the tree of a part of it.** -/
theorem Literal.part_of_contains {literal : Literal} {node : Node}
    (admissible : literal.Admissible) (h : literal.tree.Contains node) : Part node :=
  (Part.literal literal admissible).of_contains h

/-! ## Kinds -/

/-- The kinds of node that atoms are. -/
def atomKinds : List NodeKind :=
  [.characterClass, .group, .capturingGroup, .startOfInputAssertion, .endOfInputAssertion,
    .wordBoundaryAssertion, .gap, .anyCharacterSet, .digitCharacterSet, .spaceCharacterSet,
    .wordCharacterSet, .character]

/-- The kinds of node that the elements of a bracket expression are. -/
def classElementKinds : List NodeKind :=
  [.character, .characterClassRange, .gap, .digitCharacterSet, .spaceCharacterSet,
    .wordCharacterSet]

theorem Character.kind_tree {region : Region} (inner : Character region) :
    inner.tree.kind = .character := by
  cases inner <;> rfl

theorem keywordKind_mem_atomKinds (letter : Char) : keywordKind letter ∈ atomKinds := by
  unfold keywordKind
  repeat' split
  all_goals decide

theorem Atom.kind_mem (atom : Atom) : atom.tree.kind ∈ atomKinds := by
  cases atom with
  | character inner =>
      rw [Atom.tree, inner.kind_tree]
      decide
  | keyword letter known =>
      rw [Atom.tree]
      exact keywordKind_mem_atomKinds letter
  | sigil c known =>
      rw [Atom.tree, Node.bare_kind, sigilKind]
      repeat' split
      all_goals decide
  | charClass negated units =>
      rw [Atom.tree]
      exact List.mem_cons_self
  | group capturing first others =>
      rw [Atom.tree, Node.bare_kind]
      cases capturing <;> decide

/-- An item is an atom or a quantifier. -/
theorem kind_itemTree_mem (item : Item) : (itemTree item).kind ∈ .quantifier :: atomKinds := by
  obtain ⟨atom, quantifier⟩ := item
  cases quantifier with
  | none => exact List.mem_cons_of_mem _ atom.kind_mem
  | some quantifier => exact List.mem_cons_self

theorem ClassElement.kind_mem (element : ClassElement) :
    element.tree.kind ∈ classElementKinds := by
  cases element with
  | range lower upper => exact List.mem_cons_of_mem _ List.mem_cons_self
  | unit inner =>
      cases inner with
      | character inner =>
          rw [ClassElement.tree, ClassUnit.tree, inner.kind_tree]
          exact List.mem_cons_self
      | keyword letter known =>
          rw [ClassElement.tree, ClassUnit.tree, keywordTree, Node.bare_kind]
          simp only [keywordLetters, List.mem_cons, List.not_mem_nil, or_false] at known
          rcases known with rfl | rfl | rfl | rfl | rfl | rfl | rfl <;> decide

/-- A part that is an alternative is the tree of admissible items. -/
theorem Part.items_of_kind {node : Node} (h : Part node) (hkind : node.kind = .alternative) :
    ∃ items, AdmissibleAlternative 64 items ∧ node = alternativeTree items := by
  cases h with
  | alternative items admissible => exact ⟨items, admissible, rfl⟩
  | item inner admissible =>
      have hmem := kind_itemTree_mem inner
      rw [hkind] at hmem
      exact absurd hmem (by decide)
  | classElement inner =>
      have hmem := inner.kind_mem
      rw [hkind] at hmem
      exact absurd hmem (by decide)
  | character inner => simp [inner.kind_tree] at hkind
  | literal inner admissible => simp [Literal.tree] at hkind
  | flags letters => simp [flagsTree] at hkind
  | escape inner => simp [Escape.tree] at hkind
  | code inner => simp [Code.tree] at hkind
  | count inner => simp [Count.tree] at hkind
  | digit c => simp [digitTree] at hkind

/-- A part of a kind that only items are of is the tree of an admissible item. -/
theorem Part.item_of_kind {node : Node} (h : Part node)
    (hkind : node.kind ∈ .quantifier :: atomKinds) (hfree : node.kind ∉ classElementKinds) :
    ∃ item : Item, item.1.Admissible 64 ∧ node = itemTree item := by
  cases h with
  | item inner admissible => exact ⟨inner, admissible, rfl⟩
  | classElement inner => exact absurd inner.kind_mem hfree
  | character inner =>
      rw [inner.kind_tree] at hfree
      exact absurd List.mem_cons_self hfree
  | literal inner admissible => simp [Literal.tree, atomKinds] at hkind
  | flags letters => simp [flagsTree, atomKinds] at hkind
  | alternative items admissible => simp [alternativeTree, atomKinds] at hkind
  | escape inner => simp [Escape.tree, atomKinds] at hkind
  | code inner => simp [Code.tree, atomKinds] at hkind
  | count inner => simp [Count.tree, atomKinds] at hkind
  | digit c => simp [digitTree, atomKinds] at hkind

/-- A part that is a quantifier is the tree of an admissible atom under a quantifier. -/
theorem Part.atom_of_kind {node : Node} (h : Part node) (hkind : node.kind = .quantifier) :
    ∃ (atom : Atom) (quantifier : Quantifier), atom.Admissible 64 ∧
      node = itemTree (atom, some quantifier) := by
  obtain ⟨⟨atom, quantifier⟩, admissible, rfl⟩ :=
    h.item_of_kind (by rw [hkind]; decide) (by rw [hkind]; decide)
  cases quantifier with
  | some quantifier => exact ⟨atom, quantifier, admissible, rfl⟩
  | none =>
      have hmem := atom.kind_mem
      rw [show atom.tree.kind = .quantifier from hkind] at hmem
      exact absurd hmem (by decide)

end PatternTree.Grammar
