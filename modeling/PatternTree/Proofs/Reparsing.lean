import PatternTree.Proofs.Acceptance.Literal
import PatternTree.Proofs.Grammar.Part

/-!
# Reading a part again

An alternative, an element of an alternative and the element of a quantifier mean the same
wherever they stand.  The text of such a node, put between slashes, is a pattern literal of its
own, and its tree holds the node again, with all its tokens and attributes; only the positions
have moved.

* `Freestanding` — the nodes that can be read again;
* `parse_alternative` — what is read for an alternative between slashes;
* `parse_sourceText` — what is read for the text of a freestanding node.
-/

namespace PatternTree

/-- The nodes of a tree that stand for themselves: alternatives, their elements and the elements
of quantifiers. -/
inductive Freestanding (tree : Node) : Node → Prop
  | alternative {node : Node} (below : tree.Contains node) (kind : node.kind = .alternative) :
      Freestanding tree node
  | element {parent node : Node} (below : tree.Contains parent)
      (kind : parent.kind = .alternative)
      (recorded : (.elements, .node node) ∈ parent.properties) : Freestanding tree node
  | operand {parent node : Node} (below : tree.Contains parent)
      (kind : parent.kind = .quantifier)
      (recorded : (.element, .node node) ∈ parent.properties) : Freestanding tree node

namespace Grammar

/-! ## Lone alternatives -/

/-- The literal of a single alternative, without flags. -/
def alone (items : List Item) : Literal where
  first := items
  others := []
  flags := []
  known := by simp
  distinct := List.nodup_nil

theorem alone_text (items : List Item) :
    (alone items).text = '/' :: (alternativeText items ++ ['/']) := by
  simp [alone, Literal.text, othersText]

/-- An admissible alternative is read again when it stands between slashes. -/
theorem parse_alternative {items : List Item} (h : AdmissibleAlternative 64 items) :
    parse ('/' :: (alternativeText items ++ ['/'])) = .ok ((alone items).tree.place 0) := by
  refine parse_eq_ok_iff.mpr ⟨alone items, ?_, alone_text items, rfl⟩
  exact List.forall_mem_singleton.mpr h

/-- The tree of a lone alternative holds it behind the first slash, and empty flags. -/
theorem children_alone (items : List Item) :
    ((alone items).tree.place 0).children .alternatives
        = [.node ((alternativeTree items).place 1)] ∧
      ∃ flags, ((alone items).tree.place 0).children .flags = [.node flags] ∧
        flags.properties = [] := by
  have hwidth : Text.byteLength ['/'] = 1 := by decide
  constructor
  · simp [Node.children, Literal.tree, alone, bodyProperties, otherProperties, Node.placeAll,
      hwidth]
  · simp [Node.children, Literal.tree, alone, bodyProperties, otherProperties, Node.placeAll,
      flagsTree]

/-! ## Freestanding nodes -/

/-- A freestanding node is an admissible alternative or an item of one. -/
theorem Literal.freestanding {literal : Literal} {node : Node} (admissible : literal.Admissible)
    (h : Freestanding (literal.tree.place 0) node) :
    ∃ start,
      (∃ items, AdmissibleAlternative 64 items ∧ node = (alternativeTree items).place start) ∨
      ∃ item : Item, item.1.Admissible 64 ∧ node = (itemTree item).place start := by
  cases h with
  | alternative below kind =>
      obtain ⟨original, front, back, hbelow, -, rfl⟩ := Node.contains_place below
      rw [Node.place_kind] at kind
      obtain ⟨items, hitems, rfl⟩ :=
        (literal.part_of_contains admissible hbelow).items_of_kind kind
      exact ⟨_, .inl ⟨items, hitems, rfl⟩⟩
  | element below kind recorded =>
      obtain ⟨original, front, back, hbelow, -, rfl⟩ := Node.contains_place below
      rw [Node.place_kind] at kind
      rw [Node.place_properties] at recorded
      obtain ⟨before, element, behind, hsplit, rfl⟩ := Node.node_mem_placeAll recorded
      obtain ⟨items, hitems, rfl⟩ :=
        (literal.part_of_contains admissible hbelow).items_of_kind kind
      have hmem : (.elements, .node element) ∈ itemProperties items := by
        rw [show itemProperties items = _ from hsplit]
        simp
      obtain ⟨-, item, hitem, rfl⟩ := mem_itemProperties hmem
      exact ⟨_, .inr ⟨item, hitems.2 item hitem, rfl⟩⟩
  | operand below kind recorded =>
      obtain ⟨original, front, back, hbelow, -, rfl⟩ := Node.contains_place below
      rw [Node.place_kind] at kind
      rw [Node.place_properties] at recorded
      obtain ⟨before, operand, behind, hsplit, rfl⟩ := Node.node_mem_placeAll recorded
      obtain ⟨atom, quantifier, hatom, rfl⟩ :=
        (literal.part_of_contains admissible hbelow).atom_of_kind kind
      have hmem : (.element, .node operand) ∈ (itemTree (atom, some quantifier)).properties := by
        rw [hsplit]
        simp
      rcases List.mem_cons.mp hmem with heq | hmem
      · simp only [Prod.mk.injEq, Child.node.injEq] at heq
        rw [heq.2]
        exact ⟨_, .inr ⟨(atom, none), hatom, rfl⟩⟩
      · obtain ⟨hslot, -⟩ := quantifier.mem_properties hmem
        simp at hslot

end Grammar

open Grammar

/-- **A freestanding node is read again as itself.**  Between slashes, the text of an alternative
has this alternative as its only one, and the text of any other freestanding node has an
alternative with this element only.  There are no flags. -/
theorem parse_sourceText {text : List Char} {tree node : Node} (h : parse text = .ok tree)
    (hnode : Freestanding tree node) :
    ∃ again alternative flags, parse ('/' :: (node.sourceText ++ ['/'])) = .ok again ∧
      again.children .alternatives = [.node alternative] ∧
      again.children .flags = [.node flags] ∧ flags.properties = [] ∧
      (node.kind = .alternative → alternative = node.moveTo 1) ∧
      (node.kind ≠ .alternative → alternative.kind = .alternative ∧
        alternative.properties = [(.elements, .node (node.moveTo 1))]) := by
  obtain ⟨literal, hadmissible, -, rfl⟩ := parse_eq_ok_iff.mp h
  obtain ⟨start, ⟨items, hitems, rfl⟩ | ⟨item, hitem, rfl⟩⟩ :=
    literal.freestanding hadmissible hnode
  · obtain ⟨halternatives, flags, hflags, hempty⟩ := children_alone items
    refine ⟨_, _, flags, ?_, halternatives, hflags, hempty, ?_, ?_⟩
    · rw [Node.sourceText_place, sourceText_alternativeTree]
      exact parse_alternative hitems
    · exact fun _ => (Node.moveTo_place start 1 _).symm
    · exact fun hkind => absurd (Node.place_kind start _) hkind
  · obtain ⟨halternatives, flags, hflags, hempty⟩ := children_alone [item]
    have htext : alternativeText [item] = itemText item := by
      rw [alternativeText_eq, List.flatMap_singleton]
    refine ⟨_, _, flags, ?_, halternatives, hflags, hempty, ?_, ?_⟩
    · rw [Node.sourceText_place, sourceText_itemTree, ← htext]
      exact parse_alternative (admissible_singleton hitem)
    · intro hkind
      have hmem := kind_itemTree_mem item
      rw [← Node.place_kind start, hkind] at hmem
      exact absurd hmem (by decide)
    · refine fun _ => ⟨Node.place_kind 1 _, ?_⟩
      rw [Node.moveTo_place, Node.place_properties, alternativeTree, Node.bare_properties,
        itemProperties_eq, List.map_singleton, Node.placeAll_cons]
      rfl

/-- A group with two alternatives, the second of them a brace under a quantifier. -/
def groupAtom : Atom :=
  .group true [(.character (.plain 'é' (by decide)), none)]
    [[(.character (.plain '{' (by decide)), some (.sigil '+' (by decide)))]]

/-- The literal of a character and a group under a quantifier. -/
def groupLiteral : Literal where
  first :=
    [(.character (.plain 'x' (by decide)), none), (groupAtom, some (.sigil '*' (by decide)))]
  others := []
  flags := ['i']
  known := by simp
  distinct := by simp

theorem groupLiteral_admissible : groupLiteral.Admissible := by
  refine List.forall_mem_singleton.mpr ⟨?_, ?_⟩
  · simp [groupLiteral, groupAtom, Seamless, Joins, alternativeText, Atom.text, opener,
      beginsBounds]
  · intro item hitem
    simp only [groupLiteral, List.mem_cons, List.not_mem_nil, or_false] at hitem
    rcases hitem with rfl | rfl <;>
      simp [groupAtom, Atom.Admissible, Seamless, Joins, alternativeText, beginsBounds]

/-- The group under a quantifier, read again. -/
theorem sourceText_group_example :
    ∃ tree node, parse "/x(é|\x7b+)*/i".toList = .ok tree ∧ Freestanding tree node ∧
      node.sourceText = "(é|\x7b+)".toList ∧ node.span = ⟨2, 9⟩ ∧
      ∃ again alternative flags, parse ('/' :: (node.sourceText ++ ['/'])) = .ok again ∧
        again.children .alternatives = [.node alternative] ∧
        again.children .flags = [.node flags] ∧ flags.properties = [] ∧
        (node.kind = .alternative → alternative = node.moveTo 1) ∧
        (node.kind ≠ .alternative → alternative.kind = .alternative ∧
          alternative.properties = [(.elements, .node (node.moveTo 1))]) := by
  have hparse : parse "/x(é|\x7b+)*/i".toList = .ok (groupLiteral.tree.place 0) :=
    parse_eq_ok_iff.mpr ⟨groupLiteral, groupLiteral_admissible, by decide +kernel, rfl⟩
  have hbody : (groupLiteral.tree.place 0).Contains
      ((alternativeTree groupLiteral.first).place 1) :=
    .step .self (.tail _ (.head _))
  have helement : (groupLiteral.tree.place 0).Contains
      ((itemTree (groupAtom, some (.sigil '*' (by decide)))).place 2) :=
    .step hbody (.tail _ (.head _))
  have hnode : Freestanding (groupLiteral.tree.place 0) (groupAtom.tree.place 2) :=
    .operand helement rfl (.head _)
  exact ⟨_, _, hparse, hnode, by decide +kernel, by decide +kernel,
    parse_sourceText hparse hnode⟩

end PatternTree
