import PatternTree.Proofs.Grammar.Part

/-!
# How deep trees are

A tree is as deep as the longest way down from its root, and groups nest in it as deeply as they
do on some way down.  Only groups let a derivation become deep: below an atom that is no group
there are a few fixed kinds of node, and a group adds itself, an alternative and a quantifier.

* `Node.Descent` — the ways down from a node;
* `Node.Shallow` — bounds for the groups on all ways down and for their lengths, derived for a node
  from those of its children (`Node.Shallow.of_children`);
* `Grammar.Literal.shallow` — the bounds for all literals;
* `Grammar.AdmissibleAlternative.of_nestsTo` — an alternative needs no more levels than groups nest
  in its tree.
-/

namespace PatternTree

/-- Whether a kind of node is one of the two kinds of group. -/
def NodeKind.isGroup (kind : NodeKind) : Bool :=
  kind == .group || kind == .capturingGroup

namespace Node

def isGroup (node : Node) : Bool :=
  node.kind.isGroup

/-- A way down from a node: each of the nodes is a child of the one before it. -/
inductive Descent : Node → List Node → Prop
  | here (node : Node) : Descent node []
  | down {node child : Node} {slot : Slot} {below : List Node}
      (recorded : (slot, .node child) ∈ node.properties) (further : Descent child below) :
      Descent node (child :: below)

/-- On no way down from a node, itself included, are there more groups than the given number. -/
def NestsTo (groups : Nat) (node : Node) : Prop :=
  ∀ below, node.Descent below → (node :: below).countP isGroup ≤ groups

/-- On every way down from a node there are at most the given number of groups and at most the
given number of nodes, itself included. -/
structure Shallow (groups height : Nat) (node : Node) : Prop where
  nests : node.NestsTo groups
  length_lt : ∀ below, node.Descent below → below.length < height

variable {node : Node} {groups height : Nat}

/-- A child nests no deeper than the node. -/
theorem NestsTo.child (h : node.NestsTo groups) {slot : Slot} {child : Node}
    (recorded : (slot, .node child) ∈ node.properties) : child.NestsTo groups := by
  intro below hbelow
  have hcount := h (child :: below) (.down recorded hbelow)
  rw [List.countP_cons] at hcount
  omega

/-- A child of a group nests one level less deeply than the group. -/
theorem NestsTo.child_of_isGroup (h : node.NestsTo (groups + 1)) (hgroup : node.isGroup = true)
    {slot : Slot} {child : Node} (recorded : (slot, .node child) ∈ node.properties) :
    child.NestsTo groups := by
  intro below hbelow
  have hcount := h (child :: below) (.down recorded hbelow)
  rw [List.countP_cons, if_pos hgroup] at hcount
  omega

/-- No group has room in no level at all. -/
theorem not_nestsTo_zero (hgroup : node.isGroup = true) : ¬ node.NestsTo 0 := by
  intro h
  have hcount := h [] (.here node)
  simp [hgroup] at hcount

theorem Shallow.mono {more higher : Nat} (h : node.Shallow groups height) (hgroups : groups ≤ more)
    (hheight : height ≤ higher) : node.Shallow more higher where
  nests below hbelow := Nat.le_trans (h.nests below hbelow) hgroups
  length_lt below hbelow := Nat.lt_of_lt_of_le (h.length_lt below hbelow) hheight

/-- A node is one node higher than its highest child, and one group deeper if it is one. -/
theorem Shallow.of_children_le {more : Nat}
    (children : ∀ slot child, (slot, .node child) ∈ node.properties →
      child.Shallow groups height)
    (hmore : groups + (if node.isGroup then 1 else 0) ≤ more) :
    node.Shallow more (height + 1) where
  nests below hbelow := by
    rw [List.countP_cons]
    cases hbelow with
    | here =>
        rw [List.countP_nil]
        omega
    | down recorded further =>
        have hchild := (children _ _ recorded).nests _ further
        omega
  length_lt below hbelow := by
    cases hbelow with
    | here => exact Nat.succ_pos height
    | down recorded further => exact Nat.succ_lt_succ ((children _ _ recorded).length_lt _ further)

/-- A node that is no group is one node higher than its children. -/
theorem Shallow.of_children (hkind : node.isGroup = false)
    (children : ∀ slot child, (slot, .node child) ∈ node.properties →
      child.Shallow groups height) :
    node.Shallow groups (height + 1) :=
  .of_children_le children (by simp [hkind])

/-- A group is one node higher than its children, and nests one level more deeply. -/
theorem Shallow.of_group (hkind : node.isGroup = true)
    (children : ∀ slot child, (slot, .node child) ∈ node.properties →
      child.Shallow groups height) :
    node.Shallow (groups + 1) (height + 1) :=
  .of_children_le children (by simp [hkind])

/-- A node without child nodes. -/
theorem Shallow.of_leaf (hkind : node.isGroup = false)
    (leaf : ∀ slot child, (slot, .node child) ∉ node.properties) : node.Shallow 0 1 :=
  .of_children hkind fun slot child recorded => absurd recorded (leaf slot child)

/-! ## Laid-out trees -/

/-- The ways down from a laid-out tree are those of the tree, laid out. -/
theorem Descent.of_place {start : Nat} {below : List Node} (h : (node.place start).Descent below) :
    ∃ originals, node.Descent originals ∧ below.map kind = originals.map kind := by
  induction below generalizing node start with
  | nil => exact ⟨[], .here node, rfl⟩
  | cons child below ih =>
      cases h with
      | @down _ _ slot _ recorded further =>
          rw [place_properties] at recorded
          obtain ⟨front, original, back, hsplit, rfl⟩ := node_mem_placeAll recorded
          obtain ⟨originals, horiginals, hkinds⟩ := ih further
          have horiginal : (slot, .node original) ∈ node.properties := by
            rw [hsplit]
            simp
          refine ⟨original :: originals, .down horiginal horiginals, ?_⟩
          rw [List.map_cons, List.map_cons, hkinds, place_kind]

/-- A child of a tree is a child of the laid-out tree, laid out. -/
theorem exists_place_of_mem {properties : List Property} {slot : Slot} {child : Node}
    (h : (slot, .node child) ∈ properties) (start : Nat) :
    ∃ position, (slot, .node (child.place position)) ∈ placeAll start properties := by
  obtain ⟨front, back, rfl⟩ := List.append_of_mem h
  refine ⟨start + Text.byteLength (spell front), ?_⟩
  rw [placeAll_append, placeAll]
  simp

/-- The ways down from a tree are ways down from the laid-out tree. -/
theorem Descent.place {below : List Node} (h : node.Descent below) (start : Nat) :
    ∃ placed, (node.place start).Descent placed ∧ placed.map kind = below.map kind := by
  induction h generalizing start with
  | here node => exact ⟨[], .here _, rfl⟩
  | @down node child slot below recorded further ih =>
      obtain ⟨position, hplaced⟩ := exists_place_of_mem recorded start
      rw [← place_properties] at hplaced
      obtain ⟨placed, hbelow, hkinds⟩ := ih position
      refine ⟨child.place position :: placed, .down hplaced hbelow, ?_⟩
      rw [List.map_cons, List.map_cons, hkinds, place_kind]

/-- How many groups there are is told by the kinds of the nodes. -/
theorem countP_isGroup (nodes : List Node) :
    nodes.countP isGroup = (nodes.map kind).countP NodeKind.isGroup :=
  List.countP_map.symm

theorem countP_isGroup_place {start : Nat} {below originals : List Node}
    (h : below.map kind = originals.map kind) :
    (node.place start :: below).countP isGroup = (node :: originals).countP isGroup := by
  rw [countP_isGroup, countP_isGroup, List.map_cons, List.map_cons, h, place_kind]

/-- A layout does not change how deeply groups nest. -/
theorem nestsTo_place {start : Nat} : (node.place start).NestsTo groups ↔ node.NestsTo groups := by
  constructor
  · intro h below hbelow
    obtain ⟨placed, hplaced, hkinds⟩ := hbelow.place start
    rw [← countP_isGroup_place hkinds]
    exact h placed hplaced
  · intro h below hbelow
    obtain ⟨originals, horiginals, hkinds⟩ := hbelow.of_place
    rw [countP_isGroup_place hkinds]
    exact h originals horiginals

theorem Shallow.place (h : node.Shallow groups height) (start : Nat) :
    (node.place start).Shallow groups height where
  nests := nestsTo_place.mpr h.nests
  length_lt below hbelow := by
    obtain ⟨originals, horiginals, hkinds⟩ := hbelow.of_place
    have hlength := congrArg List.length hkinds
    rw [List.length_map, List.length_map] at hlength
    rw [hlength]
    exact h.length_lt originals horiginals

end Node

namespace Grammar

/-! ## Atoms -/

theorem Code.shallow (code : Code) : code.tree.Shallow 0 1 := by
  apply Node.Shallow.of_leaf rfl
  intro slot child
  cases code <;> simp [Code.tree, Code.digitProperties]

theorem Escape.shallow {region : Region} (inner : Escape region) : inner.tree.Shallow 0 2 := by
  apply Node.Shallow.of_children rfl
  intro slot child recorded
  cases inner with
  | single c known => simp [Escape.tree, Escape.child] at recorded
  | coded code =>
      simp only [Escape.tree, Escape.child, Node.bare_properties, List.mem_cons,
        Prod.mk.injEq, Child.node.injEq, reduceCtorEq, and_false, List.not_mem_nil, or_false,
        false_or] at recorded
      rw [recorded.2]
      exact code.shallow

theorem Character.shallow {region : Region} (inner : Character region) :
    inner.tree.Shallow 0 3 := by
  apply Node.Shallow.of_children
  · rw [Node.isGroup, inner.kind_tree]
    rfl
  · intro slot child recorded
    obtain ⟨-, escape, rfl⟩ := inner.mem_tree recorded
    exact escape.shallow

theorem shallow_keywordTree (letter : Char) : (keywordTree letter).Shallow 0 1 := by
  apply Node.Shallow.of_leaf
  · rw [Node.isGroup, keywordTree, Node.bare_kind, keywordKind]
    repeat' split
    all_goals rfl
  · exact fun slot child => not_mem_keywordTree

theorem ClassElement.shallow (element : ClassElement) : element.tree.Shallow 0 4 := by
  cases element with
  | unit inner =>
      cases inner with
      | character inner => exact inner.shallow.mono (by omega) (by omega)
      | keyword letter known => exact (shallow_keywordTree letter).mono (by omega) (by omega)
  | range lower upper =>
      apply Node.Shallow.of_children rfl
      intro slot child recorded
      simp only [ClassElement.tree, Node.bare_properties, List.mem_cons, Prod.mk.injEq,
        Child.node.injEq, reduceCtorEq, and_false, List.not_mem_nil, or_false,
        false_or] at recorded
      rcases recorded with ⟨-, rfl⟩ | ⟨-, rfl⟩
      · exact lower.shallow
      · exact upper.shallow

theorem shallow_classTree (negated : Bool) (units : List ClassUnit) :
    (classTree negated units).Shallow 0 5 := by
  apply Node.Shallow.of_children rfl
  intro slot child recorded
  obtain ⟨-, element, rfl⟩ := mem_classTree recorded
  exact element.shallow

theorem Count.shallow (count : Count) : count.tree.Shallow 0 2 := by
  apply Node.Shallow.of_children rfl
  intro slot child recorded
  simp only [Count.tree, Node.bare_properties, digitsProperties, List.mem_map, Prod.mk.injEq,
    Child.node.injEq] at recorded
  obtain ⟨c, -, -, rfl⟩ := recorded
  apply Node.Shallow.of_leaf rfl
  simp [digitTree]

/-- An item is one node higher than its atom, for the quantifier. -/
theorem shallow_itemTree {item : Item} {groups height : Nat}
    (h : item.1.tree.Shallow groups height) (hheight : 2 ≤ height) :
    (itemTree item).Shallow groups (height + 1) := by
  obtain ⟨atom, quantifier⟩ := item
  cases quantifier with
  | none => exact h.mono (Nat.le_refl groups) (Nat.le_succ height)
  | some quantifier =>
      apply Node.Shallow.of_children rfl
      intro slot child recorded
      rcases List.mem_cons.mp recorded with heq | hmem
      · simp only [Prod.mk.injEq, Child.node.injEq] at heq
        rw [heq.2]
        exact h
      · obtain ⟨-, count, rfl⟩ := quantifier.mem_properties hmem
        exact count.shallow.mono (Nat.zero_le groups) hheight

/-- An alternative is one node higher than its items. -/
theorem shallow_alternativeTree {items : List Item} {groups height : Nat}
    (h : ∀ item ∈ items, (itemTree item).Shallow groups height) :
    (alternativeTree items).Shallow groups (height + 1) := by
  apply Node.Shallow.of_children rfl
  intro slot child recorded
  obtain ⟨-, item, hitem, rfl⟩ := mem_itemProperties recorded
  exact h item hitem

theorem isGroup_groupTree (capturing : Bool) (first : List Item) (others : List (List Item)) :
    (Atom.group capturing first others).tree.isGroup = true := by
  rw [Node.isGroup, Atom.tree_group]
  cases capturing <;> rfl

/-- Every level adds a group, an alternative and a quantifier. -/
theorem Atom.Admissible.shallow {atom : Atom} {levels : Nat} (h : atom.Admissible levels) :
    atom.tree.Shallow levels (3 * levels + 5) := by
  induction atom using Atom.induction generalizing levels with
  | character inner =>
      rw [Atom.tree]
      exact inner.shallow.mono (by omega) (by omega)
  | keyword letter known =>
      rw [Atom.tree]
      exact (shallow_keywordTree letter).mono (by omega) (by omega)
  | sigil c known =>
      have hleaf : (Atom.sigil c known).tree.Shallow 0 1 := by
        rw [Atom.tree]
        apply Node.Shallow.of_leaf
        · rw [Node.isGroup, Node.bare_kind, sigilKind]
          repeat' split
          all_goals rfl
        · simp
      exact hleaf.mono (by omega) (by omega)
  | charClass negated units =>
      rw [Atom.tree]
      exact (shallow_classTree negated units).mono (by omega) (by omega)
  | group capturing first others ih =>
      cases levels with
      | zero => simp [Atom.Admissible] at h
      | succ levels =>
          rw [Atom.Admissible] at h
          apply Node.Shallow.of_group (isGroup_groupTree capturing first others)
          intro slot child recorded
          obtain ⟨-, items, hitems, rfl⟩ := mem_groupTree recorded
          have halternative : (alternativeTree items).Shallow levels (3 * levels + 7) := by
            refine shallow_alternativeTree fun item hitem => ?_
            have hatom := ih items hitems item hitem ((h items hitems).2 item hitem)
            exact shallow_itemTree hatom (by omega)
          exact halternative.mono (Nat.le_refl levels) (by omega)

/-- The alternatives of a body are among the children that record it. -/
theorem alternativeTree_mem {first items : List Item} {others : List (List Item)}
    (h : items ∈ first :: others) :
    (.alternatives, .node (alternativeTree items)) ∈ bodyProperties first others := by
  rw [bodyProperties, otherProperties_eq]
  rcases List.mem_cons.mp h with rfl | hmem
  · exact List.mem_cons_self
  · apply List.mem_cons_of_mem
    exact List.mem_flatMap.mpr ⟨items, hmem, by simp⟩

/-- The atoms of an alternative nest no deeper than the alternative. -/
theorem nestsTo_atom {items : List Item} {item : Item} {levels : Nat}
    (h : (alternativeTree items).NestsTo levels) (hitem : item ∈ items) :
    item.1.tree.NestsTo levels := by
  have hrecorded : (.elements, .node (itemTree item)) ∈ (alternativeTree items).properties := by
    rw [alternativeTree, Node.bare_properties, itemProperties_eq]
    exact List.mem_map.mpr ⟨item, hitem, rfl⟩
  have hnests := h.child hrecorded
  obtain ⟨atom, quantifier⟩ := item
  cases quantifier with
  | none => exact hnests
  | some quantifier => exact hnests.child (.head _)

/-- An atom that is admissible with some levels needs no more than groups nest in its tree. -/
theorem Atom.Admissible.of_nestsTo {atom : Atom} {more levels : Nat} (h : atom.Admissible more)
    (nests : atom.tree.NestsTo levels) : atom.Admissible levels := by
  induction atom using Atom.induction generalizing more levels with
  | character inner => exact Atom.admissible_character
  | keyword letter known => exact Atom.admissible_keyword
  | sigil c known => exact Atom.admissible_sigil
  | charClass negated units => exact Atom.admissible_charClass
  | group capturing first others ih =>
      have hgroup := isGroup_groupTree capturing first others
      cases levels with
      | zero => exact absurd nests (Node.not_nestsTo_zero hgroup)
      | succ levels =>
          cases more with
          | zero => simp [Atom.Admissible] at h
          | succ more =>
              rw [Atom.Admissible] at h ⊢
              intro items hitems
              obtain ⟨hseamless, hatoms⟩ := h items hitems
              refine ⟨hseamless, fun item hitem => ?_⟩
              have hrecorded : (.alternatives, .node (alternativeTree items))
                  ∈ (Atom.group capturing first others).tree.properties := by
                rw [Atom.tree_group, Node.bare_properties]
                apply List.mem_cons_of_mem
                exact List.mem_append_left _ (alternativeTree_mem hitems)
              have halternative := nests.child_of_isGroup hgroup hrecorded
              exact ih items hitems item hitem (hatoms item hitem)
                (nestsTo_atom halternative hitem)

/-! ## Literals -/

/-- The items of an alternative have an atom and a quantifier each. -/
theorem AdmissibleAlternative.shallow {items : List Item} {levels : Nat}
    (h : AdmissibleAlternative levels items) :
    (alternativeTree items).Shallow levels (3 * levels + 7) := by
  refine shallow_alternativeTree fun item hitem => ?_
  exact shallow_itemTree (h.2 item hitem).shallow (by omega)

/-- An alternative needs no more levels than groups nest in its tree. -/
theorem AdmissibleAlternative.of_nestsTo {items : List Item} {more levels : Nat}
    (h : AdmissibleAlternative more items) (nests : (alternativeTree items).NestsTo levels) :
    AdmissibleAlternative levels items :=
  ⟨h.1, fun item hitem => (h.2 item hitem).of_nestsTo (nestsTo_atom nests hitem)⟩

/-- A literal is one node higher than its alternatives. -/
theorem Literal.shallow {literal : Literal} {levels : Nat}
    (h : ∀ items ∈ literal.first :: literal.others, AdmissibleAlternative levels items) :
    literal.tree.Shallow levels (3 * levels + 8) := by
  apply Node.Shallow.of_children rfl
  intro slot child recorded
  rcases literal.mem_tree recorded with ⟨-, items, hitems, rfl⟩ | ⟨-, rfl⟩
  · exact (h items hitems).shallow
  · have hleaf : (flagsTree literal.flags).Shallow 0 1 := by
      apply Node.Shallow.of_leaf rfl
      simp [flagsTree]
    exact hleaf.mono (by omega) (by omega)

/-- The alternatives of a literal nest no deeper than the literal. -/
theorem Literal.nestsTo_alternative {literal : Literal} {levels : Nat}
    (h : literal.tree.NestsTo levels) {items : List Item}
    (hitems : items ∈ literal.first :: literal.others) :
    (alternativeTree items).NestsTo levels := by
  have hrecorded : (.alternatives, .node (alternativeTree items)) ∈ literal.tree.properties := by
    rw [Literal.tree, Node.bare_properties, List.cons_append]
    apply List.mem_cons_of_mem
    exact List.mem_append_left _ (alternativeTree_mem hitems)
  exact h.child hrecorded

end Grammar

end PatternTree
