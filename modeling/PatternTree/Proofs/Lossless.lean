import PatternTree.Proofs.Acceptance.Literal
import PatternTree.Proofs.Grammar.Part
import PatternTree.Proofs.Slice

/-!
# Trees are lossless

The children of every node of a tree tile the span of the node, from its first byte to its last,
and every token is the slice of the source at its span.  So the tree says of every byte of the
source in which token it stands, and the source can be read off the tree.

* `Node.Tiled` — the children of a node tile its span;
* `Lossless` — what holds of a tree and its source;
* `place_lossless` — a layout is lossless, provided that no token is empty;
* `parse_lossless` — so are the trees of pattern literals and of flags.
-/

namespace PatternTree

/-! ## Tiling -/

/-- The bytes that a child takes up, unless it records that nothing was found. -/
def Child.span? : Child Node → Option Span
  | .node inner => some inner.span
  | .token inner => some inner.span
  | .null => none

/-- The spans lie one after the other, the first of them at `start` and the last of them up to
`stop`.  If there are none, nothing lies between the two. -/
def Tiles (start : Nat) : List Span → Nat → Prop
  | [], stop => start = stop
  | span :: rest, stop => span.start = start ∧ Tiles span.stop rest stop

namespace Node

/-- The spans of the children that are there, in the order they are recorded in. -/
def childSpans (node : Node) : List Span :=
  node.properties.filterMap fun property => property.2.span?

/-- No token that is recorded is empty. -/
def Inked (properties : List Property) : Prop :=
  ∀ slot token, (slot, .token token) ∈ properties → token.text ≠ []

@[simp] theorem inked_nil : Inked [] := fun _ _ h => nomatch h

@[simp] theorem inked_append (front back : List Property) :
    Inked (front ++ back) ↔ Inked front ∧ Inked back := by
  simp only [Inked, List.mem_append, or_imp, forall_and]

@[simp] theorem inked_node (slot : Slot) (child : Node) (rest : List Property) :
    Inked ((slot, .node child) :: rest) ↔ Inked rest := by
  simp [Inked]

@[simp] theorem inked_token (slot : Slot) (token : Token) (rest : List Property) :
    Inked ((slot, .token token) :: rest) ↔ token.text ≠ [] ∧ Inked rest := by
  simp [Inked, or_imp, forall_and]

@[simp] theorem inked_null (slot : Slot) (rest : List Property) :
    Inked ((slot, .null) :: rest) ↔ Inked rest := by
  simp [Inked]

/-- Where only nodes are recorded there are no empty tokens. -/
theorem inked_map_node {α : Type} (slot : Slot) (tree : α → Node) (list : List α) :
    Inked (list.map fun a => (slot, .node (tree a))) := by
  simp [Inked]

/-- The children of the node tile its span. -/
def Tiled (node : Node) : Prop :=
  Tiles node.span.start node.childSpans node.span.stop

/-- Laid-out properties tile their text. -/
theorem tiles_placeAll (start : Nat) (properties : List Property) :
    Tiles start ((placeAll start properties).filterMap fun property => property.2.span?)
      (start + Text.byteLength (spell properties)) := by
  induction properties generalizing start with
  | nil => exact (Nat.add_zero start).symm
  | cons property rest ih =>
      obtain ⟨slot, child⟩ := property
      rw [placeAll_cons, spell_cons, Text.byteLength_append, ← Nat.add_assoc]
      cases child with
      | node child =>
          have hspan : (placeChild start (.node child)).span?
              = some ⟨start, start + Text.byteLength child.sourceText⟩ :=
            congrArg some (place_span start child)
          simp only [List.filterMap_cons, hspan]
          exact ⟨rfl, ih (start + Text.byteLength child.sourceText)⟩
      | token token =>
          have hspan : (placeChild start (.token token)).span?
              = some ⟨start, start + Text.byteLength token.text⟩ := rfl
          simp only [List.filterMap_cons, hspan]
          exact ⟨rfl, ih (start + Text.byteLength token.text)⟩
      | null =>
          rw [List.filterMap_cons_none rfl]
          exact ih start

/-- A laid-out node is tiled. -/
theorem tiled_place (start : Nat) (node : Node) : (node.place start).Tiled := by
  rw [Tiled, childSpans, place_span, place_properties, sourceText_eq_spell]
  exact tiles_placeAll start node.properties

end Node

/-! ## Lossless trees -/

/-- What holds of the tree of a text. -/
structure Lossless (text : List Char) (tree : Node) : Prop where
  /-- The tree takes up the whole text. -/
  span : tree.span = ⟨0, Text.byteLength text⟩
  /-- The children of every node tile its span. -/
  tiled : ∀ node, tree.Contains node → node.Tiled
  /-- Every token is a part of the text, and not an empty one. -/
  token : ∀ node slot token, tree.Contains node → (slot, .token token) ∈ node.properties →
    token.text ≠ [] ∧ Text.slice? text token.span = some token.text
  /-- Every node is spelled like the part of the text that it takes up. -/
  node : ∀ node, tree.Contains node → Text.slice? text node.span = some node.sourceText
  sourceText : tree.sourceText = text

/-- A layout without empty tokens is lossless. -/
theorem place_lossless {tree : Node}
    (inked : ∀ node, tree.Contains node → Node.Inked node.properties) :
    Lossless tree.sourceText (tree.place 0) where
  span := by rw [Node.place_span, Nat.zero_add]
  tiled := by
    intro node hnode
    obtain ⟨original, front, back, -, -, rfl⟩ := Node.contains_place hnode
    exact original.tiled_place _
  token := by
    intro node slot token hnode htoken
    obtain ⟨original, front, back, hbelow, htext, rfl⟩ := Node.contains_place hnode
    rw [Node.place_properties] at htoken
    obtain ⟨before, spelled, behind, hsplit, rfl⟩ := Node.token_mem_placeAll htoken
    have hne : spelled.text ≠ [] :=
      inked original hbelow slot spelled (by rw [hsplit]; simp)
    refine ⟨hne, ?_⟩
    have hslice := Text.slice?_append (front ++ Node.spell before) spelled.text
      (Node.spell behind ++ back)
    rw [htext, original.sourceText_eq_spell, hsplit]
    simpa [Token.place, Nat.add_assoc] using hslice
  node := by
    intro node hnode
    obtain ⟨original, front, back, -, htext, rfl⟩ := Node.contains_place hnode
    have hslice := Text.slice?_append front original.sourceText back
    rw [htext, Node.place_span, Node.sourceText_place, Nat.zero_add]
    exact hslice
  sourceText := Node.sourceText_place 0 tree

/-! ## The trees of derivations -/

namespace Grammar

theorem inked_bodyProperties (first : List Item) (others : List (List Item)) :
    Node.Inked (bodyProperties first others) := by
  have hothers : Node.Inked (otherProperties others) := by
    induction others with
    | nil => simp [otherProperties]
    | cons items others ih => simp [otherProperties, ih]
  simp [bodyProperties, hothers]

theorem Character.inked_tree {region : Region} (inner : Character region) :
    Node.Inked inner.tree.properties := by
  cases inner <;> simp [Character.tree]

theorem inked_keywordTree (letter : Char) : Node.Inked (keywordTree letter).properties := by
  simp [keywordTree]

theorem inked_classTree (negated : Bool) (units : List ClassUnit) :
    Node.Inked (classTree negated units).properties := by
  have hcaret : ∀ (mark : Bool) (rest : List Property),
      Node.Inked ((.negateToken, caretChild mark) :: rest) ↔ Node.Inked rest := by
    intro mark rest
    cases mark <;> simp [caretChild, Child.ofToken?]
  simp [classTree, hcaret, elementProperties, Node.inked_map_node]

theorem Atom.inked_tree (atom : Atom) : Node.Inked atom.tree.properties := by
  cases atom with
  | character inner =>
      rw [Atom.tree]
      exact inner.inked_tree
  | keyword letter known =>
      rw [Atom.tree]
      exact inked_keywordTree letter
  | sigil c known => simp [Atom.tree]
  | charClass negated units =>
      rw [Atom.tree]
      exact inked_classTree negated units
  | group capturing first others =>
      have hbody := inked_bodyProperties first others
      have hopener : opener capturing ≠ [] := by cases capturing <;> decide
      simp [Atom.tree_group, hopener, hbody]

theorem Quantifier.inked_properties (quantifier : Quantifier) :
    Node.Inked quantifier.properties := by
  cases quantifier <;> simp [Quantifier.properties, bracedProperties]

theorem Code.inked_tree (code : Code) : Node.Inked code.tree.properties := by
  have hdigits := code.digits_ne_nil
  cases code <;> simpa [Code.tree, Code.digitProperties, Code.digits] using hdigits

/-- No token of a part is empty. -/
theorem Part.inked {node : Node} (h : Part node) : Node.Inked node.properties := by
  cases h with
  | literal inner admissible => simp [Literal.tree, inked_bodyProperties]
  | flags letters =>
      intro slot token htoken
      obtain ⟨c, -, heq⟩ := List.mem_map.mp htoken
      simp only [Prod.mk.injEq, Child.token.injEq] at heq
      rw [← heq.2]
      exact List.cons_ne_nil c []
  | alternative items admissible =>
      simp [alternativeTree, itemProperties_eq, Node.inked_map_node]
  | item inner admissible =>
      obtain ⟨atom, quantifier⟩ := inner
      cases quantifier with
      | none => exact atom.inked_tree
      | some quantifier => simp [itemTree, quantifiedTree, quantifier.inked_properties]
  | classElement inner =>
      cases inner with
      | unit inner =>
          cases inner with
          | character inner => exact inner.inked_tree
          | keyword letter known => exact inked_keywordTree letter
      | range lower upper => simp [ClassElement.tree]
  | character inner => exact inner.inked_tree
  | escape inner => cases inner <;> simp [Escape.tree, Escape.child]
  | code inner => exact inner.inked_tree
  | count inner => simp [Count.tree, digitsProperties, Node.inked_map_node]
  | digit c => simp [digitTree]

end Grammar

/-- Every node of the tree of a literal is the tree of a part, laid out where the part is
spelled. -/
theorem exists_part {text : List Char} {tree node : Node} (h : parse text = .ok tree)
    (hnode : tree.Contains node) :
    ∃ original start, Grammar.Part original ∧ node = original.place start ∧
      Text.slice? text node.span = some original.sourceText := by
  obtain ⟨literal, hadmissible, rfl, rfl⟩ := parse_eq_ok_iff.mp h
  obtain ⟨original, front, back, hbelow, htext, rfl⟩ := Node.contains_place hnode
  refine ⟨original, _, literal.part_of_contains hadmissible hbelow, rfl, ?_⟩
  have hslice := Text.slice?_append front original.sourceText back
  rw [← literal.sourceText_tree, htext, Node.place_span, Nat.zero_add]
  exact hslice

/-- **The trees of pattern literals and of flags are lossless.** -/
theorem parse_lossless {text : List Char} {tree : Node}
    (h : parse text = .ok tree ∨ parseFlags text = .ok tree) : Lossless text tree := by
  rcases h with h | h
  · obtain ⟨literal, hadmissible, rfl, rfl⟩ := parse_eq_ok_iff.mp h
    have hlossless := place_lossless fun node hnode =>
      (literal.part_of_contains hadmissible hnode).inked
    rwa [literal.sourceText_tree] at hlossless
  · obtain ⟨-, -, rfl⟩ := parseFlags_eq_ok_iff.mp h
    have hlossless := place_lossless fun node hnode =>
      (Grammar.Part.of_contains (.flags text) hnode).inked
    rwa [Grammar.sourceText_flagsTree] at hlossless

/-- A literal with characters of several bytes, and flags alone. -/
theorem lossless_examples :
    (∃ tree, parse "/é\\u\x7b1f600\x7d|[^α-ω]\x7b2,\x7d/iu".toList = .ok tree ∧
        Lossless "/é\\u\x7b1f600\x7d|[^α-ω]\x7b2,\x7d/iu".toList tree) ∧
      ∃ tree, parseFlags "gim".toList = .ok tree ∧ Lossless "gim".toList tree := by
  obtain ⟨literal, hliteral⟩ := Production.exists_ok_of_isOk
    (show (parse "/é\\u\x7b1f600\x7d|[^α-ω]\x7b2,\x7d/iu".toList).isOk = true by decide +kernel)
  obtain ⟨flags, hflags⟩ := Production.exists_ok_of_isOk
    (show (parseFlags "gim".toList).isOk = true by decide +kernel)
  exact ⟨⟨literal, hliteral, parse_lossless (.inl hliteral)⟩,
    ⟨flags, hflags, parse_lossless (.inr hflags)⟩⟩

end PatternTree
