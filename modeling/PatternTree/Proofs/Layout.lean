import PatternTree.Node.Basic
import PatternTree.Text.Width

/-!
# Laying out trees

The spans of a lossless tree carry no information of their own: they follow from the texts of
its tokens once it is known where the tree starts.  `Node.place` works them out, and forgets
whatever spans were there before.  A tree that is its own layout covers its text without gaps
or overlaps, and moving it moves all its spans by the same amount (`moveTo_place`).

* `Node.Contains` — a tree and everything below it;
* `contains_place` — what a laid-out tree contains is laid out where its text stands;
* `moveTo_place` — a layout moves as a whole.
-/

namespace PatternTree

namespace Token

/-- A token without marks that has not been laid out. -/
def bare (kind : Token.Kind) (text : List Char) : Token :=
  .plain kind text ⟨0, 0⟩

/-- A token that opens a delimiter. -/
def opening (text : List Char) (closer : Char) (inside : Option Region) : Token :=
  { bare .punctuator text with balanced := some closer, balancedRegion := inside }

/-- A token that closes a delimiter. -/
def closing (closer : Char) : Token :=
  { bare .punctuator [closer] with balancer := true }

/-- The token as it stands in a text from the given position on. -/
def place (start : Nat) (token : Token) : Token :=
  { token with span := ⟨start, start + Text.byteLength token.text⟩ }

@[simp] theorem bare_text (kind : Token.Kind) (text : List Char) :
    (bare kind text).text = text := rfl

@[simp] theorem opening_text (text : List Char) (closer : Char) (inside : Option Region) :
    (opening text closer inside).text = text := rfl

@[simp] theorem closing_text (closer : Char) : (closing closer).text = [closer] := rfl

@[simp] theorem place_text (start : Nat) (token : Token) :
    (token.place start).text = token.text := rfl

end Token

namespace Node

/-- A node that has not been laid out. -/
def bare (kind : NodeKind) (attributes : List (AttributeName × Attribute))
    (properties : List Property) : Node where
  kind := kind
  span := ⟨0, 0⟩
  attributes := attributes
  properties := properties

@[simp] theorem bare_kind (kind : NodeKind) (attributes : List (AttributeName × Attribute))
    (properties : List Property) : (bare kind attributes properties).kind = kind := rfl

@[simp] theorem bare_properties (kind : NodeKind)
    (attributes : List (AttributeName × Attribute)) (properties : List Property) :
    (bare kind attributes properties).properties = properties := rfl

/-- The text of a list of properties. -/
def spell (properties : List Property) : List Char :=
  (tokensOf properties).flatMap Token.text

@[simp] theorem spell_nil : spell [] = [] := rfl

@[simp] theorem spell_node (slot : Slot) (child : Node) (rest : List Property) :
    spell ((slot, .node child) :: rest) = child.sourceText ++ spell rest := by
  simp [spell, sourceText, tokensOf]

@[simp] theorem spell_token (slot : Slot) (token : Token) (rest : List Property) :
    spell ((slot, .token token) :: rest) = token.text ++ spell rest := by
  simp [spell, tokensOf]

@[simp] theorem spell_null (slot : Slot) (rest : List Property) :
    spell ((slot, .null) :: rest) = spell rest := by
  simp [spell, tokensOf]

@[simp] theorem spell_append (front back : List Property) :
    spell (front ++ back) = spell front ++ spell back := by
  simp [spell]

/-- The text of a node is that of its properties. -/
theorem sourceText_eq_spell (node : Node) : node.sourceText = spell node.properties := by
  rw [sourceText, tokens_eq, spell]

@[simp] theorem sourceText_mk (kind : NodeKind) (span : Span)
    (attributes : List (AttributeName × Attribute)) (properties : List Property) :
    sourceText ⟨kind, span, attributes, properties⟩ = spell properties :=
  sourceText_eq_spell _

@[simp] theorem sourceText_bare (kind : NodeKind)
    (attributes : List (AttributeName × Attribute)) (properties : List Property) :
    (bare kind attributes properties).sourceText = spell properties :=
  sourceText_eq_spell _

/-! ## Layout -/

mutual
/-- The tree as it stands in a text from the given position on. -/
def place (start : Nat) : Node → Node
  | ⟨kind, _, attributes, properties⟩ =>
    ⟨kind, ⟨start, start + Text.byteLength (spell properties)⟩, attributes,
      placeAll start properties⟩
/-- Properties one after the other from the given position on. -/
def placeAll (start : Nat) : List Property → List Property
  | [] => []
  | (slot, .node child) :: rest =>
    (slot, .node (child.place start))
      :: placeAll (start + Text.byteLength child.sourceText) rest
  | (slot, .token token) :: rest =>
    (slot, .token (token.place start)) :: placeAll (start + Text.byteLength token.text) rest
  | (slot, .null) :: rest => (slot, .null) :: placeAll start rest
end

@[simp] theorem place_kind (start : Nat) (node : Node) : (node.place start).kind = node.kind := by
  cases node
  simp [place]

@[simp] theorem place_attributes (start : Nat) (node : Node) :
    (node.place start).attributes = node.attributes := by
  cases node
  simp [place]

@[simp] theorem place_properties (start : Nat) (node : Node) :
    (node.place start).properties = placeAll start node.properties := by
  cases node
  simp [place]

@[simp] theorem place_span (start : Nat) (node : Node) :
    (node.place start).span = ⟨start, start + Text.byteLength node.sourceText⟩ := by
  cases node
  simp [place]

/-- A layout leaves the slots alone. -/
@[simp] theorem map_fst_placeAll (start : Nat) (properties : List Property) :
    (placeAll start properties).map Prod.fst = properties.map Prod.fst := by
  induction properties generalizing start with
  | nil => simp [placeAll]
  | cons property rest ih =>
      obtain ⟨slot, child⟩ := property
      cases child <;> simp [placeAll, ih]

/-- A laid-out property stands under the slot of one that was laid out. -/
theorem exists_slot_of_mem_placeAll {start : Nat} {properties : List Property}
    {property : Property} (h : property ∈ placeAll start properties) :
    ∃ original ∈ properties, original.1 = property.1 := by
  apply List.mem_map.mp
  rw [← map_fst_placeAll start]
  exact List.mem_map_of_mem h

/-- Properties are laid out from left to right. -/
theorem placeAll_append (start : Nat) (front back : List Property) :
    placeAll start (front ++ back)
      = placeAll start front ++ placeAll (start + Text.byteLength (spell front)) back := by
  induction front generalizing start with
  | nil => simp [placeAll]
  | cons property rest ih =>
      obtain ⟨slot, child⟩ := property
      cases child <;> simp [placeAll, ih, Nat.add_assoc]

/-- Properties are laid out from left to right, also those among them that are selected by their
slots. -/
theorem filter_placeAll (select : Slot → Bool) (start : Nat) (front middle back : List Property)
    (hfront : ∀ property ∈ front, select property.1 = false)
    (hmiddle : ∀ property ∈ middle, select property.1 = true)
    (hback : ∀ property ∈ back, select property.1 = false) :
    (placeAll start (front ++ middle ++ back)).filter (fun property => select property.1)
      = placeAll (start + Text.byteLength (spell front)) middle := by
  have hnone : ∀ (start : Nat) (properties : List Property),
      (∀ property ∈ properties, select property.1 = false) →
      (placeAll start properties).filter (fun property => select property.1) = [] := by
    intro start properties h
    rw [List.filter_eq_nil_iff]
    intro property hproperty
    obtain ⟨original, horiginal, heq⟩ := exists_slot_of_mem_placeAll hproperty
    rw [← heq, h original horiginal]
    decide
  have hall : ∀ start : Nat,
      (placeAll start middle).filter (fun property => select property.1)
        = placeAll start middle := by
    intro start
    rw [List.filter_eq_self]
    intro property hproperty
    obtain ⟨original, horiginal, heq⟩ := exists_slot_of_mem_placeAll hproperty
    rw [← heq, hmiddle original horiginal]
  rw [placeAll_append, placeAll_append, List.filter_append, List.filter_append, hnone _ _ hfront,
    hnone _ _ hback, hall, List.nil_append, List.append_nil]

/-- Trees one after the other from the given position on. -/
def placeNodes (start : Nat) : List Node → List Node
  | [] => []
  | node :: rest => node.place start :: placeNodes (start + Text.byteLength node.sourceText) rest

/-- Trees that are recorded one after the other in a slot are laid out one after the other. -/
theorem placeAll_map_node (start : Nat) (slot : Slot) (nodes : List Node) :
    placeAll start (nodes.map fun node => (slot, .node node))
      = (placeNodes start nodes).map fun node => (slot, .node node) := by
  induction nodes generalizing start with
  | nil => rfl
  | cons node rest ih =>
      rw [List.map_cons, placeAll, ih, placeNodes, List.map_cons]

/-- The nodes of a slot are laid out one after the other behind what stands in front of them. -/
theorem children_place {node : Node} {slot : Slot} {nodes : List Node} {front back : List Property}
    (start : Nat)
    (hnode : node.properties = front ++ nodes.map (fun child => (slot, .node child)) ++ back)
    (hfront : ∀ property ∈ front, property.1 ≠ slot)
    (hback : ∀ property ∈ back, property.1 ≠ slot) :
    (node.place start).children slot
      = (placeNodes (start + Text.byteLength (spell front)) nodes).map .node := by
  have hother : ∀ properties : List Property, (∀ property ∈ properties, property.1 ≠ slot) →
      ∀ property ∈ properties, (property.1 == slot) = false := by
    intro properties h property hproperty
    exact beq_eq_false_iff_ne.mpr (h property hproperty)
  have hnodes : ∀ property ∈ nodes.map (fun child => (slot, Child.node child)),
      (property.1 == slot) = true := by
    intro property hproperty
    obtain ⟨child, -, rfl⟩ := List.mem_map.mp hproperty
    exact beq_self_eq_true slot
  rw [children, place_properties, hnode, filter_placeAll (· == slot) start front _ back
    (hother front hfront) hnodes (hother back hback), placeAll_map_node, List.map_map]
  rfl

/-- What does not depend on the position of a tree does not depend on a layout. -/
theorem map_placeNodes {α : Type} {f : Node → α} (h : ∀ node start, f (node.place start) = f node)
    (start : Nat) (nodes : List Node) : (placeNodes start nodes).map f = nodes.map f := by
  induction nodes generalizing start with
  | nil => rfl
  | cons node rest ih =>
      rw [placeNodes, List.map_cons, List.map_cons, h, ih]

mutual
/-- A layout leaves the text alone. -/
theorem sourceText_place (start : Nat) : ∀ node : Node,
    (node.place start).sourceText = node.sourceText
  | ⟨_, _, _, properties⟩ => by simp [place, spell_placeAll start properties]
/-- A layout leaves the text of properties alone. -/
theorem spell_placeAll (start : Nat) : ∀ properties : List Property,
    spell (placeAll start properties) = spell properties
  | [] => rfl
  | (_, .node child) :: rest => by
      simp [placeAll, sourceText_place start child, spell_placeAll _ rest]
  | (_, .token token) :: rest => by simp [placeAll, Token.place, spell_placeAll _ rest]
  | (_, .null) :: rest => by simp [placeAll, spell_placeAll _ rest]
end

attribute [simp] sourceText_place spell_placeAll

/-! ## What a tree contains -/

/-- A tree contains itself and whatever stands below a node it contains. -/
inductive Contains (root : Node) : Node → Prop
  | self : Contains root root
  | step {parent : Node} {slot : Slot} {child : Node} (above : Contains root parent)
      (recorded : (slot, .node child) ∈ parent.properties) : Contains root child

/-- A child as it stands in a text from the given position on. -/
def placeChild (start : Nat) : Child Node → Child Node
  | .node child => .node (child.place start)
  | .token token => .token (token.place start)
  | .null => .null

/-- The text of a child. -/
def childText : Child Node → List Char
  | .node child => child.sourceText
  | .token token => token.text
  | .null => []

theorem placeAll_cons (start : Nat) (slot : Slot) (child : Child Node)
    (rest : List Property) :
    placeAll start ((slot, child) :: rest)
      = (slot, placeChild start child)
        :: placeAll (start + Text.byteLength (childText child)) rest := by
  cases child <;> rfl

theorem spell_cons (slot : Slot) (child : Child Node) (rest : List Property) :
    spell ((slot, child) :: rest) = childText child ++ spell rest := by
  cases child <;> simp [childText]

/-- A child of laid-out properties is laid out behind the text before it. -/
theorem mem_placeAll {start : Nat} {properties : List Property} {slot : Slot}
    {child : Child Node} (h : (slot, child) ∈ placeAll start properties) :
    ∃ front original back, properties = front ++ (slot, original) :: back ∧
      child = placeChild (start + Text.byteLength (spell front)) original := by
  induction properties generalizing start with
  | nil => simp [placeAll] at h
  | cons property rest ih =>
      obtain ⟨headSlot, entry⟩ := property
      rw [placeAll_cons, List.mem_cons] at h
      rcases h with h | h
      · obtain ⟨rfl, rfl⟩ := Prod.mk.inj h
        exact ⟨[], entry, rest, rfl, by simp⟩
      · obtain ⟨front, original, back, rfl, rfl⟩ := ih h
        exact ⟨(headSlot, entry) :: front, original, back, rfl, by
          rw [spell_cons, Text.byteLength_append, Nat.add_assoc]⟩

/-- A node among laid-out properties was one before. -/
theorem node_mem_placeAll {start : Nat} {properties : List Property} {slot : Slot} {child : Node}
    (h : (slot, .node child) ∈ placeAll start properties) :
    ∃ front original back, properties = front ++ (slot, .node original) :: back ∧
      child = original.place (start + Text.byteLength (spell front)) := by
  obtain ⟨front, entry, back, hsplit, hchild⟩ := mem_placeAll h
  cases entry with
  | node original => exact ⟨front, original, back, hsplit, Child.node.inj hchild⟩
  | token token => simp [placeChild] at hchild
  | null => simp [placeChild] at hchild

/-- A token among laid-out properties was one before. -/
theorem token_mem_placeAll {start : Nat} {properties : List Property} {slot : Slot}
    {token : Token} (h : (slot, .token token) ∈ placeAll start properties) :
    ∃ front original back, properties = front ++ (slot, .token original) :: back ∧
      token = original.place (start + Text.byteLength (spell front)) := by
  obtain ⟨front, entry, back, hsplit, htoken⟩ := mem_placeAll h
  cases entry with
  | node child => simp [placeChild] at htoken
  | token original => exact ⟨front, original, back, hsplit, Child.token.inj htoken⟩
  | null => simp [placeChild] at htoken

/-- Whatever a laid-out tree contains is contained in the tree before its layout, and is laid
out where its text stands in the text of the whole. -/
theorem contains_place {start : Nat} {root node : Node} (h : (root.place start).Contains node) :
    ∃ original front back, root.Contains original ∧
      root.sourceText = front ++ original.sourceText ++ back ∧
      node = original.place (start + Text.byteLength front) := by
  induction h with
  | self => exact ⟨root, [], [], .self, by simp, by simp⟩
  | @step _ slot _ _ recorded ih =>
      obtain ⟨parent, front, back, hparent, htext, rfl⟩ := ih
      rw [place_properties] at recorded
      obtain ⟨before, original, behind, hsplit, rfl⟩ := node_mem_placeAll recorded
      have hchild : (slot, .node original) ∈ parent.properties := by
        rw [hsplit]
        simp
      refine ⟨original, front ++ spell before, spell behind ++ back, hparent.step hchild, ?_, ?_⟩
      · rw [htext, parent.sourceText_eq_spell, hsplit]
        simp
      · simp [Nat.add_assoc]

/-! ## Moving -/

mutual
/-- The tree with every position in its spans replaced. -/
def mapSpans (move : Nat → Nat) : Node → Node
  | ⟨kind, ⟨start, stop⟩, attributes, properties⟩ =>
    ⟨kind, ⟨move start, move stop⟩, attributes, mapSpansAll move properties⟩
/-- Properties with every position in their spans replaced. -/
def mapSpansAll (move : Nat → Nat) : List Property → List Property
  | [] => []
  | (slot, .node child) :: rest => (slot, .node (child.mapSpans move)) :: mapSpansAll move rest
  | (slot, .token token) :: rest =>
    (slot, .token { token with span := ⟨move token.span.start, move token.span.stop⟩ })
      :: mapSpansAll move rest
  | (slot, .null) :: rest => (slot, .null) :: mapSpansAll move rest
end

/-- The tree moved so that it begins at the given position: every position in its spans changes
by the same amount. -/
def moveTo (start : Nat) (node : Node) : Node :=
  node.mapSpans fun position => position + start - node.span.start

mutual
/-- A layout moves as a whole. -/
theorem mapSpans_place {move : Nat → Nat} {start : Nat} (node : Node)
    (shifts : ∀ offset, move (start + offset) = move start + offset) :
    (node.place start).mapSpans move = node.place (move start) := by
  obtain ⟨kind, span, attributes, properties⟩ := node
  rw [place, mapSpans, mapSpansAll_placeAll properties shifts, shifts, place]
/-- Laid-out properties move as a whole. -/
theorem mapSpansAll_placeAll {move : Nat → Nat} {start : Nat} (properties : List Property)
    (shifts : ∀ offset, move (start + offset) = move start + offset) :
    mapSpansAll move (placeAll start properties) = placeAll (move start) properties := by
  have hbehind : ∀ width offset,
      move (start + width + offset) = move (start + width) + offset := by
    intro width offset
    rw [Nat.add_assoc, shifts, shifts, Nat.add_assoc]
  match properties with
  | [] => rfl
  | (slot, .node child) :: rest =>
      rw [placeAll, mapSpansAll, mapSpans_place child shifts,
        mapSpansAll_placeAll rest (hbehind _), shifts, placeAll]
  | (slot, .token token) :: rest =>
      rw [placeAll, mapSpansAll, mapSpansAll_placeAll rest (hbehind _), shifts, placeAll]
      simp only [Token.place, shifts]
  | (slot, .null) :: rest =>
      rw [placeAll, mapSpansAll, mapSpansAll_placeAll rest shifts, placeAll]
end

/-- A laid-out tree is moved by laying it out elsewhere. -/
theorem moveTo_place (start other : Nat) (node : Node) :
    (node.place start).moveTo other = node.place other := by
  rw [moveTo, place_span]
  have hshifts : ∀ offset, start + offset + other - start = start + other - start + offset := by
    intro offset
    omega
  rw [mapSpans_place node hshifts, Nat.add_sub_cancel_left]

end Node

end PatternTree
