import PatternTree.Proofs.Acceptance.Literal
import PatternTree.Proofs.Grammar.Part

/-!
# The bodies of trees

The alternatives of a literal or a group and the bars between them are its body.  Of a literal
between slashes without flags, nothing but the body depends on the text between the slashes, so
what texts that are put together mean is said by what becomes of their bodies.  Behind other text
the nodes of a body are the same, moved by the width of that text (`Node.shift`).

* `parse_slashed_iff` — the literals without flags;
* `Grammar.body_unflagged`, `Grammar.body_groupTree` — the bodies of literals and groups;
* `Grammar.bodyText_split`, `Grammar.body_unflagged_split` — a body falls into two before any of its
  alternatives.
-/

namespace PatternTree

namespace Node

/-- The tree with all its spans moved by a number of bytes. -/
def shift (amount : Nat) (node : Node) : Node :=
  node.mapSpans (· + amount)

/-- Properties with all their spans moved by a number of bytes. -/
def shiftAll (amount : Nat) (properties : List Property) : List Property :=
  mapSpansAll (· + amount) properties

/-- A laid-out tree is shifted by laying it out further on. -/
theorem shift_place (amount start : Nat) (node : Node) :
    (node.place start).shift amount = node.place (start + amount) :=
  mapSpans_place node fun offset => Nat.add_right_comm start offset amount

/-- Laid-out properties are shifted by laying them out further on. -/
theorem shiftAll_placeAll (amount start : Nat) (properties : List Property) :
    shiftAll amount (placeAll start properties) = placeAll (start + amount) properties :=
  mapSpansAll_placeAll properties fun offset => Nat.add_right_comm start offset amount

/-- Whether a slot holds a part of a body. -/
def isBodySlot (slot : Slot) : Bool :=
  slot == .alternatives || slot == .separatorTokens

/-- The alternatives of a node and the separators between them, in source order. -/
def body (node : Node) : List Property :=
  node.properties.filter fun property => isBodySlot property.1

/-- A literal has a single alternative, and this has a single element. -/
def HoldsOnly (tree element : Node) : Prop :=
  ∃ alternative, tree.body = [(.alternatives, .node alternative)] ∧
    alternative.properties = [(.elements, .node element)]

/-- The body of a laid-out tree that has other properties in front of it and behind it. -/
theorem body_place {node : Node} {front middle back : List Property} (start : Nat)
    (hnode : node.properties = front ++ middle ++ back)
    (hfront : ∀ property ∈ front, isBodySlot property.1 = false)
    (hmiddle : ∀ property ∈ middle, isBodySlot property.1 = true)
    (hback : ∀ property ∈ back, isBodySlot property.1 = false) :
    (node.place start).body = placeAll (start + Text.byteLength (spell front)) middle := by
  rw [body, place_properties, hnode]
  exact filter_placeAll isBodySlot start front middle back hfront hmiddle hback

end Node

namespace Grammar

/-! ## Literals without flags -/

theorem known_nil : ∀ c ∈ ([] : List Char), c ∈ ['g', 'i', 'm', 's', 'u', 'y'] :=
  List.forall_mem_nil _

/-- The literal of a body, without flags. -/
def unflagged (first : List Item) (others : List (List Item)) : Literal where
  first := first
  others := others
  flags := []
  known := known_nil
  distinct := List.nodup_nil

theorem isBodySlot_bodyProperties (first : List Item) (others : List (List Item)) :
    ∀ property ∈ bodyProperties first others, Node.isBodySlot property.1 = true := by
  rw [bodyProperties, otherProperties_eq]
  intro property hproperty
  rcases List.mem_cons.mp hproperty with rfl | hmem
  · rfl
  · obtain ⟨items, -, hitems⟩ := List.mem_flatMap.mp hmem
    simp only [List.mem_cons, List.not_mem_nil, or_false] at hitems
    rcases hitems with rfl | rfl <;> rfl

/-- The body of a literal stands behind the first slash. -/
theorem body_unflagged (first : List Item) (others : List (List Item)) :
    ((unflagged first others).tree.place 0).body
      = Node.placeAll 1 (bodyProperties first others) := by
  have hwidth : Text.byteLength ['/'] = 1 := by decide
  have hproperties : (unflagged first others).tree.properties
      = [(.openToken, .token (.opening ['/'] '/' (some .pattern)))] ++ bodyProperties first others
        ++ [(.closeToken, .token (.closing '/')), (.flags, .node (flagsTree []))] := by
    simp [Literal.tree, unflagged]
  have hbody := Node.body_place 0 hproperties (by simp [Node.isBodySlot])
    (isBodySlot_bodyProperties first others) (by simp [Node.isBodySlot])
  simpa [hwidth] using hbody

/-- The body of a group stands behind what opens it. -/
theorem body_groupTree (capturing : Bool) (first : List Item) (others : List (List Item))
    (start : Nat) :
    ((Atom.group capturing first others).tree.place start).body
      = Node.placeAll (start + Text.byteLength (opener capturing))
        (bodyProperties first others) := by
  have hproperties : (Atom.group capturing first others).tree.properties
      = [(.openToken, .token (.opening (opener capturing) ')' none))]
        ++ bodyProperties first others ++ [(.closeToken, .token (.closing ')'))] := by
    simp [Atom.tree_group]
  have hbody := Node.body_place start hproperties (by simp [Node.isBodySlot])
    (isBodySlot_bodyProperties first others) (by simp [Node.isBodySlot])
  simpa using hbody

/-! ## Parts of bodies -/

/-- The text of alternatives with a bar behind each of them. -/
def barredText (alternatives : List (List Item)) : List Char :=
  alternatives.flatMap fun items => alternativeText items ++ ['|']

/-- The children that record alternatives with a bar behind each of them. -/
def barredProperties (alternatives : List (List Item)) : List Property :=
  alternatives.flatMap fun items =>
    [(.alternatives, .node (alternativeTree items)),
      (.separatorTokens, .token (.bare .punctuator ['|']))]

@[simp] theorem spell_barredProperties (alternatives : List (List Item)) :
    Node.spell (barredProperties alternatives) = barredText alternatives := by
  induction alternatives with
  | nil => rfl
  | cons items rest ih => simpa [barredProperties, barredText] using ih

/-- The first of some alternatives with a bar behind each of them. -/
theorem barredProperties_cons (items : List Item) (rest : List (List Item)) :
    barredProperties (items :: rest) = (.alternatives, .node (alternativeTree items))
      :: (.separatorTokens, .token (.bare .punctuator ['|'])) :: barredProperties rest := rfl

/-- What records a body falls into two before any of its alternatives. -/
theorem bodyProperties_split {first middle : List Item} {others front back : List (List Item)}
    (h : first :: others = front ++ middle :: back) :
    bodyProperties first others = barredProperties front ++ bodyProperties middle back := by
  induction front generalizing first others with
  | nil =>
      obtain ⟨rfl, rfl⟩ := List.cons.inj h
      rfl
  | cons items front ih =>
      obtain ⟨rfl, hothers⟩ := List.cons.inj h
      cases others with
      | nil => simp at hothers
      | cons next others =>
          rw [barredProperties_cons, List.cons_append, List.cons_append, ← ih hothers]
          simp [bodyProperties, otherProperties, alternativeTree]

/-- The text of a body falls into two before any of its alternatives. -/
theorem bodyText_split {first middle : List Item} {others front back : List (List Item)}
    (h : first :: others = front ++ middle :: back) :
    alternativeText first ++ othersText others
      = barredText front ++ (alternativeText middle ++ othersText back) := by
  have hspell := congrArg Node.spell (bodyProperties_split h)
  rwa [Node.spell_append, spell_barredProperties, spell_bodyProperties,
    spell_bodyProperties] at hspell

/-- The body of a literal falls into two before any of its alternatives. -/
theorem body_unflagged_split {first middle : List Item} {others front back : List (List Item)}
    (h : first :: others = front ++ middle :: back) :
    ((unflagged first others).tree.place 0).body
      = Node.placeAll 1 (barredProperties front)
        ++ (.alternatives, .node ((alternativeTree middle).place
            (1 + Text.byteLength (barredText front))))
        :: Node.placeAll (1 + Text.byteLength (barredText front)
            + Text.byteLength (alternativeText middle)) (otherProperties back) := by
  rw [body_unflagged, bodyProperties_split h, Node.placeAll_append, spell_barredProperties,
    bodyProperties, Node.placeAll, sourceText_alternativeTree]

end Grammar

open Grammar

/-- A text between slashes. -/
def slashed (body : List Char) : List Char :=
  '/' :: (body ++ ['/'])

/-- A literal is one without flags and its flags behind that. -/
theorem text_eq_unflagged (literal : Literal) :
    literal.text = (unflagged literal.first literal.others).text ++ literal.flags := by
  simp [Literal.text, unflagged]

/-- A text between slashes has no flags behind them. -/
theorem flags_eq_nil {literal : Literal} {body : List Char} (h : literal.text = slashed body) :
    literal.flags = [] := by
  have hends : literal.text.getLast? = some '/' := by
    rw [h, slashed, ← List.cons_append]
    exact List.getLast?_concat
  cases hflags : literal.flags with
  | nil => rfl
  | cons c flags =>
      have hlast : literal.text.getLast? = (c :: flags).getLast? := by
        rw [text_eq_unflagged, hflags, List.getLast?_append, List.getLast?_cons]
        rfl
      have hmem : '/' ∈ literal.flags := by
        rw [hflags]
        exact List.mem_of_getLast? (hlast.symm.trans hends)
      exact absurd (literal.known _ hmem) (by decide)

/-- The trees of texts between slashes are those of bodies. -/
theorem parse_slashed_iff {body : List Char} {tree : Node} :
    parse (slashed body) = .ok tree ↔
      ∃ first others, (∀ items ∈ first :: others, AdmissibleAlternative 64 items) ∧
        alternativeText first ++ othersText others = body ∧
        tree = (unflagged first others).tree.place 0 := by
  rw [parse_eq_ok_iff]
  constructor
  · rintro ⟨literal, hadmissible, htext, rfl⟩
    have hflags := flags_eq_nil htext
    obtain ⟨first, others, flags, known, distinct⟩ := literal
    obtain rfl : flags = [] := hflags
    refine ⟨first, others, hadmissible, ?_, rfl⟩
    have hbody : slashed (alternativeText first ++ othersText others) = slashed body := htext
    exact List.append_cancel_right (List.cons.inj hbody).2
  · rintro ⟨first, others, hadmissible, rfl, rfl⟩
    exact ⟨unflagged first others, hadmissible, rfl, rfl⟩

end PatternTree
