import PatternTree.Proofs.Bodies
import PatternTree.Proofs.Nesting
import PatternTree.Proofs.Rejection.Propagation

/-!
# Putting patterns together

Nothing that is read within slashes depends on what stands outside of it, except for what comes
right behind an item: an atom looks for a quantifier behind it, and a quantifier for bounds in
braces.  A bar and a parenthesis are neither, so bodies may be joined by a bar and put in
parentheses without a change to their parts, and one quantifier may stand behind any atom.

* `parse_alternatives`, `parse_group` — bodies joined by a bar and bodies in parentheses;
* `parse_quantified`, `parse_requantified` — a quantifier behind a lone element;
* `parse_composition` — these laws together.
-/

namespace PatternTree

/-- A bar between two alternatives that stands at a position. -/
def bar (start : Nat) : Property :=
  (.separatorTokens, .token (.plain .punctuator ['|'] ⟨start, start + 1⟩))

namespace Grammar

/-! ## Joined bodies -/

/-- What records a body with a bar behind it. -/
theorem barredProperties_eq (first : List Item) (others : List (List Item)) :
    barredProperties (first :: others)
      = bodyProperties first others ++ [(.separatorTokens, .token (.bare .punctuator ['|']))] := by
  induction others generalizing first with
  | nil => rfl
  | cons next others ih =>
      rw [barredProperties_cons, ih next]
      simp [bodyProperties, otherProperties, alternativeTree]

/-- The text of a body with a bar behind it. -/
theorem barredText_eq (first : List Item) (others : List (List Item)) :
    barredText (first :: others) = alternativeText first ++ othersText others ++ ['|'] := by
  have hspell := congrArg Node.spell (barredProperties_eq first others)
  simpa using hspell

/-! ## Lone elements -/

/-- A literal with an only element has a single item. -/
theorem holdsOnly_unflagged_iff {first : List Item} {others : List (List Item)} {element : Node} :
    ((unflagged first others).tree.place 0).HoldsOnly element ↔
      ∃ item, first = [item] ∧ others = [] ∧ element = (itemTree item).place 1 := by
  rw [Node.HoldsOnly, body_unflagged]
  constructor
  · rintro ⟨alternative, hbody, helement⟩
    cases others with
    | cons next others => simp [bodyProperties, otherProperties, Node.placeAll] at hbody
    | nil =>
        obtain rfl : (alternativeTree first).place 1 = alternative := by
          simpa [bodyProperties, otherProperties, Node.placeAll] using hbody
        rw [Node.place_properties, alternativeTree, Node.bare_properties,
          itemProperties_eq] at helement
        cases first with
        | nil => simp [Node.placeAll] at helement
        | cons item rest =>
            cases rest with
            | nil =>
                refine ⟨item, rfl, rfl, ?_⟩
                simpa [Node.placeAll, eq_comm] using helement
            | cons next rest => simp [Node.placeAll] at helement
  · rintro ⟨item, rfl, rfl, rfl⟩
    refine ⟨(alternativeTree [item]).place 1, ?_, ?_⟩
    · simp [bodyProperties, otherProperties, Node.placeAll]
    · rw [Node.place_properties, alternativeTree, Node.bare_properties, itemProperties_eq]
      simp [Node.placeAll]

/-- The text of a body with a single item. -/
theorem bodyText_singleton (item : Item) :
    alternativeText [item] ++ othersText [] = itemText item := by
  rw [alternativeText_eq, othersText, List.flatMap_singleton, List.append_nil]

/-- The tree of an atom is no quantifier. -/
theorem Atom.kind_ne_quantifier (atom : Atom) : atom.tree.kind ≠ .quantifier := by
  intro hkind
  have hmem := atom.kind_mem
  rw [hkind] at hmem
  exact absurd hmem (by decide)

/-- The element of a quantifier is what stands in front of it. -/
theorem children_quantified (atom : Atom) (q : Quantifier) (start : Nat) :
    ((itemTree (atom, some q)).place start).children .element
      = [.node (atom.tree.place start)] := by
  cases q <;>
    simp [Node.children, itemTree, quantifiedTree, Quantifier.properties, bracedProperties,
      Node.placeAll]

end Grammar

open Grammar Production

variable {body : List Char} {tree element : Node}

/-- An item is read between slashes. -/
theorem parse_lone {item : Item} (h : item.1.Admissible 64) :
    parse (slashed (itemText item)) = .ok ((unflagged [item] []).tree.place 0) :=
  parse_slashed_iff.mpr ⟨[item], [], List.forall_mem_singleton.mpr (admissible_singleton h),
    bodyText_singleton item, rfl⟩

/-- Two bodies joined by a bar have the alternatives of the one and of the other. -/
theorem parse_alternatives {other : List Char} {otherTree : Node}
    (h : parse (slashed body) = .ok tree) (hother : parse (slashed other) = .ok otherTree) :
    ∃ joined, parse (slashed (body ++ '|' :: other)) = .ok joined ∧
      joined.body = tree.body ++ bar (1 + Text.byteLength body)
        :: Node.shiftAll (Text.byteLength body + 1) otherTree.body := by
  obtain ⟨first, others, hadmissible, rfl, rfl⟩ := parse_slashed_iff.mp h
  obtain ⟨next, further, hadmissible', rfl, rfl⟩ := parse_slashed_iff.mp hother
  have hsplit : first :: (others ++ next :: further) = (first :: others) ++ next :: further := rfl
  have htext := bodyText_split hsplit
  have hproperties := bodyProperties_split hsplit
  rw [barredText_eq] at htext
  rw [barredProperties_eq] at hproperties
  refine ⟨_, parse_slashed_iff.mpr ⟨first, others ++ next :: further, ?_, ?_, rfl⟩, ?_⟩
  · rw [hsplit]
    exact List.forall_mem_append.mpr ⟨hadmissible, hadmissible'⟩
  · rw [htext]
    simp
  · have hbar : Node.placeAll 1 (bodyProperties first (others ++ next :: further))
        = Node.placeAll 1 (bodyProperties first others)
          ++ bar (1 + Text.byteLength (alternativeText first ++ othersText others))
          :: Node.placeAll (1 + Text.byteLength (alternativeText first ++ othersText others) + 1)
            (bodyProperties next further) := by
      rw [hproperties, List.append_assoc, Node.placeAll_append, spell_bodyProperties]
      rfl
    rw [body_unflagged, body_unflagged, body_unflagged, Node.shiftAll_placeAll, hbar,
      Nat.add_assoc]

/-- A body in parentheses is the body of a group, if there is a level left for it. -/
theorem parse_group (h : parse (slashed body) = .ok tree) (hnests : tree.NestsTo 63)
    (capturing : Bool) :
    ∃ grouped group, parse (slashed (opener capturing ++ body ++ [')'])) = .ok grouped ∧
      grouped.HoldsOnly group ∧ group.kind = groupKind capturing ∧
      group.body = Node.shiftAll (Text.byteLength (opener capturing)) tree.body := by
  obtain ⟨first, others, hadmissible, rfl, rfl⟩ := parse_slashed_iff.mp h
  have hatom : (Atom.group capturing first others).Admissible 64 := by
    rw [Atom.Admissible]
    intro items hitems
    exact (hadmissible items hitems).of_nestsTo
      (Literal.nestsTo_alternative (Node.nestsTo_place.mp hnests) hitems)
  have htext : itemText (Atom.group capturing first others, none)
      = opener capturing ++ (alternativeText first ++ othersText others) ++ [')'] := by
    rw [itemText, Atom.text]
    simp [quantifierText]
  rw [← htext]
  refine ⟨_, _, parse_lone hatom, holdsOnly_unflagged_iff.mpr ⟨_, rfl, rfl, rfl⟩, ?_, ?_⟩
  · rw [Node.place_kind, itemTree, quantifiedTree, Atom.tree_group]
    rfl
  · rw [body_unflagged, Node.shiftAll_placeAll]
    exact body_groupTree capturing first others 1

/-- The text of a lone element is that of an item. -/
theorem exists_item_of_holdsOnly (h : parse (slashed body) = .ok tree)
    (honly : tree.HoldsOnly element) :
    ∃ item : Item, item.1.Admissible 64 ∧ body = itemText item ∧
      element = (itemTree item).place 1 := by
  obtain ⟨first, others, hadmissible, rfl, rfl⟩ := parse_slashed_iff.mp h
  obtain ⟨item, rfl, rfl, rfl⟩ := holdsOnly_unflagged_iff.mp honly
  exact ⟨item, (hadmissible _ List.mem_cons_self).2 _ List.mem_cons_self,
    bodyText_singleton item, rfl⟩

/-- The text of a lone element that is no quantifier is that of an atom. -/
theorem exists_atom_of_holdsOnly (h : parse (slashed body) = .ok tree)
    (honly : tree.HoldsOnly element) (hkind : element.kind ≠ .quantifier) :
    ∃ atom : Atom, atom.Admissible 64 ∧ body = atom.text ∧ element = atom.tree.place 1 := by
  obtain ⟨⟨atom, quantifier⟩, hatom, rfl, rfl⟩ := exists_item_of_holdsOnly h honly
  cases quantifier with
  | some quantifier => exact absurd (Node.place_kind 1 _) hkind
  | none => exact ⟨atom, hatom, List.append_nil _, rfl⟩

/-- A quantifier behind a lone element without a quantifier applies to this element. -/
theorem parse_quantified (h : parse (slashed body) = .ok tree) (honly : tree.HoldsOnly element)
    (hkind : element.kind ≠ .quantifier) (q : Quantifier) :
    ∃ again quantified, parse (slashed (body ++ q.text)) = .ok again ∧
      again.HoldsOnly quantified ∧ quantified.kind = .quantifier ∧
      quantified.children .element = [.node element] := by
  obtain ⟨atom, hatom, rfl, rfl⟩ := exists_atom_of_holdsOnly h honly hkind
  have hparse : parse (slashed (itemText (atom, some q))) = .ok _ := parse_lone hatom
  exact ⟨_, _, hparse, holdsOnly_unflagged_iff.mpr ⟨_, rfl, rfl, rfl⟩, Node.place_kind 1 _,
    children_quantified atom q 1⟩

/-- Where its first alternative is rejected, so is a literal. -/
theorem parse_eq_reject {position : Nat} {kind : ErrorKind}
    (h : ∀ scanner : Scanner, Inside scanner.frames → scanner.position = 1 →
      scanner.rest = body ++ ['/'] →
      alternative (some (alternation 63)) scanner = reject position kind) :
    parse (slashed body) = .error (.rejected ⟨position, kind⟩) := by
  have hopen := Scanner.reads_new_append ['/'] (body ++ ['/'])
  obtain ⟨draft, -, hfails⟩ := pattern_eq_error_of_body hopen
  exact whole_eq_error (hfails _ (alternation_eq_reject
    (h _ (inside_of_opening rfl hopen) rfl rfl)))

/-- A quantifier behind a lone element under a quantifier is rejected. -/
theorem parse_requantified (h : parse (slashed body) = .ok tree) (honly : tree.HoldsOnly element)
    (hkind : element.kind = .quantifier) (q : Quantifier) :
    parse (slashed (body ++ q.text))
      = .error (.rejected ⟨1 + Text.byteLength body, .malformedQuantifier⟩) := by
  obtain ⟨⟨atom, quantifier⟩, hatom, rfl, rfl⟩ := exists_item_of_holdsOnly h honly
  cases quantifier with
  | none =>
      rw [Node.place_kind] at hkind
      exact absurd hkind atom.kind_ne_quantifier
  | some quantifier =>
      apply parse_eq_reject
      intro scanner hinside hposition hrest
      rw [List.append_assoc] at hrest
      obtain ⟨behind, hitem, hbehind⟩ := Scanner.exists_reads hrest
      have hsecond : BeginsQuantifier behind.rest := by
        rw [hbehind]
        exact beginsQuantifier_text q ['/']
      have hagrees : Agrees (some (alternation 63)) 64 := ⟨63, rfl, alternation_accepts 63⟩
      rw [← hposition, ← hitem.position]
      exact alternative_eq_reject hagrees hinside hatom hitem hsecond

/-- **Patterns compose.**  Bodies joined by a bar have their alternatives one behind the other.  A
body in parentheses is the body of a group, if groups nest in it to at most 63 levels.  A quantifier
behind a lone element applies to this element, unless the element has a quantifier already; then it
is rejected. -/
theorem parse_composition (h : parse (slashed body) = .ok tree) :
    (∀ other otherTree, parse (slashed other) = .ok otherTree →
      ∃ joined, parse (slashed (body ++ '|' :: other)) = .ok joined ∧
        joined.body = tree.body ++ bar (1 + Text.byteLength body)
          :: Node.shiftAll (Text.byteLength body + 1) otherTree.body) ∧
    (tree.NestsTo 63 →
      (∃ grouped group, parse (slashed (['('] ++ body ++ [')'])) = .ok grouped ∧
        grouped.HoldsOnly group ∧ group.kind = .capturingGroup ∧
        group.body = Node.shiftAll 1 tree.body) ∧
      ∃ grouped group, parse (slashed (['(', '?', ':'] ++ body ++ [')'])) = .ok grouped ∧
        grouped.HoldsOnly group ∧ group.kind = .group ∧
        group.body = Node.shiftAll 3 tree.body) ∧
    ∀ element (q : Quantifier), tree.HoldsOnly element →
      (element.kind ≠ .quantifier →
        ∃ again quantified, parse (slashed (body ++ q.text)) = .ok again ∧
          again.HoldsOnly quantified ∧ quantified.kind = .quantifier ∧
          quantified.children .element = [.node element]) ∧
      (element.kind = .quantifier →
        parse (slashed (body ++ q.text))
          = .error (.rejected ⟨1 + Text.byteLength body, .malformedQuantifier⟩)) := by
  refine ⟨?_, ?_, ?_⟩
  · intro other otherTree hother
    exact parse_alternatives h hother
  · intro hnests
    exact ⟨parse_group h hnests true, parse_group h hnests false⟩
  · intro element q honly
    constructor
    · intro hkind
      exact parse_quantified h honly hkind q
    · intro hkind
      exact parse_requantified h honly hkind q

/-- A group, and a brace under a quantifier: joined by a bar, in parentheses, and with another
quantifier. -/
theorem composition_examples :
    ∃ groupTree group braceTree brace,
      parse (slashed ['(', 'é', ')']) = .ok groupTree ∧ groupTree.NestsTo 63 ∧
      groupTree.HoldsOnly group ∧ group.kind ≠ .quantifier ∧
      parse (slashed ['\x7b', '*']) = .ok braceTree ∧ braceTree.HoldsOnly brace ∧
      brace.kind = .quantifier ∧
      (∃ joined, parse (slashed (['(', 'é', ')'] ++ '|' :: ['\x7b', '*'])) = .ok joined ∧
        joined.body = groupTree.body ++ bar 5 :: Node.shiftAll 5 braceTree.body) ∧
      ((∃ grouped outer, parse (slashed (['('] ++ ['(', 'é', ')'] ++ [')'])) = .ok grouped ∧
          grouped.HoldsOnly outer ∧ outer.kind = .capturingGroup ∧
          outer.body = Node.shiftAll 1 groupTree.body) ∧
        ∃ grouped outer,
          parse (slashed (['(', '?', ':'] ++ ['(', 'é', ')'] ++ [')'])) = .ok grouped ∧
          grouped.HoldsOnly outer ∧ outer.kind = .group ∧
          outer.body = Node.shiftAll 3 groupTree.body) ∧
      (∃ again quantified, parse (slashed (['(', 'é', ')'] ++ ['+'])) = .ok again ∧
        again.HoldsOnly quantified ∧ quantified.kind = .quantifier ∧
        quantified.children .element = [.node group]) ∧
      parse (slashed (['\x7b', '*'] ++ ['+'])) = .error (.rejected ⟨3, .malformedQuantifier⟩) := by
  obtain ⟨groupItem, hgroupText, hgroupLevels, hgroupKind⟩ : ∃ item : Item,
      itemText item = ['(', 'é', ')'] ∧ (∀ levels, item.1.Admissible (levels + 1)) ∧
      (itemTree item).kind ≠ .quantifier := by
    refine ⟨(.group true [(.character (.plain 'é' (by decide)), none)] [], none), rfl, ?_,
      by decide⟩
    intro levels
    rw [Atom.Admissible]
    exact List.forall_mem_singleton.mpr (admissible_singleton Atom.admissible_character)
  obtain ⟨braceItem, hbraceText, hbraceLevels, hbraceKind⟩ : ∃ item : Item,
      itemText item = ['\x7b', '*'] ∧ item.1.Admissible 64 ∧ (itemTree item).kind = .quantifier :=
    ⟨(.character (.plain '\x7b' (by decide)), some (.sigil '*' (by decide))), rfl,
      Atom.admissible_character, rfl⟩
  have hgroupTree := parse_lone (hgroupLevels 63)
  have hbraceTree := parse_lone hbraceLevels
  rw [hgroupText] at hgroupTree
  rw [hbraceText] at hbraceTree
  have hnests : ((unflagged [groupItem] []).tree.place 0).NestsTo 63 :=
    Node.nestsTo_place.mpr (Literal.shallow (List.forall_mem_singleton.mpr
      (admissible_singleton (hgroupLevels 62)))).nests
  have hgroup := holdsOnly_unflagged_iff.mpr ⟨groupItem, rfl, rfl, rfl⟩
  have hbrace := holdsOnly_unflagged_iff.mpr ⟨braceItem, rfl, rfl, rfl⟩
  rw [← Node.place_kind 1] at hgroupKind hbraceKind
  obtain ⟨halternatives, hgroups, hquantified⟩ := parse_composition hgroupTree
  exact ⟨_, _, _, _, hgroupTree, hnests, hgroup, hgroupKind, hbraceTree, hbrace, hbraceKind,
    halternatives _ _ hbraceTree, hgroups hnests,
    (hquantified _ (.sigil '+' (by decide)) hgroup).1 hgroupKind,
    ((parse_composition hbraceTree).2.2 _ (.sigil '+' (by decide)) hbrace).2 hbraceKind⟩

end PatternTree
