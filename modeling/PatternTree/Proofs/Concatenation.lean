import PatternTree.Proofs.Bodies
import PatternTree.Proofs.Numeral

/-!
# Putting bodies one behind the other

At the seam between two bodies the last alternative of the one goes on with the first alternative
of the other.  What stands behind the seam is seen from in front of it in two ways only.  An atom
without a quantifier is applied to by what begins like one, and of this only a brace can begin an
atom.  A quantifier looks for bounds in braces behind it, so it sees past a brace in front of the
seam; a digit behind the seam must not follow.

* `joins_append_of_seam` — one item before the seam;
* `seamless_append` — the items of the two alternatives;
* `parse_concatenation` — whole bodies.
-/

namespace PatternTree

/-- An alternative that goes on with the elements of another one. -/
def Node.continued (front back : Node) : Node :=
  { front with
    span := ⟨front.span.start, back.span.stop⟩
    properties := front.properties ++ back.properties }

namespace Grammar

/-! ## Seams -/

/-- Any item may stand before a text that begins neither like a quantifier nor with a brace. -/
theorem joins_of_head {item : Item} {text : List Char}
    (h : ∀ c ∈ text.head?, c ∉ ['*', '+', '?', '{']) : Joins item text := by
  obtain ⟨atom, quantifier⟩ := item
  cases quantifier with
  | none => exact h
  | some quantifier =>
      cases text with
      | nil => rfl
      | cons c text =>
          apply beginsBounds_cons_of_ne
          rintro rfl
          exact h _ rfl (by decide)

/-- An item before a text may stand before a longer one that goes on neither like a quantifier nor
with a brace, nor with a digit if there is a brace in front of it. -/
theorem joins_append_of_seam {item : Item} {text later : List Char} (h : Joins item text)
    (hhead : ∀ c ∈ later.head?, c ∉ ['*', '+', '?', '{'])
    (hdigit : text.getLast? = some '{' → ∀ c ∈ later.head?, Numeral.isDigit 10 c = false) :
    Joins item (text ++ later) := by
  by_cases hempty : text = []
  · subst hempty
    exact joins_of_head hhead
  by_cases hbrace : text = ['{']
  · subst hbrace
    obtain ⟨atom, quantifier⟩ := item
    cases quantifier with
    | none => exact h
    | some quantifier =>
        cases later with
        | nil => rfl
        | cons c later => exact hdigit rfl c rfl
  · apply joins_append hempty hbrace
    rwa [List.append_nil]

theorem alternativeText_append (front back : List Item) :
    alternativeText (front ++ back) = alternativeText front ++ alternativeText back := by
  rw [alternativeText_eq, alternativeText_eq, alternativeText_eq, List.flatMap_append]

/-- An alternative begins like an item, not like a quantifier. -/
theorem alternativeText_head (items : List Item) :
    ∀ c ∈ (alternativeText items).head?, c ∉ ['*', '+', '?'] := by
  cases items with
  | nil => simp [alternativeText]
  | cons item items =>
      obtain ⟨d, text, htext, hd⟩ := exists_itemText_eq_cons item
      rw [alternativeText_eq, List.flatMap_cons, htext]
      intro c hc
      obtain rfl : d = c := by simpa using hc
      exact fun hmem => hd (List.mem_append_left ['|', ')', '/'] hmem)

/-- Two alternatives make one, unless there is a brace behind the seam, or a brace in front of it
and a digit behind it. -/
theorem seamless_append {items later : List Item} (hitems : Seamless items)
    (hlater : Seamless later) (hbrace : ∀ c ∈ (alternativeText later).head?, c ≠ '{')
    (hdigit : (alternativeText items).getLast? = some '{' →
      ∀ c ∈ (alternativeText later).head?, Numeral.isDigit 10 c = false) :
    Seamless (items ++ later) := by
  induction items with
  | nil => exact hlater
  | cons item items ih =>
      have hhead : ∀ c ∈ (alternativeText later).head?, c ∉ ['*', '+', '?', '{'] := by
        intro c hc hmem
        rcases List.mem_append.mp (show c ∈ ['*', '+', '?'] ++ ['{'] from hmem) with hsigil | hopen
        · exact alternativeText_head later c hc hsigil
        · exact hbrace c hc (List.mem_singleton.mp hopen)
      -- where the items behind the first one end with a brace, so do all of them
      have hrest : (alternativeText items).getLast? = some '{' →
          ∀ c ∈ (alternativeText later).head?, Numeral.isDigit 10 c = false := by
        intro hlast
        apply hdigit
        rw [alternativeText_eq, List.flatMap_cons, ← alternativeText_eq, List.getLast?_append,
          hlast]
        rfl
      refine ⟨?_, ih hitems.2 hrest⟩
      have hjoins := joins_append_of_seam hitems.1 hhead hrest
      rwa [← alternativeText_append] at hjoins

theorem AdmissibleAlternative.append {levels : Nat} {items later : List Item}
    (h : AdmissibleAlternative levels items) (hlater : AdmissibleAlternative levels later)
    (hbrace : ∀ c ∈ (alternativeText later).head?, c ≠ '{')
    (hdigit : (alternativeText items).getLast? = some '{' →
      ∀ c ∈ (alternativeText later).head?, Numeral.isDigit 10 c = false) :
    AdmissibleAlternative levels (items ++ later) :=
  ⟨seamless_append h.1 hlater.1 hbrace hdigit, List.forall_mem_append.mpr ⟨h.2, hlater.2⟩⟩

/-! ## Bodies -/

/-- The tree of two alternatives in one, laid out. -/
theorem place_alternativeTree_append (front back : List Item) (start : Nat) :
    (alternativeTree (front ++ back)).place start
      = ((alternativeTree front).place start).continued
        ((alternativeTree back).place (start + Text.byteLength (alternativeText front))) := by
  have hproperties : itemProperties (front ++ back)
      = itemProperties front ++ itemProperties back := by
    rw [itemProperties_eq, itemProperties_eq, itemProperties_eq, List.map_append]
  simp [alternativeTree, Node.bare, Node.place, Node.continued, hproperties, Node.placeAll_append,
    Nat.add_assoc]

/-- The last alternative of a body goes on with the first alternative of another one. -/
theorem body_joined {first next last first' : List Item}
    {others further init others' : List (List Item)} {width : Nat}
    (hsplit : first :: others = init ++ [last])
    (hjoined : first' :: others' = init ++ (last ++ next) :: further)
    (hwidth : width = Text.byteLength (barredText init) + Text.byteLength (alternativeText last)) :
    ∃ front before behind back,
      ((unflagged first others).tree.place 0).body = front ++ [(.alternatives, .node before)] ∧
      ((unflagged next further).tree.place 0).body = (.alternatives, .node behind) :: back ∧
      ((unflagged first' others').tree.place 0).body
        = front ++ (.alternatives, .node (before.continued (behind.shift width)))
          :: Node.shiftAll width back := by
  have hbody : ((unflagged first others).tree.place 0).body = _ := body_unflagged_split hsplit
  have hnext : next :: further = [] ++ next :: further := rfl
  have hother : ((unflagged next further).tree.place 0).body = _ := body_unflagged_split hnext
  refine ⟨_, _, _, _, hbody, hother, ?_⟩
  have hstart : Text.byteLength (barredText []) = 0 := rfl
  have hwidth' : Text.byteLength (alternativeText (last ++ next))
      = Text.byteLength (alternativeText last) + Text.byteLength (alternativeText next) := by
    rw [alternativeText_append, Text.byteLength_append]
  have hbehind : 1 + Text.byteLength (barredText []) + width
      = 1 + Text.byteLength (barredText init) + Text.byteLength (alternativeText last) := by
    omega
  have hback : 1 + Text.byteLength (barredText []) + Text.byteLength (alternativeText next) + width
      = 1 + Text.byteLength (barredText init)
        + Text.byteLength (alternativeText (last ++ next)) := by
    omega
  rw [body_unflagged_split hjoined, Node.shift_place, Node.shiftAll_placeAll,
    place_alternativeTree_append, hbehind, hback]

end Grammar

open Grammar

/-- **Bodies may stand one behind the other**, unless the second begins with a brace, or with a
digit behind a brace. -/
theorem parse_concatenation {body other : List Char} {tree otherTree : Node}
    (h : parse (slashed body) = .ok tree) (hother : parse (slashed other) = .ok otherTree)
    (hbrace : other.head? ≠ some '{')
    (hdigit : ¬ (body.getLast? = some '{' ∧ ∃ c ∈ other.head?, c.isDigit = true)) :
    ∃ joined front last first back, parse (slashed (body ++ other)) = .ok joined ∧
      tree.body = front ++ [(.alternatives, .node last)] ∧
      otherTree.body = (.alternatives, .node first) :: back ∧
      joined.body = front
        ++ (.alternatives, .node (last.continued (first.shift (Text.byteLength body))))
          :: Node.shiftAll (Text.byteLength body) back := by
  obtain ⟨first, others, hadmissible, rfl, rfl⟩ := parse_slashed_iff.mp h
  obtain ⟨next, further, hadmissible', rfl, rfl⟩ := parse_slashed_iff.mp hother
  obtain ⟨init, last, hsplit⟩ : ∃ init last, first :: others = init ++ [last] :=
    ⟨_, _, (List.dropLast_concat_getLast (List.cons_ne_nil first others)).symm⟩
  obtain ⟨first', others', hjoined⟩ :
      ∃ first' others', first' :: others' = init ++ (last ++ next) :: further := by
    cases init <;> exact ⟨_, _, rfl⟩
  have htext := bodyText_split hsplit
  rw [othersText, List.append_nil] at htext
  have htext' := bodyText_split hjoined
  rw [alternativeText_append, List.append_assoc] at htext'
  rw [hsplit] at hadmissible
  obtain ⟨hinit, hlast⟩ := List.forall_mem_append.mp hadmissible
  obtain ⟨hnext, hfurther⟩ := List.forall_mem_cons.mp hadmissible'
  have hseam : AdmissibleAlternative 64 (last ++ next) := by
    have hheads : ∀ c ∈ (alternativeText next).head?,
        c ∈ (alternativeText next ++ othersText further).head? := by
      intro c hc
      rw [List.head?_append, Option.mem_def.mp hc]
      rfl
    apply (List.forall_mem_singleton.mp hlast).append hnext
    · rintro c hc rfl
      exact hbrace (hheads _ hc)
    · intro hends c hc
      rw [Numeral.isDigit_ten, Bool.eq_false_iff]
      intro hc'
      refine hdigit ⟨?_, c, hheads c hc, hc'⟩
      rw [htext, List.getLast?_append, hends]
      rfl
  have hall : ∀ items ∈ first' :: others', AdmissibleAlternative 64 items := by
    rw [hjoined]
    exact List.forall_mem_append.mpr ⟨hinit, List.forall_mem_cons.mpr ⟨hseam, hfurther⟩⟩
  have hwidth : Text.byteLength (alternativeText first ++ othersText others)
      = Text.byteLength (barredText init) + Text.byteLength (alternativeText last) := by
    rw [htext, Text.byteLength_append]
  obtain ⟨front, before, behind, back, hbody, hbody', hbody''⟩ := body_joined hsplit hjoined hwidth
  refine ⟨_, front, before, behind, back, parse_slashed_iff.mpr ⟨first', others', hall, ?_, rfl⟩,
    hbody, hbody', hbody''⟩
  rw [htext, htext', List.append_assoc]

/-- A brace behind a quantifier, with a character and a bar behind it. -/
theorem concatenation_example :
    ∃ tree otherTree, parse (slashed ['a', '|', '\x7b', '*', '\x7b']) = .ok tree ∧
      parse (slashed ['é', '|']) = .ok otherTree ∧
      ∃ joined front last first back,
        parse (slashed (['a', '|', '\x7b', '*', '\x7b'] ++ ['é', '|'])) = .ok joined ∧
        tree.body = front ++ [(.alternatives, .node last)] ∧
        otherTree.body = (.alternatives, .node first) :: back ∧
        joined.body = front
          ++ (.alternatives, .node (last.continued (first.shift 5))) :: Node.shiftAll 5 back := by
  have hbraces : AdmissibleAlternative 64
      [(.character (.plain '\x7b' (by decide)), some (.sigil '*' (by decide))),
        (.character (.plain '\x7b' (by decide)), none)] := by
    constructor
    · simp [Seamless, Joins, alternativeText, Atom.text, quantifierText, beginsBounds]
    · simp
  have htree : parse (slashed ['a', '|', '\x7b', '*', '\x7b']) = .ok _ := parse_slashed_iff.mpr
    ⟨[(.character (.plain 'a' (by decide)), none)], [_], List.forall_mem_cons.mpr
      ⟨admissible_singleton Atom.admissible_character, List.forall_mem_singleton.mpr hbraces⟩,
      rfl, rfl⟩
  have hother : parse (slashed ['é', '|']) = .ok _ := parse_slashed_iff.mpr
    ⟨[(.character (.plain 'é' (by decide)), none)], [[]], List.forall_mem_cons.mpr
      ⟨admissible_singleton Atom.admissible_character,
        List.forall_mem_singleton.mpr ⟨trivial, List.forall_mem_nil _⟩⟩, rfl, rfl⟩
  have hdigit : ¬ (['a', '|', '\x7b', '*', '\x7b'].getLast? = some '\x7b' ∧
      ∃ c ∈ ['é', '|'].head?, c.isDigit = true) := by
    rintro ⟨-, c, hc, hc'⟩
    obtain rfl : 'é' = c := Option.some.inj hc
    exact absurd hc' (by decide)
  exact ⟨_, _, htree, hother, parse_concatenation htree hother (by decide) hdigit⟩

end PatternTree
