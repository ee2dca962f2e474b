import PatternTree.Proofs.Bodies
import PatternTree.Proofs.Legible
import PatternTree.Proofs.Lossless

/-!
# The units of bracket expressions

What stands between the brackets falls into units in one way only: behind a backslash the next
character decides which unit this is and how far it reaches, and any other character is a unit of
its own.  So it makes sense to speak of *the* units of a bracket expression.  The elements of its
node are these units, paired into ranges from left to right (`Grammar.pair`).

* `Grammar.ClassUnit.legible` — a unit shows where it ends;
* `Grammar.FallsInto.unique` — what stands between the brackets falls into units in one way;
* `Grammar.units_pair` — pairing neither loses nor repeats nor moves a unit;
* `parse_class_elements` — the elements of the bracket expressions in a pattern literal.
-/

namespace PatternTree

namespace Grammar

open Text (Legible Anything)

/-! ## Units show where they end -/

/-- A code is as long as its letter and its braces tell. -/
theorem Code.legible : Legible Code.text Anything := by
  have hblock : ∀ {digits digits' r s : List Char}, digits.length = digits'.length →
      digits ++ r = digits' ++ s → digits = digits' ∧ r = s :=
    fun hlength h => List.append_inj h hlength
  have hbrace : ∀ {digits r s : List Char}, digits.all (Numeral.isDigit 16) = true →
      digits.length = 4 → digits ++ r ≠ '{' :: s := by
    intro digits r s hex hsize h
    cases digits with
    | nil => simp at hsize
    | cons c digits =>
        obtain rfl : c = '{' := (List.cons.inj h).1
        simp [Numeral.isDigit, Numeral.digitValue?] at hex
  have hrun : ∀ {digits r : List Char}, digits.all (Numeral.isDigit 16) = true →
      (digits ++ '}' :: r).takeWhile (Numeral.isDigit 16) = digits := by
    intro digits r hex
    exact Text.takeWhile_append_of_stops (List.all_eq_true.mp hex)
      (Text.stopsRun_cons.mpr (by decide))
  intro code code' r s _ _ h
  cases code with
  | byte digits hex size =>
      cases code' with
      | byte digits' hex' size' =>
          obtain ⟨rfl, rfl⟩ := hblock (size.trans size'.symm) (List.cons.inj h).2
          exact ⟨rfl, rfl⟩
      | quad digits' hex' size' => simp [Code.text] at h
      | braced digits' hex' size' bounded' => simp [Code.text] at h
  | quad digits hex size =>
      cases code' with
      | byte digits' hex' size' => simp [Code.text] at h
      | quad digits' hex' size' =>
          obtain ⟨rfl, rfl⟩ := hblock (size.trans size'.symm) (List.cons.inj h).2
          exact ⟨rfl, rfl⟩
      | braced digits' hex' size' bounded' => exact absurd (List.cons.inj h).2 (hbrace hex size)
  | braced digits hex size bounded =>
      cases code' with
      | byte digits' hex' size' => simp [Code.text] at h
      | quad digits' hex' size' =>
          exact absurd (List.cons.inj h).2.symm (hbrace hex' size')
      | braced digits' hex' size' bounded' =>
          have hbehind : digits ++ '}' :: r = digits' ++ '}' :: s := by
            simpa [Code.text] using h
          obtain rfl : digits = digits' := by
            rw [← hrun (r := r) hex, hbehind, hrun hex']
          obtain rfl : r = s := by simpa using hbehind
          exact ⟨rfl, rfl⟩

/-- The letter of a code escapes nothing by itself. -/
theorem Code.letter_not_single {region : Region} (code : Code) :
    ¬ (code.letter ∈ fixedLetters ∨ code.letter ∈ specials region) := by
  obtain ⟨hfixed, hspecial⟩ := Production.codeLetter_free region code.letter_mem
  rintro (hmem | hmem)
  · rw [← Production.isSome_fixed?, hfixed] at hmem
    exact absurd hmem (by decide)
  · exact hspecial hmem

/-- The character behind the backslash tells a single escape from a code. -/
theorem Escape.legible (region : Region) :
    Legible (Escape.text : Escape region → List Char) Anything := by
  have hdiffer : ∀ {c : Char} {code : Code} {r s : List Char},
      (c ∈ fixedLetters ∨ c ∈ specials region) → c :: r ≠ code.text ++ s := by
    intro c code r s known h
    obtain ⟨text, htext⟩ := code.text_eq_cons
    rw [htext] at h
    obtain rfl : c = code.letter := (List.cons.inj h).1
    exact code.letter_not_single known
  intro inner inner' r s _ _ h
  have hbody : inner.body ++ r = inner'.body ++ s := (List.cons.inj h).2
  cases inner with
  | single c known =>
      cases inner' with
      | single c' known' =>
          obtain ⟨rfl, rfl⟩ := List.cons.inj hbody
          exact ⟨rfl, rfl⟩
      | coded code' => exact absurd hbody (hdiffer known)
  | coded code =>
      cases inner' with
      | single c' known' => exact absurd hbody.symm (hdiffer known')
      | coded code' =>
          obtain ⟨rfl, rfl⟩ := Code.legible trivial trivial hbody
          exact ⟨rfl, rfl⟩

/-- A plain character is no backslash. -/
theorem Character.legible (region : Region) :
    Legible (Character.text : Character region → List Char) Anything := by
  have hdiffer : ∀ {c : Char} {r s : List Char},
      (c ∉ ['\r', '\n', '\t', '\\'] ∧ c ∉ reserved region) → c :: r ≠ '\\' :: s := by
    rintro c r s free h
    obtain rfl : c = '\\' := (List.cons.inj h).1
    exact free.1 (by decide)
  intro inner inner' r s _ _ h
  cases inner with
  | plain c free =>
      cases inner' with
      | plain c' free' =>
          obtain ⟨rfl, rfl⟩ := List.cons.inj h
          exact ⟨rfl, rfl⟩
      | escape inner' => exact absurd h (hdiffer free)
  | escape inner =>
      cases inner' with
      | plain c' free' => exact absurd h.symm (hdiffer free')
      | escape inner' =>
          obtain ⟨rfl, rfl⟩ := Escape.legible region trivial trivial h
          exact ⟨rfl, rfl⟩

/-- A letter that names a node escapes nothing. -/
theorem ClassUnit.legible : Legible ClassUnit.text Anything := by
  have hdiffer : ∀ {letter : Char} {inner : Character .characterClass} {r s : List Char},
      letter ∈ keywordLetters .characterClass → '\\' :: letter :: r ≠ inner.text ++ s := by
    intro letter inner r s known h
    cases inner with
    | plain c free =>
        obtain rfl : '\\' = c := (List.cons.inj h).1
        exact free.1 (by decide)
    | escape inner =>
        obtain ⟨c, rest, hbody, hkeyword⟩ := inner.exists_body_eq_cons
        rw [Character.text_escape, Escape.text, hbody] at h
        obtain rfl : letter = c := (List.cons.inj (List.cons.inj h).2).1
        exact hkeyword known
  intro unit unit' r s _ _ h
  cases unit with
  | character inner =>
      cases unit' with
      | character inner' =>
          obtain ⟨rfl, rfl⟩ := Character.legible .characterClass trivial trivial h
          exact ⟨rfl, rfl⟩
      | keyword letter' known' => exact absurd h.symm (hdiffer known')
  | keyword letter known =>
      cases unit' with
      | character inner' => exact absurd h (hdiffer known)
      | keyword letter' known' =>
          obtain ⟨rfl, rfl⟩ := List.cons.inj (List.cons.inj h).2
          exact ⟨rfl, rfl⟩

/-! ## Falling into units -/

/-- What stands between the brackets falls into the given units, behind the mark that negates the
expression.  The mark is there just if a caret comes first. -/
structure FallsInto (inside : List Char) (negated : Bool) (units : List ClassUnit) : Prop where
  text : inside = caretText negated ++ units.flatMap ClassUnit.text
  mark : negated = true ↔ inside.head? = some '^'

/-- There is only one way to fall into units. -/
theorem FallsInto.unique {inside : List Char} {negated negated' : Bool}
    {units units' : List ClassUnit} (h : FallsInto inside negated units)
    (h' : FallsInto inside negated' units') : negated' = negated ∧ units' = units := by
  obtain rfl : negated' = negated := by
    rw [Bool.eq_iff_iff, h.mark, h'.mark]
  have hbegins : ∀ unit : ClassUnit, ∃ c rest, unit.text = c :: rest ∧ c ≠ ']' := by
    intro unit
    cases unit with
    | keyword letter known => exact ⟨'\\', [letter], rfl, by decide⟩
    | character inner =>
        obtain ⟨c, rest, htext, hfree⟩ := inner.exists_text_eq_cons
        exact ⟨c, rest, htext, fun hc => hfree (List.mem_singleton.mpr hc)⟩
  have hsame : units'.flatMap ClassUnit.text = units.flatMap ClassUnit.text :=
    List.append_cancel_left (h'.text.symm.trans h.text)
  have hclosed : units'.flatMap ClassUnit.text ++ [']'] ++ []
      = units.flatMap ClassUnit.text ++ [']'] ++ [] := by
    rw [hsame]
  exact ⟨rfl, (ClassUnit.legible.terminated hbegins trivial trivial hclosed).1⟩

/-- Where no further caret is looked for, the derivation gives the units. -/
theorem fallsInto_of_caret {negated : Bool} {units : List ClassUnit}
    (h : caret negated units = (negated, units)) :
    FallsInto (caretText negated ++ units.flatMap ClassUnit.text) negated units where
  text := rfl
  mark := by
    cases negated with
    | true => simp [caretText]
    | false =>
        have hbegins := (Production.caret_eq_self_iff []).mp h rfl
        constructor
        · intro hfalse
          exact absurd hfalse (by decide)
        · intro hhead
          rw [caretText, if_neg (by decide), List.nil_append] at hhead
          obtain ⟨rest, hrest⟩ := List.head?_eq_some_iff.mp hhead
          rw [hrest] at hbegins
          simp at hbegins

/-! ## Pairing -/

theorem hyphen_free : '-' ∉ ['\r', '\n', '\t', '\\'] ∧ '-' ∉ reserved .characterClass := by
  decide

/-- A hyphen that is not escaped. -/
def hyphen : ClassUnit :=
  .character (.plain '-' hyphen_free)

/-- The units that an element is made of. -/
def ClassElement.units : ClassElement → List ClassUnit
  | .unit inner => [inner]
  | .range lower upper => [.character lower, hyphen, .character upper]

/-- Pairing neither loses nor repeats nor moves a unit. -/
theorem units_pair (units : List ClassUnit) :
    (pair units).flatMap ClassElement.units = units := by
  fun_induction pair units with
  | case1 lower free upper rest ih => simp [ClassElement.units, hyphen, ih]
  | case2 unit rest hnot ih => simp [ClassElement.units, ih]
  | case3 => rfl

/-! ## Bracket expressions in trees -/

/-- A part that is a bracket expression is the tree of one. -/
theorem Part.class_of_kind {node : Node} (h : Part node) (hkind : node.kind = .characterClass) :
    ∃ negated units, node = classTree negated units := by
  have hkeyword : ∀ letter, keywordKind letter ≠ .characterClass := by
    intro letter
    unfold keywordKind
    repeat' split
    all_goals decide
  obtain ⟨⟨atom, quantifier⟩, -, rfl⟩ :=
    h.item_of_kind (by rw [hkind]; decide) (by rw [hkind]; decide)
  cases quantifier with
  | some quantifier => simp [itemTree, quantifiedTree] at hkind
  | none =>
      rw [itemTree, quantifiedTree] at hkind ⊢
      cases atom with
      | charClass negated units => exact ⟨negated, units, by rw [Atom.tree]⟩
      | character inner => simp [Atom.tree, inner.kind_tree] at hkind
      | keyword letter known =>
          rw [Atom.tree, keywordTree, Node.bare_kind] at hkind
          exact absurd hkind (hkeyword letter)
      | sigil c known =>
          rw [Atom.tree, Node.bare_kind, sigilKind] at hkind
          split at hkind
          · simp at hkind
          · split at hkind <;> simp at hkind
      | group capturing first others =>
          rw [Atom.tree_group, Node.bare_kind] at hkind
          cases capturing <;> simp [groupKind] at hkind

/-- The elements of a bracket expression are laid out behind its bracket and its mark. -/
theorem children_classTree {negated : Bool} {units : List ClassUnit} (start : Nat)
    (h : caret negated units = (negated, units)) :
    ((classTree negated units).place start).children .elements
      = (Node.placeNodes (start + (1 + Text.byteLength (caretText negated)))
          ((pair units).map ClassElement.tree)).map .node := by
  have hproperties : (classTree negated units).properties
      = [(.openToken, .token (.opening ['['] ']' (some .characterClass))),
          (.negateToken, caretChild negated)]
        ++ ((pair units).map ClassElement.tree).map (fun node => (.elements, .node node))
        ++ [(.closeToken, .token (.closing ']'))] := by
    rw [classTree, Node.bare_properties, h, List.map_map]
    rfl
  have hwidth : Text.byteLength (Node.spell
      [(.openToken, .token (.opening ['['] ']' (some .characterClass))),
        (.negateToken, caretChild negated)]) = 1 + Text.byteLength (caretText negated) := by
    cases negated <;> decide
  rw [Node.children_place start hproperties (by simp) (by simp), hwidth]

end Grammar

open Grammar Production

/-- **The elements of a bracket expression are its units, paired from left to right.**  What
stands between the brackets falls into units in exactly one way.  A caret that comes first, and
nothing else, negates the expression.  The elements follow one another behind it: from left to
right, a character, a hyphen that is not escaped and a further character make a range, and any
other unit stands alone. -/
theorem parse_class_elements {text : List Char} {tree node : Node} (h : parse text = .ok tree)
    (hnode : tree.Contains node) (hkind : node.kind = .characterClass) :
    ∃ inside negated units, Text.slice? text node.span = some ('[' :: (inside ++ [']'])) ∧
      FallsInto inside negated units ∧
      (∀ negated' units', FallsInto inside negated' units' →
        negated' = negated ∧ units' = units) ∧
      node.attributes = [(.negate, .bool negated)] ∧
      node.children .elements
        = (Node.placeNodes (node.span.start + (1 + Text.byteLength (caretText negated)))
            ((pair units).map ClassElement.tree)).map .node ∧
      (pair units).flatMap ClassElement.units = units := by
  obtain ⟨original, start, hpart, rfl, hslice⟩ := exists_part h hnode
  rw [Node.place_kind] at hkind
  obtain ⟨written, spelled, rfl⟩ := hpart.class_of_kind hkind
  obtain ⟨negated, units, hself, htree, -⟩ := exists_caret_eq_self written spelled
  rw [htree] at hslice ⊢
  have hfalls := fallsInto_of_caret hself
  refine ⟨_, negated, units, ?_, hfalls, fun _ _ => hfalls.unique, ?_, ?_, units_pair units⟩
  · rw [hslice, sourceText_classTree, classText]
  · rw [Node.place_attributes, classTree, hself]
    rfl
  · rw [Node.place_span]
    exact children_classTree start hself

/-- A negated bracket expression with hyphens at both ends of a range, behind a character set and
before the closing bracket. -/
def hyphensLiteral : Literal :=
  unflagged [(.charClass true
    [hyphen, hyphen, hyphen, .keyword 'd' (by decide), hyphen,
      .character (.escape (.coded (.byte ['5', 'a'] (by decide) rfl))), hyphen,
      .character (.plain 'é' (by decide)), hyphen], none)] []

/-- Ranges and hyphens that stand for themselves. -/
theorem class_elements_example :
    ∃ tree node, parse "/[^---\\d-\\x5a-é-]/".toList = .ok tree ∧ tree.Contains node ∧
      node.kind = .characterClass ∧
      (node.nodes .elements).map Node.kind
        = [.characterClassRange, .digitCharacterSet, .character, .characterClassRange,
          .character] ∧
      ∃ inside negated units, Text.slice? "/[^---\\d-\\x5a-é-]/".toList node.span
          = some ('[' :: (inside ++ [']'])) ∧
        FallsInto inside negated units ∧
        (∀ negated' units', FallsInto inside negated' units' →
          negated' = negated ∧ units' = units) ∧
        node.attributes = [(.negate, .bool negated)] ∧
        node.children .elements
          = (Node.placeNodes (node.span.start + (1 + Text.byteLength (caretText negated)))
              ((pair units).map ClassElement.tree)).map .node ∧
        (pair units).flatMap ClassElement.units = units := by
  have hparse : parse "/[^---\\d-\\x5a-é-]/".toList = .ok (hyphensLiteral.tree.place 0) := by
    refine parse_eq_ok_iff.mpr ⟨hyphensLiteral, ?_, by decide +kernel, rfl⟩
    exact List.forall_mem_singleton.mpr (admissible_singleton Atom.admissible_charClass)
  have hclass : (hyphensLiteral.tree.place 0).Contains _ :=
    .step (.step .self (.tail _ (.head _))) (.head _)
  exact ⟨_, _, hparse, hclass, rfl, rfl, parse_class_elements hparse hclass rfl⟩

end PatternTree
