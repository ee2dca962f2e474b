import PatternTree.Production.CharacterClass
import PatternTree.Proofs.Acceptance.Character
import PatternTree.Proofs.Grammar.Boundary

/-!
# Accepting bracket expressions

A bracket expression is read element by element, and between two elements the production looks
ahead for a hyphen that makes a range.  The grammar knows units only.  The two agree, since the
elements that are read are exactly the units paired from left to right (`chain_pair`,
`exists_pair_of_chain`): looking ahead never changes what is accepted.

* `classAtom_eq_ok_iff` — units;
* `classElement_eq_ok_iff` — elements, where the closing bracket does not come;
* `characterClass_eq_ok_iff` — bracket expressions.
-/

namespace PatternTree.Production

open Grammar

variable {scanner after : Scanner} {node : Node}

/-! ## Ranges -/

/-- Whether a text begins with a hyphen that has a character behind it to end a range. -/
def beginsRange : List Char → Bool
  | '-' :: '\\' :: c :: _ => !(setLetters.contains c || gapLetters.contains c)
  | '-' :: c :: _ => c != ']'
  | _ => false

theorem seesRange_eq (scanner : Scanner) : seesRange scanner = beginsRange scanner.rest := rfl

theorem beginsRange_of_ne {c : Char} {rest : List Char} (h : c ≠ '-') :
    beginsRange (c :: rest) = false := by
  unfold beginsRange
  split
  · next heq => exact absurd (List.cons.inj heq).1 h
  · next heq => exact absurd (List.cons.inj heq).1 h
  · rfl

/-- Behind the hyphen of a range the closing bracket does not come. -/
theorem begins_of_beginsRange {rest : List Char} (h : beginsRange ('-' :: rest) = true) :
    Scanner.begins (reserved .characterClass).contains rest = false := by
  cases rest with
  | nil => rfl
  | cons c rest =>
      rw [Scanner.begins_cons, reserved, List.contains_cons, List.contains_nil, Bool.or_false,
        beq_eq_false_iff_ne]
      rintro rfl
      simp [beginsRange] at h

theorem contains_keywordLetters (c : Char) :
    (setLetters.contains c || gapLetters.contains c)
      = (keywordLetters .characterClass).contains c := by
  have hletters : keywordLetters .characterClass = setLetters ++ gapLetters := rfl
  rw [hletters, Bool.eq_iff_iff]
  simp

/-- A character may end a range. -/
theorem beginsRange_hyphen (upper : Character .characterClass) (rest : List Char) :
    beginsRange ('-' :: (upper.text ++ rest)) = true := by
  cases upper with
  | plain c free =>
      obtain ⟨hbackslash, hbracket⟩ : c ≠ '\\' ∧ c ≠ ']' := by
        simp [reserved] at free
        exact ⟨free.1.2.2.2, free.2⟩
      rw [Character.text_plain, List.singleton_append]
      unfold beginsRange
      split
      · next heq => simp_all
      · next heq => simp_all
      · next hnot => exact absurd rfl (hnot c rest)
  | escape inner =>
      obtain ⟨c, body, hbody, hkeyword⟩ := inner.exists_body_eq_cons
      rw [Character.text_escape, Grammar.Escape.text, hbody, List.cons_append, List.cons_append,
        beginsRange, contains_keywordLetters]
      simpa using hkeyword

/-- Before the closing bracket a range begins just where a hyphen and a character come. -/
theorem beginsRange_units {units : List ClassUnit} {rest : List Char} :
    beginsRange (units.flatMap ClassUnit.text ++ ']' :: rest) = true ↔
      ∃ free upper tail,
        units = .character (.plain '-' free) :: .character upper :: tail := by
  constructor
  · intro h
    cases units with
    | nil => simp [beginsRange] at h
    | cons unit units =>
        cases unit with
        | keyword letter known => simp [ClassUnit.text, beginsRange] at h
        | character inner =>
            cases inner with
            | escape inner => simp [Grammar.Escape.text, beginsRange] at h
            | plain c free =>
                rw [List.flatMap_cons, ClassUnit.text_character, Character.text_plain,
                  List.append_assoc, List.singleton_append] at h
                by_cases hc : c = '-'
                · subst hc
                  cases units with
                  | nil => simp [beginsRange] at h
                  | cons next tail =>
                      cases next with
                      | character upper => exact ⟨free, upper, tail, rfl⟩
                      | keyword letter known =>
                          simp only [List.flatMap_cons, ClassUnit.text, List.cons_append,
                            List.nil_append] at h
                          rw [beginsRange, contains_keywordLetters] at h
                          simp [known] at h
                · rw [beginsRange_of_ne hc] at h
                  simp at h
  · rintro ⟨free, upper, tail, rfl⟩
    have := beginsRange_hyphen upper (tail.flatMap ClassUnit.text ++ ']' :: rest)
    simpa using this

/-! ## Elements -/

/-- The elements of a bracket expression as entries of a repetition.  A character stands for
itself only where no range begins behind it. -/
def classEntries : Entries ClassElement where
  text := ClassElement.text
  properties element := [(.elements, .node element.tree)]
  joins element rest :=
    match element with
    | .unit (.character _) => beginsRange rest = false
    | _ => True
  stops rest := ∀ c ∈ rest.head?, c = ']'
  spell_properties element := by simp

theorem textOf_classEntries (elements : List ClassElement) :
    classEntries.textOf elements = elements.flatMap ClassElement.text := rfl

theorem propertiesOf_classEntries (elements : List ClassElement) :
    classEntries.propertiesOf elements = elementProperties elements :=
  List.map_eq_flatMap.symm

/-- Units that have been paired from left to right may stand before the closing bracket. -/
theorem chain_pair (units : List ClassUnit) (rest : List Char) :
    classEntries.Chain (pair units) (']' :: rest) := by
  fun_induction pair units with
  | case1 lower free upper tail ih => exact ⟨trivial, ih⟩
  | case2 unit tail hnot ih =>
      refine ⟨?_, ih⟩
      cases unit with
      | keyword letter known => trivial
      | character inner =>
          change beginsRange _ = false
          rw [textOf_classEntries, text_pair, ← Bool.not_eq_true, beginsRange_units]
          rintro ⟨free, upper, tail', rfl⟩
          exact hnot inner free upper tail' rfl rfl
  | case3 => exact fun c hc => (Option.some.inj hc).symm

/-- Elements that stand before the closing bracket are units paired from left to right. -/
theorem exists_pair_of_chain {elements : List ClassElement} {rest : List Char}
    (h : classEntries.Chain elements (']' :: rest)) : ∃ units, pair units = elements := by
  induction elements with
  | nil => exact ⟨[], rfl⟩
  | cons element elements ih =>
      obtain ⟨units, rfl⟩ := ih h.2
      cases element with
      | range lower upper =>
          exact ⟨.character lower :: .character (.plain '-' (by decide)) :: .character upper
            :: units, by rw [pair]⟩
      | unit inner =>
          refine ⟨inner :: units, pair.eq_2 _ _ ?_⟩
          rintro lower free upper tail rfl rfl
          have hjoins : beginsRange _ = false := h.1
          rw [textOf_classEntries, text_pair, ← Bool.not_eq_true, beginsRange_units] at hjoins
          exact hjoins ⟨free, upper, tail, rfl⟩

/-! ## Productions -/

/-- Where the closing bracket does not come, a unit is accepted just if the grammar derives
it. -/
theorem classAtom_eq_ok_iff (hregion : scanner.region = .characterClass)
    (hbracket : Scanner.begins (reserved .characterClass).contains scanner.rest = false) :
    classAtom scanner = .ok (node, after) ↔
      ∃ unit : ClassUnit, scanner.Reads unit.text after ∧
        node = unit.tree.place scanner.position := by
  have hset : escapedSet scanner = .ok (node, after) ↔ _ := escapedSet_eq_ok_iff
  have hgap : escapedKeyword .gap gapLetters scanner = .ok (node, after) ↔ _ :=
    escapedKeyword_eq_ok_iff (by simp [gapLetters, keywordKind]) rfl rfl
  have hcharacter : character scanner = .ok (node, after) ↔ _ :=
    character_eq_ok_iff hregion (by decide) hbracket
  have hletters : keywordLetters .characterClass = setLetters ++ gapLetters := rfl
  have hsplit : ∀ c, c ∈ keywordLetters .characterClass ↔ c ∈ setLetters ∨ c ∈ gapLetters := by
    intro c
    rw [hletters, List.mem_append]
  rw [classAtom]
  constructor
  · intro h
    split at h
    · obtain ⟨c, hc, hreads, rfl⟩ := hset.mp h
      exact ⟨.keyword c ((hsplit c).mpr (.inl hc)), hreads, rfl⟩
    · split at h
      · obtain ⟨c, hc, hreads, rfl⟩ := hgap.mp h
        exact ⟨.keyword c ((hsplit c).mpr (.inr hc)), hreads, rfl⟩
      · obtain ⟨inner, hreads, rfl⟩ := hcharacter.mp h
        exact ⟨.character inner, hreads, rfl⟩
  · rintro ⟨unit, hreads, rfl⟩
    cases unit with
    | keyword c known =>
        have hsees : ∀ letters, seesEscaped letters scanner = letters.contains c :=
          fun letters => seesEscaped_of_rest hreads.rest
        simp only [hsees, List.contains_iff_mem]
        split
        · next hmem => exact hset.mpr ⟨c, hmem, hreads, rfl⟩
        · next hsets =>
          have hmem := ((hsplit c).mp known).resolve_left hsets
          rw [if_pos hmem]
          exact hgap.mpr ⟨c, hmem, hreads, rfl⟩
    | character inner =>
        have hsees : ∀ letters, (∀ c ∈ letters, c ∈ keywordLetters .characterClass) →
            seesEscaped letters scanner = false :=
          fun letters hletters => seesEscaped_of_character hreads hletters
        rw [hsees setLetters fun c hc => (hsplit c).mpr (.inl hc),
          hsees gapLetters fun c hc => (hsplit c).mpr (.inr hc)]
        exact hcharacter.mpr ⟨inner, hreads, rfl⟩

/-- A range whose lower end has been read is accepted just if a hyphen and a character come. -/
theorem classRange_eq_ok_iff {lower : Character .characterClass} {start : Nat}
    (hregion : scanner.region = .characterClass) (hrange : seesRange scanner = true)
    (hstart : scanner.position = start + Text.byteLength lower.text) :
    classRange (lower.tree.place start) scanner = .ok (node, after) ↔
      ∃ upper : Character .characterClass, scanner.Reads ('-' :: upper.text) after ∧
        node = (ClassElement.range lower upper).tree.place start := by
  have hcomplete : ∀ {upper : Character .characterClass} {behind last : Scanner},
      scanner.Reads ['-'] behind → behind.Reads upper.text last →
      complete ((((Builder.new .characterClassRange start).extend
          [(.min, .node (lower.tree.place start))]).extend
          [(.sigilToken, .token ((Token.bare .punctuator ['-']).place scanner.position))]).extend
          [(.max, .node (upper.tree.place behind.position))]) last
        = ((ClassElement.range lower upper).tree.place start, last) := by
    intro upper behind last hhyphen hupper
    refine complete_eq (ClassElement.range lower upper).tree ?_ ?_
    · rw [hupper.position, hhyphen.position, hstart]
      simp [ClassElement.text, Nat.add_assoc]
    · rw [Builder.extend_extend, Builder.extend_extend, hhyphen.position, hstart,
        ← lower.sourceText_tree]
      exact (Builder.annotate_nil _).symm
  have hspan : (lower.tree.place start).span.start = start := by simp
  rw [classRange, hspan, record_bind rfl, bind_eq_ok_iff]
  constructor
  · rintro ⟨⟨hyphen, behind⟩, hexpect, h⟩
    obtain ⟨hhyphen, rfl⟩ := Scanner.take?_char_iff.mp (expect_eq_ok_iff.mp hexpect)
    dsimp only at h
    rw [record_bind rfl, bind_eq_ok_iff] at h
    obtain ⟨⟨upper, last⟩, hupper, h⟩ := h
    have hfree : Scanner.begins (reserved .characterClass).contains behind.rest = false := by
      rw [seesRange_eq, hhyphen.rest] at hrange
      exact begins_of_beginsRange hrange
    obtain ⟨inner, hreads, rfl⟩ :=
      (character_eq_ok_iff (hhyphen.region.trans hregion) (by decide) hfree).mp hupper
    dsimp only at h
    rw [record_bind rfl] at h
    obtain ⟨rfl, rfl⟩ := Prod.mk.inj ((pure_eq_ok_iff.mp h).trans (hcomplete hhyphen hreads))
    exact ⟨inner, hhyphen.trans hreads, rfl⟩
  · rintro ⟨upper, hreads, rfl⟩
    obtain ⟨behind, hhyphen, hupper⟩ := Scanner.reads_cons.mp hreads
    have hfree : Scanner.begins (reserved .characterClass).contains behind.rest = false := by
      rw [seesRange_eq, hhyphen.rest] at hrange
      exact begins_of_beginsRange hrange
    refine ⟨_, expect_eq_ok_iff.mpr (Scanner.take?_char_iff.mpr ⟨hhyphen, rfl⟩), ?_⟩
    dsimp only
    rw [record_bind rfl, bind_eq_ok_iff]
    refine ⟨_, (character_eq_ok_iff (hhyphen.region.trans hregion) (by decide) hfree).mpr
      ⟨upper, hupper, rfl⟩, ?_⟩
    dsimp only
    rw [record_bind rfl]
    exact pure_eq_ok_iff.mpr (hcomplete hhyphen hupper).symm

/-- Only a character can begin a range. -/
theorem kind_tree_eq_character_iff (unit : ClassUnit) :
    unit.tree.kind = .character ↔ ∃ inner, unit = .character inner := by
  cases unit with
  | character inner => cases inner <;> simp [ClassUnit.tree, Character.tree]
  | keyword letter known =>
      have hkind : keywordKind letter ≠ .character := by
        unfold keywordKind
        repeat' split
        all_goals decide
      simpa [ClassUnit.tree, keywordTree] using hkind

/-- Where the closing bracket does not come, an element is accepted just if it may stand
here. -/
theorem classElement_eq_ok_iff (hregion : scanner.region = .characterClass)
    (hbracket : Scanner.begins (reserved .characterClass).contains scanner.rest = false) :
    classElement scanner = .ok (node, after) ↔
      ∃ element : ClassElement, scanner.Reads element.text after ∧
        classEntries.joins element after.rest ∧
        node = element.tree.place scanner.position := by
  rw [classElement, bind_eq_ok_iff]
  constructor
  · rintro ⟨⟨atom, behind⟩, hatom, h⟩
    obtain ⟨unit, hreads, rfl⟩ := (classAtom_eq_ok_iff hregion hbracket).mp hatom
    dsimp only at h
    rw [Node.place_kind] at h
    split at h
    · next hrange =>
      obtain ⟨hkind, hsees⟩ := hrange
      obtain ⟨lower, rfl⟩ := (kind_tree_eq_character_iff unit).mp hkind
      obtain ⟨upper, hupper, rfl⟩ := (classRange_eq_ok_iff (hreads.region.trans hregion)
        hsees hreads.position).mp h
      exact ⟨.range lower upper, hreads.trans hupper, trivial, rfl⟩
    · next hrange =>
      obtain ⟨rfl, rfl⟩ := Prod.mk.inj (pure_eq_ok_iff.mp h)
      refine ⟨.unit unit, hreads, ?_, rfl⟩
      cases unit with
      | keyword letter known => trivial
      | character lower =>
          have hkind := (kind_tree_eq_character_iff (.character lower)).mpr ⟨lower, rfl⟩
          change beginsRange after.rest = false
          simpa [hkind, seesRange_eq] using hrange
  · rintro ⟨element, hreads, hjoins, rfl⟩
    cases element with
    | unit inner =>
        refine ⟨_, (classAtom_eq_ok_iff hregion hbracket).mpr ⟨inner, hreads, rfl⟩, ?_⟩
        dsimp only
        rw [Node.place_kind, if_neg]
        · rfl
        · rintro ⟨hkind, hsees⟩
          obtain ⟨lower, rfl⟩ := (kind_tree_eq_character_iff inner).mp hkind
          rw [seesRange_eq] at hsees
          exact absurd (hsees.symm.trans hjoins) (by decide)
    | range lower upper =>
        obtain ⟨behind, hlower, hrest⟩ := Scanner.reads_append.mp hreads
        have hsees : seesRange behind = true := by
          rw [seesRange_eq, hrest.rest]
          exact beginsRange_hyphen upper after.rest
        refine ⟨_, (classAtom_eq_ok_iff hregion hbracket).mpr ⟨.character lower, hlower, rfl⟩, ?_⟩
        dsimp only
        have hkind := (kind_tree_eq_character_iff (.character lower)).mpr ⟨lower, rfl⟩
        rw [Node.place_kind, if_pos ⟨hkind, hsees⟩]
        exact (classRange_eq_ok_iff (hlower.region.trans hregion) hsees hlower.position).mpr
          ⟨upper, hrest, rfl⟩

/-! ## Bracket expressions -/

/-- An element never begins like the closing bracket. -/
theorem exists_text_eq_cons (element : ClassElement) :
    ∃ c text, element.text = c :: text ∧ c ≠ ']' := by
  have hcharacter : ∀ inner : Character .characterClass,
      ∃ c text, inner.text = c :: text ∧ c ≠ ']' := by
    intro inner
    obtain ⟨c, text, htext, hfree⟩ := inner.exists_text_eq_cons
    exact ⟨c, text, htext, List.ne_of_not_mem_cons hfree⟩
  cases element with
  | unit inner =>
      cases inner with
      | character inner => exact hcharacter inner
      | keyword letter known => exact ⟨'\\', [letter], rfl, by decide⟩
  | range lower upper =>
      obtain ⟨c, text, htext, hc⟩ := hcharacter lower
      exact ⟨c, text ++ '-' :: upper.text, by rw [ClassElement.text, htext]; rfl, hc⟩

/-- A bracket expression ends with the text or at the closing bracket. -/
theorem classEnds_iff (scanner : Scanner) :
    (scanner.atEnd || scanner.sees (.char ']')) = true ↔ ∀ c ∈ scanner.rest.head?, c = ']' := by
  rw [Bool.or_eq_true, Scanner.sees_single rfl, Scanner.atEnd, List.isEmpty_iff]
  cases scanner.rest with
  | nil => simp
  | cons c rest => simp

/-- Where a bracket expression does not end, no reserved character comes. -/
theorem begins_of_not_classEnds {scanner : Scanner}
    (h : ¬ (scanner.atEnd || scanner.sees (.char ']')) = true) :
    Scanner.begins (reserved .characterClass).contains scanner.rest = false := by
  rw [classEnds_iff] at h
  cases hrest : scanner.rest with
  | nil => simp [hrest] at h
  | cons c rest => simpa [hrest, reserved] using h

/-- The loop of a bracket expression reads elements up to the closing bracket. -/
theorem nextClassElement_reads (outer : List Frame) :
    Step.ReadsEntries nextClassElement classEntries .characterClass
      (.delimiter ']' (some .characterClass) :: outer) where
  more := by
    intro draft scanner extended behind hkind hframes
    have hregion : scanner.region = .characterClass := by
      rw [Scanner.region, hframes]
      rfl
    have hroom : draft.kind.hasRoom draft.slots .elements = true :=
      Builder.hasRoom_of_many hkind rfl
    rw [nextClassElement]
    constructor
    · intro h
      split at h
      · simp at h
      · next hmore =>
        rw [bind_eq_ok_iff] at h
        obtain ⟨⟨node, after⟩, helement, h⟩ := h
        obtain ⟨element, hreads, hjoins, rfl⟩ :=
          (classElement_eq_ok_iff hregion (begins_of_not_classEnds hmore)).mp helement
        dsimp only at h
        rw [record_bind hroom] at h
        obtain ⟨rfl, rfl⟩ := Prod.mk.inj (Option.some.inj (pure_eq_ok_iff.mp h))
        exact ⟨element, hreads, hjoins, rfl⟩
    · rintro ⟨element, hreads, hjoins, rfl⟩
      have hmore : ¬ (scanner.atEnd || scanner.sees (.char ']')) = true := by
        obtain ⟨c, text, htext, hc⟩ := exists_text_eq_cons element
        have hrest : scanner.rest = c :: (text ++ behind.rest) := by
          rw [hreads.rest]
          exact congrArg (· ++ behind.rest) htext
        rw [classEnds_iff, hrest]
        simpa using hc
      rw [if_neg hmore, (classElement_eq_ok_iff hregion (begins_of_not_classEnds hmore)).mpr
        ⟨element, hreads, hjoins, rfl⟩]
      dsimp only [ok_bind]
      rw [record_bind hroom]
      rfl
  stop := by
    intro draft scanner hkind hframes
    have hroom : draft.kind.hasRoom draft.slots .elements = true :=
      Builder.hasRoom_of_many hkind rfl
    rw [nextClassElement]
    split
    · next hends => exact iff_of_true rfl ((classEnds_iff scanner).mp hends)
    · next hmore =>
      refine iff_of_false ?_ fun hstops => hmore ((classEnds_iff scanner).mpr hstops)
      rw [bind_eq_ok_iff]
      rintro ⟨⟨node, after⟩, _, h⟩
      dsimp only at h
      rw [record_bind hroom] at h
      simp at h
  text_ne_nil := by
    intro element hnil
    obtain ⟨c, text, htext, _⟩ := exists_text_eq_cons element
    exact List.cons_ne_nil c text (htext.symm.trans hnil)

/-- A caret is looked for only once. -/
theorem caret_caret (negated : Bool) (units : List ClassUnit) :
    caret (caret negated units).1 (caret negated units).2 = caret negated units := by
  fun_cases caret negated units with
  | case1 free rest => rfl
  | case2 negated units hnot =>
      unfold caret
      split
      · next free rest hnegated hunits => exact (hnot free rest hnegated hunits).elim
      · rfl

/-- Units stay as they are just if no caret in front of them negates them. -/
theorem caret_eq_self_iff {negated : Bool} {units : List ClassUnit} (rest : List Char) :
    caret negated units = (negated, units) ↔
      (negated = false →
        Scanner.begins (· == '^') (units.flatMap ClassUnit.text ++ ']' :: rest) = false) := by
  unfold caret
  split
  · next free tail => simp
  · next hnot =>
    refine iff_of_true rfl fun hnegated => ?_
    subst hnegated
    cases units with
    | nil => rfl
    | cons unit tail =>
        cases unit with
        | keyword letter known => rfl
        | character inner =>
            cases inner with
            | escape inner => rfl
            | plain c free =>
                have hc : c ≠ '^' := by
                  rintro rfl
                  exact hnot free tail rfl rfl
                simpa using hc

/-- A caret that comes first is read as the mark of a negated bracket expression, wherever the
derivation has put it. -/
theorem exists_caret_eq_self (written : Bool) (spelled : List ClassUnit) :
    ∃ negated units, caret negated units = (negated, units) ∧
      classTree written spelled = classTree negated units ∧
      classText written spelled = classText negated units := by
  obtain ⟨negated, units, hcaret⟩ : ∃ negated units, caret written spelled = (negated, units) :=
    ⟨_, _, rfl⟩
  have hself : caret negated units = (negated, units) := by
    have hagain := caret_caret written spelled
    rwa [hcaret] at hagain
  refine ⟨negated, units, hself, ?_, ?_⟩
  · rw [classTree, hcaret, classTree, hself]
  · have hlisted := text_caret written spelled
    rw [hcaret] at hlisted
    rw [classText, classText, ← hlisted]

/-- The mark of a negated bracket expression is taken just if it comes. -/
theorem negation_eq_iff {mark : Option Token} :
    negation scanner = (mark, after) ↔
      ∃ negated, scanner.Reads (caretText negated) after ∧
        (negated = false → Scanner.begins (· == '^') after.rest = false) ∧
        mark = if negated then some ((Token.bare .keyword ['^']).place scanner.position)
          else none := by
  constructor
  · intro h
    unfold negation at h
    split at h
    · next token behind htake =>
      obtain ⟨hreads, rfl⟩ := Scanner.take?_char_iff.mp htake
      obtain ⟨rfl, rfl⟩ := Prod.mk.inj h
      exact ⟨true, hreads, by simp, rfl⟩
    · next htake =>
      obtain ⟨rfl, rfl⟩ := Prod.mk.inj h
      exact ⟨false, Scanner.reads_nil.mpr rfl,
        fun _ => (Scanner.take?_single_eq_none_iff rfl).mp htake, rfl⟩
  · rintro ⟨negated, hreads, hstop, rfl⟩
    cases negated with
    | true =>
        rw [negation, Scanner.take?_char_iff.mpr ⟨hreads, rfl⟩]
        rfl
    | false =>
        obtain rfl := Scanner.reads_nil.mp hreads
        rw [negation, (Scanner.take?_single_eq_none_iff rfl).mpr (hstop rfl)]
        rfl

/-- What a bracket expression records, laid out where it is read. -/
theorem complete_classTree {negated : Bool} {units : List ClassUnit}
    {first listed behind last : Scanner} (hself : caret negated units = (negated, units))
    (hopen : scanner.Reads ['['] first) (hcaret : first.Reads (caretText negated) listed)
    (hunits : listed.Reads (classEntries.textOf (pair units)) behind)
    (hclose : behind.Reads [']'] last) :
    complete ((((((Builder.new .characterClass scanner.position).extend
        (Node.placeAll scanner.position
          [(.openToken, .token (.opening ['['] ']' (some .characterClass)))])).annotate
        [(.negate, .bool negated)]).extend
        (Node.placeAll first.position [(.negateToken, caretChild negated)])).extend
        (Node.placeAll listed.position (classEntries.propertiesOf (pair units)))).extend
        (Node.placeAll behind.position [(.closeToken, .token (.closing ']'))])) last
      = ((classTree negated units).place scanner.position, last) := by
  have htext : (classTree negated units).sourceText
      = ['['] ++ caretText negated ++ classEntries.textOf (pair units) ++ [']'] := by
    rw [sourceText_classTree, textOf_classEntries, text_pair, classText]
    simp
  refine complete_eq _ ?_ ?_
  · rw [htext]
    exact (((hopen.trans hcaret).trans hunits).trans hclose).position
  · have hfirst : scanner.Reads (Node.spell
        [(.openToken, .token (.opening ['['] ']' (some .characterClass)))]) first := by
      simpa using hopen
    have hsecond : scanner.Reads (Node.spell
        ([(.openToken, .token (.opening ['['] ']' (some .characterClass)))]
          ++ [(.negateToken, caretChild negated)])) listed := by
      simpa using hopen.trans hcaret
    have hthird : scanner.Reads (Node.spell
        ([(.openToken, .token (.opening ['['] ']' (some .characterClass)))]
          ++ [(.negateToken, caretChild negated)]
          ++ classEntries.propertiesOf (pair units))) behind := by
      rw [Node.spell_append, Entries.spell_propertiesOf]
      exact hsecond.trans hunits
    rw [Builder.extend_annotate, Builder.extend_annotate, Builder.extend_annotate,
      extend_placeAll hfirst, extend_placeAll hsecond, extend_placeAll hthird, classTree, hself,
      propertiesOf_classEntries]
    rfl

/-- The closing bracket is recorded behind any number of elements. -/
theorem hasRoom_closeToken {draft : Builder} {start : Nat} {elements : List ClassElement}
    (hkind : draft.kind = .characterClass) (hslots : draft.slots = [.openToken, .negateToken]) :
    (draft.extend (Node.placeAll start (classEntries.propertiesOf elements))).kind.hasRoom
      (draft.extend (Node.placeAll start (classEntries.propertiesOf elements))).slots .closeToken
      = true := by
  refine NodeKind.hasRoom_of_not_mem (by rw [Builder.extend_kind, hkind]; rfl) ?_
  rw [Builder.extend_slots, hslots, Node.map_fst_placeAll, propertiesOf_classEntries]
  simp [elementProperties]

/-- A bracket expression is accepted just if the grammar derives it. -/
theorem characterClass_eq_ok_iff :
    characterClass scanner = .ok (node, after) ↔
      ∃ negated units, scanner.Reads (classText negated units) after ∧
        node = (classTree negated units).place scanner.position := by
  have hchild : ∀ (negated : Bool) (start : Nat), [(Slot.negateToken, Child.ofToken?
      (if negated then some ((Token.bare .keyword ['^']).place start) else none))]
        = Node.placeAll start [(.negateToken, caretChild negated)] := by
    intro negated start
    cases negated <;> rfl
  have hmark : ∀ (negated : Bool) (token : Token),
      (if negated then some token else none).isSome = negated := by
    intro negated token
    cases negated <;> rfl
  rw [characterClass]
  constructor
  · intro h
    split at h
    · simp at h
    · next opening inside hopening =>
      obtain ⟨first, hopen, rfl, rfl⟩ := (Scanner.open?_iff Scanner.take?_char_iff).mp hopening
      rw [record_bind rfl] at h
      cases hnegation : negation (first.push (.delimiter ']' (some .characterClass))) with
      | mk mark listed =>
      obtain ⟨negated, hinside, hstop, rfl⟩ := negation_eq_iff.mp hnegation
      obtain ⟨listed, rfl, hcaret⟩ := Scanner.reads_push.mp hinside
      rw [hnegation, Scanner.push_position] at h
      dsimp only at h
      rw [hmark, note_bind rfl, record_bind rfl, hchild, bind_eq_ok_iff] at h
      obtain ⟨⟨filled, behind⟩, hcollect, h⟩ := h
      obtain ⟨elements, hinside, hchain, rfl⟩ :=
        (collect_eq_ok_iff (nextClassElement_reads listed.frames) rfl rfl).mp hcollect
      obtain ⟨behind, rfl, helements⟩ := Scanner.reads_push.mp hinside
      dsimp only at h
      rw [bind_eq_ok_iff] at h
      obtain ⟨⟨closing, last⟩, hclosing, h⟩ := h
      obtain ⟨hclose, rfl⟩ := Scanner.close?_push_iff.mp (expectClosing_eq_ok_iff.mp hclosing)
      dsimp only at h
      rw [record_bind (hasRoom_closeToken rfl (by cases negated <;> rfl))] at h
      rw [Scanner.push_rest, hclose.rest] at hchain
      obtain ⟨units, rfl⟩ := exists_pair_of_chain hchain
      have hself : caret negated units = (negated, units) := by
        rw [caret_eq_self_iff last.rest]
        intro hnegated
        have hlisted := hstop hnegated
        rwa [Scanner.push_rest, helements.rest, hclose.rest, textOf_classEntries, text_pair]
          at hlisted
      have hcomplete := complete_classTree hself hopen hcaret helements hclose
      obtain ⟨rfl, rfl⟩ := Prod.mk.inj ((pure_eq_ok_iff.mp h).trans hcomplete)
      refine ⟨negated, units, ?_, rfl⟩
      have hreads := ((hopen.trans hcaret).trans helements).trans hclose
      rw [textOf_classEntries, text_pair] at hreads
      simpa [classText] using hreads
  · rintro ⟨written, spelled, hreads, rfl⟩
    obtain ⟨negated, units, hself, htree, hsame⟩ := exists_caret_eq_self written spelled
    have htext : classText written spelled
        = ['['] ++ (caretText negated ++ (classEntries.textOf (pair units) ++ [']'])) := by
      rw [hsame, textOf_classEntries, text_pair, classText]
      simp
    rw [htext] at hreads
    obtain ⟨first, hopen, hinside⟩ := Scanner.reads_append.mp hreads
    obtain ⟨listed, hmarked, hlisted⟩ := Scanner.reads_append.mp hinside
    obtain ⟨behind, helements, hclose⟩ := Scanner.reads_append.mp hlisted
    have hstop : negated = false → Scanner.begins (· == '^') listed.rest = false := by
      rw [helements.rest, hclose.rest, textOf_classEntries, text_pair]
      exact (caret_eq_self_iff after.rest).mp hself
    have hchain : classEntries.Chain (pair units) behind.rest := by
      rw [hclose.rest]
      exact chain_pair units after.rest
    rw [htree, (Scanner.open?_iff Scanner.take?_char_iff).mpr ⟨first, hopen, rfl, rfl⟩]
    dsimp only
    rw [record_bind rfl, negation_eq_iff.mpr
      ⟨negated, Scanner.reads_push.mpr ⟨listed, rfl, hmarked⟩, hstop, rfl⟩]
    dsimp only
    rw [hmark, note_bind rfl, record_bind rfl, Scanner.push_position, hchild, bind_eq_ok_iff]
    refine ⟨_, (collect_eq_ok_iff (nextClassElement_reads listed.frames) rfl rfl).mpr
      ⟨pair units, Scanner.reads_push.mpr ⟨behind, rfl, helements⟩, hchain, rfl⟩, ?_⟩
    dsimp only
    rw [bind_eq_ok_iff]
    refine ⟨_, expectClosing_eq_ok_iff.mpr (Scanner.close?_push_iff.mpr ⟨hclose, rfl⟩), ?_⟩
    dsimp only
    rw [record_bind (hasRoom_closeToken rfl (by cases negated <;> rfl))]
    have hcomplete := complete_classTree hself hopen hmarked helements hclose
    exact pure_eq_ok_iff.mpr hcomplete.symm

end PatternTree.Production
