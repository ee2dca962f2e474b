import PatternTree.Production.Alternation
import PatternTree.Proofs.Acceptance.CharacterClass
import PatternTree.Proofs.Grammar.Boundary

/-!
# Accepting atoms

What stands at the beginning of an atom tells how it is read, and with that which rule of the
grammar derives it.  Groups hold alternations, which hold atoms again, to a limited depth: what
is accepted as an atom with some levels left follows from what the groups inside accept with one
level less (`AlternationReader.Accepts`).

* `group_eq_ok_iff` — groups;
* `atom_of_bracket` and the others like it — how an atom is read, by its beginning;
* `atom_eq_ok_iff` — atoms, where an alternative does not end.
-/

namespace PatternTree.Production

open Grammar

variable {scanner after : Scanner} {node : Node} {inner : Option AlternationReader} {levels : Nat}

/-! ## Frames -/

/-- The frames between the slashes, outside bracket expressions. -/
def Inside (frames : List Frame) : Prop :=
  ∃ depth, frames = List.replicate depth (.delimiter ')' none) ++ [.delimiter '/' (some .pattern)]

/-- Reading leads nowhere else. -/
theorem Inside.of_reads {text : List Char} (h : Inside scanner.frames)
    (reads : scanner.Reads text after) : Inside after.frames := by
  rw [reads.frames]
  exact h

/-- Inside a further group one is still inside. -/
theorem Inside.push (h : Inside scanner.frames) :
    Inside (scanner.push (.delimiter ')' none)).frames := by
  obtain ⟨depth, hframes⟩ := h
  exact ⟨depth + 1, congrArg (Frame.delimiter ')' none :: ·) hframes⟩

theorem Inside.region_eq (h : Inside scanner.frames) : scanner.region = .pattern := by
  obtain ⟨depth, hframes⟩ := h
  rw [Scanner.region, hframes]
  clear hframes
  induction depth with
  | zero => rfl
  | succ depth ih => exact ih

/-! ## Groups -/

/-- The kinds of node that hold alternatives. -/
def HoldsBody (kind : NodeKind) : Prop :=
  kind.multiplicity? .alternatives = some .many ∧ kind.multiplicity? .separatorTokens = some .many

/-- A reader accepts a body just if its alternatives are admissible with the given levels, and
records it. -/
def AlternationReader.Accepts (reader : AlternationReader) (levels : Nat) : Prop :=
  ∀ {draft filled : Builder} {scanner after : Scanner}, HoldsBody draft.kind →
    Inside scanner.frames →
    (reader draft scanner = .ok (filled, after) ↔
      ∃ first others, (∀ items ∈ first :: others, AdmissibleAlternative levels items) ∧
        scanner.Reads (alternativeText first ++ othersText others) after ∧ Closes after.rest ∧
        filled = draft.extend (Node.placeAll scanner.position (bodyProperties first others)))

/-- What reads the inside of groups agrees with the levels that are left. -/
def Agrees : Option AlternationReader → Nat → Prop
  | none, levels => levels = 0
  | some reader, levels => ∃ inside, levels = inside + 1 ∧ reader.Accepts inside

/-- The parenthesis that closes a group is recorded behind any body. -/
theorem hasRoom_groupCloseToken {capturing : Bool} {start : Nat} {draft : Builder}
    {first : List Item} {others : List (List Item)} (hkind : draft.kind = groupKind capturing)
    (hslots : draft.slots = [.openToken]) :
    (draft.extend (Node.placeAll start (bodyProperties first others))).kind.hasRoom
      (draft.extend (Node.placeAll start (bodyProperties first others))).slots .closeToken
      = true := by
  refine NodeKind.hasRoom_of_not_mem ?_ ?_
  · rw [Builder.extend_kind, hkind]
    cases capturing <;> rfl
  · rw [Builder.extend_slots, hslots, Node.map_fst_placeAll, bodyProperties, otherProperties_eq]
    simp

/-- What a group records, laid out where it is read. -/
theorem complete_groupTree {capturing : Bool} {first : List Item} {others : List (List Item)}
    {inside behind last : Scanner} (hopen : scanner.Reads (opener capturing) inside)
    (hbody : inside.Reads (alternativeText first ++ othersText others) behind)
    (hclose : behind.Reads [')'] last) :
    complete ((((Builder.new (groupKind capturing) scanner.position).extend
        (Node.placeAll scanner.position
          [(.openToken, .token (.opening (opener capturing) ')' none))])).extend
        (Node.placeAll inside.position (bodyProperties first others))).extend
        (Node.placeAll behind.position [(.closeToken, .token (.closing ')'))])) last
      = ((Atom.group capturing first others).tree.place scanner.position, last) := by
  have htree : (Atom.group capturing first others).tree = .bare (groupKind capturing) []
      ([(.openToken, .token (.opening (opener capturing) ')' none))] ++ bodyProperties first others
        ++ [(.closeToken, .token (.closing ')'))]) :=
    Atom.tree_group capturing first others
  refine complete_eq _ ?_ ?_
  · rw [Atom.sourceText_tree, Atom.text]
    have hreads := (hopen.trans hbody).trans hclose
    rw [← List.append_assoc] at hreads
    exact hreads.position
  · have hfirst : scanner.Reads (Node.spell
        [(.openToken, .token (.opening (opener capturing) ')' none))]) inside := by
      simpa using hopen
    have hsecond : scanner.Reads (Node.spell
        ([(.openToken, .token (.opening (opener capturing) ')' none))]
          ++ bodyProperties first others)) behind := by
      simpa using hopen.trans hbody
    rw [extend_placeAll hfirst, extend_placeAll hsecond, htree]
    exact (Builder.annotate_nil _).symm

/-- A group is accepted just if a level is left for it and its body is admissible with one level
less. -/
theorem group_eq_ok_iff (capturing : Bool) {text : String} (hagrees : Agrees inner levels)
    (hinside : Inside scanner.frames) (htext : text.toList = opener capturing) :
    group inner (groupKind capturing) text scanner = .ok (node, after) ↔
      ∃ first others, (Atom.group capturing first others).Admissible levels ∧
        scanner.Reads (Atom.group capturing first others).text after ∧
        node = (Atom.group capturing first others).tree.place scanner.position := by
  cases inner with
  | none =>
      obtain rfl := hagrees
      rw [group]
      simp [Atom.Admissible]
  | some reader =>
      obtain ⟨below, rfl, haccepts⟩ := hagrees
      have hne : opener capturing ≠ [] := by cases capturing <;> decide
      have hroom : (groupKind capturing).hasRoom [] .openToken = true := by
        cases capturing <;> rfl
      have hholds : HoldsBody (groupKind capturing) := by
        cases capturing <;> exact ⟨rfl, rfl⟩
      rw [group, htext]
      constructor
      · intro h
        dsimp only at h
        split at h
        · simp at h
        · next opening pushed hopening =>
          obtain ⟨inside, hopen, rfl, rfl⟩ :=
            (Scanner.open?_iff (Scanner.take?_word_iff hne)).mp hopening
          rw [record_bind hroom, bind_eq_ok_iff] at h
          obtain ⟨⟨filled, behind⟩, hreader, h⟩ := h
          obtain ⟨first, others, hadmissible, hpushed, -, rfl⟩ :=
            (haccepts hholds (hinside.of_reads hopen).push).mp hreader
          obtain ⟨behind, rfl, hbody⟩ := Scanner.reads_push.mp hpushed
          dsimp only at h
          rw [bind_eq_ok_iff] at h
          obtain ⟨⟨closing, last⟩, hclosing, h⟩ := h
          obtain ⟨hclose, rfl⟩ := Scanner.close?_push_iff.mp (expectClosing_eq_ok_iff.mp hclosing)
          dsimp only at h
          rw [record_bind (hasRoom_groupCloseToken rfl rfl)] at h
          have hcomplete := complete_groupTree hopen hbody hclose
          obtain ⟨rfl, rfl⟩ := Prod.mk.inj ((pure_eq_ok_iff.mp h).trans hcomplete)
          refine ⟨first, others, ?_, ?_, rfl⟩
          · rw [Atom.Admissible]
            exact hadmissible
          · rw [Atom.text, List.append_assoc (opener capturing)]
            exact (hopen.trans hbody).trans hclose
      · rintro ⟨first, others, hadmissible, hreads, rfl⟩
        rw [Atom.Admissible] at hadmissible
        rw [Atom.text, List.append_assoc (opener capturing)] at hreads
        obtain ⟨behind, hopened, hclose⟩ := Scanner.reads_append.mp hreads
        obtain ⟨inside, hopen, hbody⟩ := Scanner.reads_append.mp hopened
        have hcloses : Closes behind.rest := by
          rw [hclose.rest]
          simp [Closes]
        dsimp only
        rw [(Scanner.open?_iff (Scanner.take?_word_iff hne)).mpr ⟨inside, hopen, rfl, rfl⟩]
        dsimp only
        rw [record_bind hroom, (haccepts hholds (hinside.of_reads hopen).push).mpr
          ⟨first, others, hadmissible, Scanner.reads_push.mpr ⟨behind, rfl, hbody⟩, hcloses, rfl⟩,
          ok_bind]
        dsimp only
        rw [expectClosing_eq_ok_iff.mpr (Scanner.close?_push_iff.mpr ⟨hclose, rfl⟩), ok_bind]
        dsimp only
        rw [record_bind (hasRoom_groupCloseToken rfl rfl)]
        have hcomplete := complete_groupTree hopen hbody hclose
        exact pure_eq_ok_iff.mpr hcomplete.symm

/-! ## The beginning of an atom -/

theorem sees_char_of_rest {c d : Char} {rest : List Char} (h : scanner.rest = c :: rest) :
    scanner.sees (.char d) = (c == d) := by
  rw [Scanner.sees_single rfl, h, Scanner.begins_cons]

/-- What opens a group without capturing is seen only where a parenthesis, a question mark and a
colon come. -/
theorem sees_groupOpener_iff :
    scanner.sees (.word "(?:".toList) = true ↔
      ∃ rest, scanner.rest = '(' :: '?' :: ':' :: rest := by
  have hword : "(?:".toList = ['(', '?', ':'] := rfl
  rw [hword, Scanner.sees_word (by decide), List.isPrefixOf_iff_prefix]
  exact exists_congr fun rest => eq_comm

theorem not_sees_groupOpener {c : Char} {rest : List Char} (h : scanner.rest = c :: rest)
    (hne : c ≠ '(') : ¬ scanner.sees (.word "(?:".toList) = true := by
  rw [sees_groupOpener_iff, h]
  rintro ⟨tail, heq⟩
  exact hne (List.cons.inj heq).1

/-- No keyword is seen where no backslash comes. -/
theorem not_seesEscaped {c : Char} {rest : List Char} (h : scanner.rest = c :: rest)
    (hne : c ≠ '\\') (letters : List Char) : ¬ seesEscaped letters scanner = true := by
  rw [seesEscaped_of_begins (by rw [h]; simpa using hne)]
  decide

/-- The keywords of a pattern are word boundaries, gaps and character sets. -/
theorem mem_keywordLetters_iff {c : Char} :
    c ∈ keywordLetters .pattern ↔
      c ∈ wordBoundaryLetters ∨ c ∈ gapLetters ∨ c ∈ setLetters := by
  have hletters : keywordLetters .pattern
      = wordBoundaryLetters ++ (gapLetters ++ setLetters) := rfl
  rw [hletters, List.mem_append, List.mem_append]

/-- Reads a keyword of a pattern whose letter is known. -/
def keywordAtom (letter : Char) (scanner : Scanner) : Attempt (Node × Scanner) :=
  if letter ∈ wordBoundaryLetters then
    escapedKeyword .wordBoundaryAssertion wordBoundaryLetters scanner
  else if letter ∈ gapLetters then
    escapedKeyword .gap gapLetters scanner
  else
    escapedSet scanner

theorem atom_of_bracket {rest : List Char} (h : scanner.rest = '[' :: rest) :
    atom inner scanner = characterClass scanner := by
  rw [atom, if_pos (by rw [sees_char_of_rest h]; rfl)]

theorem atom_of_groupOpener {rest : List Char} (h : scanner.rest = '(' :: '?' :: ':' :: rest) :
    atom inner scanner = group inner (groupKind false) "(?:" scanner := by
  rw [atom, if_neg (by rw [sees_char_of_rest h]; decide),
    if_pos (sees_groupOpener_iff.mpr ⟨rest, h⟩)]
  rfl

theorem atom_of_parenthesis {rest : List Char} (h : scanner.rest = '(' :: rest)
    (hopener : ¬ scanner.sees (.word "(?:".toList) = true) :
    atom inner scanner = group inner (groupKind true) "(" scanner := by
  rw [atom, if_neg (by rw [sees_char_of_rest h]; decide), if_neg hopener,
    if_pos (by rw [sees_char_of_rest h]; rfl)]
  rfl

theorem hasRoom_sigilKind (c : Char) : (sigilKind c).hasRoom [] .sigilToken = true := by
  unfold sigilKind
  split
  · rfl
  · split <;> rfl

theorem atom_of_sigil {c : Char} {rest : List Char} (h : scanner.rest = c :: rest)
    (known : c ∈ ['^', '$', '.']) :
    ∃ what, atom inner scanner = sigil (sigilKind c) (.char c) what scanner := by
  have hsees : ∀ d, scanner.sees (.char d) = (c == d) := fun d => sees_char_of_rest h
  rw [atom]
  simp only [List.mem_cons, List.not_mem_nil, or_false] at known
  rcases known with rfl | rfl | rfl
  · rw [if_neg (by rw [hsees]; decide), if_neg (not_sees_groupOpener h (by decide)),
      if_neg (by rw [hsees]; decide), if_pos (by rw [hsees]; rfl)]
    exact ⟨_, rfl⟩
  · rw [if_neg (by rw [hsees]; decide), if_neg (not_sees_groupOpener h (by decide)),
      if_neg (by rw [hsees]; decide), if_neg (by rw [hsees]; decide),
      if_pos (by rw [hsees]; rfl)]
    exact ⟨_, rfl⟩
  · rw [if_neg (by rw [hsees]; decide), if_neg (not_sees_groupOpener h (by decide)),
      if_neg (by rw [hsees]; decide), if_neg (by rw [hsees]; decide),
      if_neg (by rw [hsees]; decide), if_neg (not_seesEscaped h (by decide) _),
      if_neg (not_seesEscaped h (by decide) _), if_pos (by rw [hsees]; rfl)]
    exact ⟨_, rfl⟩

theorem atom_of_keyword {letter : Char} {rest : List Char}
    (h : scanner.rest = '\\' :: letter :: rest) (known : letter ∈ keywordLetters .pattern) :
    atom inner scanner = keywordAtom letter scanner := by
  have hsees : ∀ d, scanner.sees (.char d) = ('\\' == d) := fun d => sees_char_of_rest h
  have hletters : ∀ letters, seesEscaped letters scanner = letters.contains letter :=
    fun letters => seesEscaped_of_rest h
  rw [atom, keywordAtom, if_neg (by rw [hsees]; decide),
    if_neg (not_sees_groupOpener h (by decide)), if_neg (by rw [hsees]; decide),
    if_neg (by rw [hsees]; decide), if_neg (by rw [hsees]; decide)]
  simp only [hletters, List.contains_iff_mem]
  by_cases hboundary : letter ∈ wordBoundaryLetters
  · rw [if_pos hboundary, if_pos hboundary]
  rw [if_neg hboundary, if_neg hboundary]
  by_cases hgap : letter ∈ gapLetters
  · rw [if_pos hgap, if_pos hgap]
  have hset : letter ∈ setLetters :=
    ((mem_keywordLetters_iff.mp known).resolve_left hboundary).resolve_left hgap
  rw [if_neg hgap, if_neg hgap, if_neg (by rw [hsees]; decide), if_pos hset]

theorem atom_of_character {c : Char} {rest : List Char} (h : scanner.rest = c :: rest)
    (hfree : c ∉ reserved .pattern)
    (hkeyword : seesEscaped (keywordLetters .pattern) scanner = false) :
    atom inner scanner = character scanner := by
  have hchar : ∀ d ∈ reserved .pattern, ¬ scanner.sees (.char d) = true := by
    intro d hd
    rw [sees_char_of_rest h, beq_iff_eq]
    rintro rfl
    exact hfree hd
  have hletters : ∀ letters, (∀ d ∈ letters, d ∈ keywordLetters .pattern) →
      ¬ seesEscaped letters scanner = true := by
    intro letters hknown hsees
    obtain ⟨d, hd, tail, hrest⟩ := seesEscaped_iff.mp hsees
    rw [seesEscaped_iff.mpr ⟨d, hknown d hd, tail, hrest⟩] at hkeyword
    exact Bool.noConfusion hkeyword
  have hparen : c ≠ '(' := by
    rintro rfl
    exact hfree (by decide)
  rw [atom, if_neg (hchar _ (by decide)), if_neg (not_sees_groupOpener h hparen),
    if_neg (hchar _ (by decide)), if_neg (hchar _ (by decide)), if_neg (hchar _ (by decide)),
    if_neg (hletters _ fun d hd => mem_keywordLetters_iff.mpr (.inl hd)),
    if_neg (hletters _ fun d hd => mem_keywordLetters_iff.mpr (.inr (.inl hd))),
    if_neg (hchar _ (by decide)),
    if_neg (hletters _ fun d hd => mem_keywordLetters_iff.mpr (.inr (.inr hd)))]

/-! ## Atoms -/

/-- A keyword of a pattern is accepted just if its letter comes behind a backslash. -/
theorem keywordAtom_eq_ok_iff {letter : Char} {rest : List Char}
    (h : scanner.rest = '\\' :: letter :: rest) (known : letter ∈ keywordLetters .pattern) :
    keywordAtom letter scanner = .ok (node, after) ↔
      scanner.Reads (Atom.keyword letter known).text after ∧
        node = (Atom.keyword letter known).tree.place scanner.position := by
  have hletter : ∀ letters : List Char, letter ∈ letters →
      ((∃ c ∈ letters, scanner.Reads ['\\', c] after ∧
          node = (keywordTree c).place scanner.position) ↔
        scanner.Reads ['\\', letter] after ∧
          node = (keywordTree letter).place scanner.position) := by
    intro letters hmem
    constructor
    · rintro ⟨c, -, hreads, rfl⟩
      have heq : '\\' :: letter :: rest = '\\' :: c :: after.rest := h.symm.trans hreads.rest
      obtain rfl : letter = c := (List.cons.inj (List.cons.inj heq).2).1
      exact ⟨hreads, rfl⟩
    · exact fun hreads => ⟨letter, hmem, hreads⟩
  rw [Atom.text, Atom.tree, keywordAtom]
  by_cases hboundary : letter ∈ wordBoundaryLetters
  · rw [if_pos hboundary, ← hletter _ hboundary]
    exact escapedKeyword_eq_ok_iff (by simp [wordBoundaryLetters, keywordKind]) rfl rfl
  rw [if_neg hboundary]
  by_cases hgap : letter ∈ gapLetters
  · rw [if_pos hgap, ← hletter _ hgap]
    exact escapedKeyword_eq_ok_iff (by simp [gapLetters, keywordKind]) rfl rfl
  have hset : letter ∈ setLetters :=
    ((mem_keywordLetters_iff.mp known).resolve_left hboundary).resolve_left hgap
  rw [if_neg hgap, ← hletter _ hset]
  exact escapedSet_eq_ok_iff

/-- Where an alternative does not end and no quantifier comes, only atoms of the grammar are
accepted. -/
theorem exists_atom_of_eq_ok (hagrees : Agrees inner levels) (hinside : Inside scanner.frames)
    (hends : ¬ Ends scanner.rest)
    (hsigils : Scanner.begins quantifierSigils.contains scanner.rest = false)
    (h : atom inner scanner = .ok (node, after)) :
    ∃ atom : Atom, atom.Admissible levels ∧ scanner.Reads atom.text after ∧
      node = atom.tree.place scanner.position := by
  obtain ⟨c, rest, hrest, hc⟩ : ∃ c rest, scanner.rest = c :: rest ∧ c ∉ ['|', ')', '/'] := by
    cases hrest : scanner.rest with
    | nil => exact absurd (by simp [hrest, Ends]) hends
    | cons c rest => exact ⟨c, rest, rfl, by simpa [hrest, Ends] using hends⟩
  by_cases hbracket : c = '['
  · subst hbracket
    rw [atom_of_bracket hrest] at h
    obtain ⟨negated, units, hreads, rfl⟩ := characterClass_eq_ok_iff.mp h
    exact ⟨.charClass negated units, Atom.admissible_charClass, by rwa [Atom.text],
      by rw [Atom.tree]⟩
  by_cases hopener : scanner.sees (.word "(?:".toList) = true
  · obtain ⟨tail, htail⟩ := sees_groupOpener_iff.mp hopener
    rw [atom_of_groupOpener htail] at h
    obtain ⟨first, others, hadmissible, hreads, rfl⟩ :=
      (group_eq_ok_iff false hagrees hinside rfl).mp h
    exact ⟨_, hadmissible, hreads, rfl⟩
  by_cases hparen : c = '('
  · subst hparen
    rw [atom_of_parenthesis hrest hopener] at h
    obtain ⟨first, others, hadmissible, hreads, rfl⟩ :=
      (group_eq_ok_iff true hagrees hinside rfl).mp h
    exact ⟨_, hadmissible, hreads, rfl⟩
  by_cases hsigil : c ∈ ['^', '$', '.']
  · obtain ⟨what, hatom⟩ :
        ∃ what, atom inner scanner = sigil (sigilKind c) (.char c) what scanner :=
      atom_of_sigil hrest hsigil
    rw [hatom] at h
    obtain ⟨hreads, rfl⟩ := (sigil_eq_ok_iff (hasRoom_sigilKind c)).mp h
    exact ⟨.sigil c hsigil, Atom.admissible_sigil, by rwa [Atom.text], by rw [Atom.tree]⟩
  by_cases hkeyword : seesEscaped (keywordLetters .pattern) scanner = true
  · obtain ⟨letter, known, tail, htail⟩ := seesEscaped_iff.mp hkeyword
    rw [atom_of_keyword htail known] at h
    obtain ⟨hreads, rfl⟩ := (keywordAtom_eq_ok_iff htail known).mp h
    exact ⟨.keyword letter known, Atom.admissible_keyword, hreads, rfl⟩
  have hfree : c ∉ reserved .pattern := by
    rw [hrest, Scanner.begins_cons] at hsigils
    simp only [quantifierSigils, List.contains_cons, List.contains_nil, Bool.or_false,
      Bool.or_eq_false_iff, beq_eq_false_iff_ne] at hsigils
    simp only [List.mem_cons, List.not_mem_nil, or_false, not_or] at hc hsigil
    simp [reserved, hsigils, hbracket, hparen, hsigil, hc]
  rw [atom_of_character hrest hfree (Bool.eq_false_iff.mpr hkeyword)] at h
  have hbegins : Scanner.begins (reserved .pattern).contains scanner.rest = false := by
    rw [hrest, Scanner.begins_cons, ← Bool.not_eq_true, List.contains_iff_mem]
    exact hfree
  obtain ⟨inner, hreads, rfl⟩ :=
    (character_eq_ok_iff hinside.region_eq (by decide) hbegins).mp h
  exact ⟨.character inner, Atom.admissible_character, by rwa [Atom.text], by rw [Atom.tree]⟩

/-- Every atom of the grammar is accepted. -/
theorem atom_eq_ok (hagrees : Agrees inner levels) (hinside : Inside scanner.frames)
    {derived : Atom} (hadmissible : derived.Admissible levels)
    (hreads : scanner.Reads derived.text after) :
    atom inner scanner = .ok (derived.tree.place scanner.position, after) := by
  have hrest := hreads.rest
  cases derived with
  | charClass negated units =>
      rw [Atom.text] at hrest hreads
      rw [atom_of_bracket hrest, Atom.tree]
      exact characterClass_eq_ok_iff.mpr ⟨negated, units, hreads, rfl⟩
  | group capturing first others =>
      cases capturing with
      | false =>
          rw [Atom.text] at hrest
          rw [atom_of_groupOpener hrest]
          exact (group_eq_ok_iff false hagrees hinside rfl).mpr
            ⟨first, others, hadmissible, hreads, rfl⟩
      | true =>
          have hopener : ¬ scanner.sees (.word "(?:".toList) = true := by
            rw [sees_groupOpener_iff, hrest, Atom.text]
            rintro ⟨tail, heq⟩
            have hbody : alternativeText first ++ othersText others ++ ')' :: after.rest
                = '?' :: ':' :: tail := by
              simpa [opener] using heq
            exact body_head_ne '?' (by rw [hbody]; rfl) rfl
          rw [Atom.text] at hrest
          rw [atom_of_parenthesis hrest hopener]
          exact (group_eq_ok_iff true hagrees hinside rfl).mpr
            ⟨first, others, hadmissible, hreads, rfl⟩
  | sigil c known =>
      rw [Atom.text] at hrest hreads
      obtain ⟨what, hatom⟩ :
          ∃ what, atom inner scanner = sigil (sigilKind c) (.char c) what scanner :=
        atom_of_sigil hrest known
      rw [hatom, Atom.tree]
      exact (sigil_eq_ok_iff (hasRoom_sigilKind c)).mpr ⟨hreads, rfl⟩
  | keyword letter known =>
      rw [Atom.text] at hrest
      rw [atom_of_keyword hrest known]
      exact (keywordAtom_eq_ok_iff hrest known).mpr ⟨hreads, rfl⟩
  | character inner =>
      obtain ⟨c, text, htext, hfree⟩ := inner.exists_text_eq_cons
      rw [Atom.text] at hrest hreads
      rw [htext] at hrest
      have hbegins : Scanner.begins (reserved .pattern).contains scanner.rest = false := by
        rw [hrest, List.cons_append, Scanner.begins_cons, ← Bool.not_eq_true,
          List.contains_iff_mem]
        exact hfree
      rw [atom_of_character hrest hfree (seesEscaped_of_character hreads fun _ hd => hd),
        Atom.tree]
      exact (character_eq_ok_iff hinside.region_eq (by decide) hbegins).mpr ⟨inner, hreads, rfl⟩

/-- Where an alternative does not end and no quantifier comes, an atom is accepted just if the
grammar derives it. -/
theorem atom_eq_ok_iff (hagrees : Agrees inner levels) (hinside : Inside scanner.frames)
    (hends : ¬ Ends scanner.rest)
    (hsigils : Scanner.begins quantifierSigils.contains scanner.rest = false) :
    atom inner scanner = .ok (node, after) ↔
      ∃ atom : Atom, atom.Admissible levels ∧ scanner.Reads atom.text after ∧
        node = atom.tree.place scanner.position := by
  constructor
  · exact exists_atom_of_eq_ok hagrees hinside hends hsigils
  · rintro ⟨derived, hadmissible, hreads, rfl⟩
    exact atom_eq_ok hagrees hinside hadmissible hreads

end PatternTree.Production
