import PatternTree.Proofs.Acceptance.Alternation
import PatternTree.Proofs.Rejection.CharacterClass
import PatternTree.Proofs.Rejection.Quantifier

/-!
# Rejecting items

An item is completed in place of the text that was ahead, so whatever stood in front of it must
still be able to stand there (`Continues`).  Nothing in front looks further ahead than two
characters, and to the second only behind a brace, which is never the only character that was read
of an item that is rejected.

Groups hold alternations, which hold items again: what is known of a rejected item with some levels
left follows from what is known of rejected bodies with one level less
(`AlternationReader.Faults`).  Where no level is left, a group is rejected at its parenthesis and
closing all groups completes what stands in front of it.

* `continues_item` — an item that begins like the text ahead takes its place;
* `group_blames` — groups;
* `atom_blames` — atoms, where an alternative does not end;
* `element_blames` — items, where an alternative does not end.
-/

namespace PatternTree

namespace Production

open Grammar

variable {scanner : Scanner} {node : Node} {inner : Option AlternationReader} {levels : Nat}

/-! ## Taking the place of the text ahead -/

/-- A text that is an item, or empty, may take the place of the text ahead: whatever may stand
before the text ahead may stand before it. -/
structure Continues (levels : Nat) (ahead text : List Char) : Prop where
  item : text = [] ∨ ∃ item : Item, item.1.Admissible levels ∧ itemText item = text
  joins : ∀ previous before, Joins previous (before ++ ahead) → Joins previous (before ++ text)

theorem continues_nil (ahead : List Char) : Continues levels ahead [] where
  item := .inl rfl
  joins := by
    intro previous before h
    rw [List.append_nil]
    exact joins_of_append h

/-- An item that begins like the text ahead, with more than a brace, may take its place. -/
theorem continues_item (item : Item) {front back rest : List Char}
    (hadmissible : item.1.Admissible levels) (htext : itemText item = front ++ rest)
    (hne : front ≠ []) (hbrace : front ≠ ['{']) :
    Continues levels (front ++ back) (front ++ rest) where
  item := .inr ⟨item, hadmissible, htext⟩
  joins := by
    intro previous before h
    rw [← List.append_assoc] at h ⊢
    refine joins_append (by simp [hne]) ?_ h
    cases before with
    | nil => exact hbrace
    | cons c before => simp [hne]

/-- What is rejected while an item is read: what stands in front of the error can be completed to
an item that takes the place of the text ahead. -/
def ItemReport (levels : Nat) : Report := fun front back =>
  Diagnosed (some levels) (Continues levels (front ++ back)) front back

/-- Where there are no groups, a text is completed to an item, or given up if nothing has been
read of it. -/
theorem Diagnosed.item {language : List Char → Prop} {front back : List Char} {kind : ErrorKind}
    (h : Diagnosed none language front back kind) (hbrace : front ≠ ['{'])
    (transfer : ∀ text, language text →
      ∃ item : Item, item.1.Admissible levels ∧ itemText item = text) :
    ItemReport levels front back kind where
  apt := h.apt
  viable := by
    rcases h.viable with late | ⟨rest, hleaf, htext⟩
    · exact .inl late
    · by_cases hne : front = []
      · subst hne
        exact .inr ⟨[], hleaf.leaf, continues_nil _⟩
      · obtain ⟨item, hadmissible, hitem⟩ := transfer _ htext
        exact .inr ⟨rest, hleaf.leaf, continues_item item hadmissible hitem hne hbrace⟩

/-- What is read where no brace comes is not a brace. -/
theorem front_ne_brace {c : Char} {rest front back : List Char} (hrest : scanner.rest = c :: rest)
    (hc : c ≠ '{') (hsplit : scanner.rest = front ++ back) : front ≠ ['{'] := by
  intro heq
  subst heq
  exact hc (List.cons.inj (hrest.symm.trans hsplit)).1

/-! ## Groups -/

/-- The texts of bodies. -/
def BodyText (levels : Nat) (text : List Char) : Prop :=
  ∃ first others, (∀ items ∈ first :: others, AdmissibleAlternative levels items) ∧
    alternativeText first ++ othersText others = text

/-- A reader is rejected at a place where the body can be completed. -/
def AlternationReader.Faults (reader : AlternationReader) (levels : Nat) : Prop :=
  ∀ {draft : Builder} {scanner : Scanner}, HoldsBody draft.kind → Inside scanner.frames →
    Blames scanner (Diagnosed (some levels) (BodyText levels)) (reader draft scanner)

/-- What reads the inside of groups accepts and rejects bodies with one level less. -/
def Understands : Option AlternationReader → Nat → Prop
  | none, levels => levels = 0
  | some reader, levels => ∃ inside, levels = inside + 1 ∧ reader.Accepts inside ∧
      reader.Faults inside

theorem Understands.agrees (h : Understands inner levels) : Agrees inner levels := by
  cases inner with
  | none => exact h
  | some reader =>
      obtain ⟨inside, hlevels, haccepts, -⟩ := h
      exact ⟨inside, hlevels, haccepts⟩

/-- A body in parentheses takes the place of a text that begins with a parenthesis. -/
theorem continues_group (capturing : Bool) (front back rest : List Char)
    (h : BodyText levels (front ++ rest)) :
    Continues (levels + 1) (opener capturing ++ front ++ back)
      (opener capturing ++ (front ++ rest) ++ [')']) := by
  obtain ⟨first, others, hadmissible, hbody⟩ := h
  have hatom : (Atom.group capturing first others).Admissible (levels + 1) := by
    rw [Atom.Admissible]
    exact hadmissible
  have htext : itemText (Atom.group capturing first others, none)
      = (opener capturing ++ front) ++ (rest ++ [')']) := by
    rw [itemText, Atom.text, List.append_assoc (opener capturing), hbody]
    simp [quantifierText]
  have hcontinues : Continues (levels + 1) ((opener capturing ++ front) ++ back)
      ((opener capturing ++ front) ++ (rest ++ [')'])) := by
    refine continues_item _ hatom htext ?_ ?_
    · cases capturing <;> exact List.cons_ne_nil _ _
    · cases capturing <;> simp [opener]
  simpa using hcontinues

/-- A group stays open only where the text ends or a slash comes. -/
theorem itemReport_unclosed (capturing : Bool) {body rest : List Char} (h : BodyText levels body)
    (hcloses : Closes rest) (hmissing : Scanner.begins (· == ')') rest = false) :
    ItemReport (levels + 1) (opener capturing ++ body) rest (.unbalancedDelimiter ')') := by
  have hslash : ∀ c ∈ rest.head?, c = '/' := by
    intro c hc
    obtain ⟨tail, rfl⟩ := List.head?_eq_some_iff.mp hc
    rw [Scanner.begins_cons, beq_eq_false_iff_ne] at hmissing
    simpa [hmissing] using hcloses c rfl
  refine ⟨.inr ⟨rfl, hslash⟩, .inr ⟨[')'], completes_of_ne (by decide), ?_⟩⟩
  have hgroup := continues_group capturing body rest [] (by rwa [List.append_nil])
  rwa [List.append_nil] at hgroup

/-- A group that has been seen. -/
theorem group_blames (capturing : Bool) {text : String} (hunderstands : Understands inner levels)
    (hinside : Inside scanner.frames) (htext : text.toList = opener capturing)
    (hsees : scanner.sees (.word text.toList) = true) :
    Blames scanner (ItemReport levels) (group inner (groupKind capturing) text scanner) := by
  have hne : opener capturing ≠ [] := by cases capturing <;> decide
  cases inner with
  | none =>
      obtain rfl := hunderstands
      have hhead : scanner.rest.head? = some '(' := by
        rw [htext, Scanner.sees_word hne, List.isPrefixOf_iff_prefix] at hsees
        obtain ⟨rest, hrest⟩ := hsees
        rw [← hrest]
        cases capturing <;> rfl
      exact blames_here ⟨hhead, .inr ⟨[], fun _ => ⟨0, rfl, rfl⟩, continues_nil _⟩⟩
  | some reader =>
      obtain ⟨below, rfl, haccepts, hfaults⟩ := hunderstands
      have hholds : HoldsBody (groupKind capturing) := by
        cases capturing <;> exact ⟨rfl, rfl⟩
      unfold group
      dsimp only
      split
      · next hnone => exact absurd hnone (open?_ne_none hsees)
      · next opening pushed hopening =>
        rw [htext] at hopening
        obtain ⟨inside, hopen, rfl, -⟩ :=
          (Scanner.open?_iff (Scanner.take?_word_iff hne)).mp hopening
        have hpushed := (hinside.of_reads hopen).push
        refine Blames.behind hopen (Blames.of_push (.delimiter ')' none) ?_)
        refine blames_record.bind fun opened hopened => ?_
        obtain ⟨-, rfl⟩ := record_eq_ok_iff.mp hopened
        refine Blames.bind ?_ fun taken hreader => ?_
        · refine (hfaults hholds hpushed).mono fun front back kind _ hreport => ?_
          exact hreport.within _ [')'] (fun _ hrest => hrest.close) fun rest hbody =>
            continues_group capturing front back rest hbody
        · obtain ⟨filled, behind⟩ := taken
          obtain ⟨first, others, hadmissible, hbody, hcloses, -⟩ :=
            (haccepts hholds hpushed).mp hreader
          obtain ⟨behind, rfl, -⟩ := Scanner.reads_push.mp hbody
          refine Blames.behind hbody ?_
          refine (blames_expectClosing fun hmissing => ?_).bind fun taken _ => ?_
          · rw [List.append_nil]
            exact itemReport_unclosed capturing ⟨first, others, hadmissible, rfl⟩ hcloses hmissing
          · exact blames_record.bind fun _ _ => blames_pure _

/-! ## Atoms -/

/-- A keyword that has been seen is not rejected. -/
theorem keywordAtom_blames {report : Report} {letter : Char} {rest : List Char}
    (h : scanner.rest = '\\' :: letter :: rest) (known : letter ∈ keywordLetters .pattern) :
    Blames scanner report (keywordAtom letter scanner) := by
  have hsees : ∀ letters, letter ∈ letters → seesEscaped letters scanner = true :=
    fun letters hmem => seesEscaped_iff.mpr ⟨letter, hmem, rest, h⟩
  unfold keywordAtom
  split
  · next hboundary => exact escapedKeyword_blames (hsees _ hboundary)
  · next hboundary =>
    split
    · next hgap => exact escapedKeyword_blames (hsees _ hgap)
    · next hgap =>
      have hset := ((mem_keywordLetters_iff.mp known).resolve_left hboundary).resolve_left hgap
      exact escapedSet_blames (hsees _ hset)

/-- A character of a pattern that is not reserved. -/
theorem patternCharacter_blames {c : Char} {rest : List Char} (hrest : scanner.rest = c :: rest)
    (hinside : Inside scanner.frames) :
    Blames scanner (ItemReport levels) (character scanner) := by
  by_cases hbrace : c = '{'
  · subst hbrace
    exact character_blames_plain hrest (by decide) (by decide)
  · have hcharacter : Blames scanner (Diagnosed none (CharacterText .pattern))
        (character scanner) :=
      character_blames hinside.region_eq (by decide) (by rw [hrest]; exact List.cons_ne_nil c rest)
    refine hcharacter.mono fun front back kind hsplit hreport => ?_
    refine hreport.item (front_ne_brace hrest hbrace hsplit) ?_
    intro text htext
    obtain ⟨inner, rfl⟩ := htext
    exact ⟨(.character inner, none), Atom.admissible_character, by
      rw [itemText, Atom.text]
      exact List.append_nil _⟩

/-- A bracket expression of a pattern. -/
theorem patternClass_blames {rest : List Char} (hrest : scanner.rest = '[' :: rest) :
    Blames scanner (ItemReport levels) (characterClass scanner) := by
  have hsees : scanner.sees (.char '[') = true := by
    rw [sees_char_of_rest hrest]
    rfl
  refine (characterClass_blames hsees).mono fun front back kind hsplit hreport => ?_
  refine hreport.item (front_ne_brace hrest (by decide) hsplit) ?_
  intro text htext
  obtain ⟨negated, units, rfl⟩ := htext
  exact ⟨(.charClass negated units, none), Atom.admissible_charClass, by
    rw [itemText, Atom.text]
    exact List.append_nil _⟩

/-- Where an alternative does not end and no quantifier comes, an atom is rejected at a place where
an item can be completed. -/
theorem atom_blames (hunderstands : Understands inner levels) (hinside : Inside scanner.frames)
    (hends : ¬ Ends scanner.rest)
    (hsigils : Scanner.begins quantifierSigils.contains scanner.rest = false) :
    Blames scanner (ItemReport levels) (atom inner scanner) := by
  obtain ⟨c, rest, hrest, hc⟩ : ∃ c rest, scanner.rest = c :: rest ∧ c ∉ ['|', ')', '/'] := by
    cases hrest : scanner.rest with
    | nil => exact absurd (by simp [hrest, Ends]) hends
    | cons c rest => exact ⟨c, rest, rfl, by simpa [hrest, Ends] using hends⟩
  by_cases hbracket : c = '['
  · subst hbracket
    rw [atom_of_bracket hrest]
    exact patternClass_blames hrest
  by_cases hopener : scanner.sees (.word "(?:".toList) = true
  · obtain ⟨tail, htail⟩ := sees_groupOpener_iff.mp hopener
    rw [atom_of_groupOpener htail]
    exact group_blames false hunderstands hinside rfl hopener
  by_cases hparen : c = '('
  · subst hparen
    rw [atom_of_parenthesis hrest hopener]
    refine group_blames true hunderstands hinside rfl ?_
    rw [Scanner.sees_word (by decide), hrest]
    rfl
  by_cases hsigil : c ∈ ['^', '$', '.']
  · obtain ⟨what, hatom⟩ :
        ∃ what, atom inner scanner = sigil (sigilKind c) (.char c) what scanner :=
      atom_of_sigil hrest hsigil
    rw [hatom]
    refine sigil_blames ?_
    rw [sees_char_of_rest hrest]
    exact beq_self_eq_true c
  by_cases hkeyword : seesEscaped (keywordLetters .pattern) scanner = true
  · obtain ⟨letter, known, tail, htail⟩ := seesEscaped_iff.mp hkeyword
    rw [atom_of_keyword htail known]
    exact keywordAtom_blames htail known
  have hfree : c ∉ reserved .pattern := by
    rw [hrest, Scanner.begins_cons] at hsigils
    simp only [quantifierSigils, List.contains_cons, List.contains_nil, Bool.or_false,
      Bool.or_eq_false_iff, beq_eq_false_iff_ne] at hsigils
    simp only [List.mem_cons, List.not_mem_nil, or_false, not_or] at hc hsigil
    simp [reserved, hsigils, hbracket, hparen, hsigil, hc]
  rw [atom_of_character hrest hfree (Bool.eq_false_iff.mpr hkeyword)]
  exact patternCharacter_blames hrest hinside

/-! ## Items -/

/-- An atom with a quantifier behind it. -/
theorem exists_item_of_quantifierText {derived : Atom} (hadmissible : derived.Admissible levels)
    {text : List Char} (h : QuantifierText text) :
    ∃ item : Item, item.1.Admissible levels ∧ itemText item = derived.text ++ text := by
  obtain ⟨quantifier, rfl⟩ := h
  exact ⟨(derived, some quantifier), hadmissible, rfl⟩

/-- Where an alternative does not end, an item is rejected at a place where it can be completed. -/
theorem element_blames (hunderstands : Understands inner levels) (hinside : Inside scanner.frames)
    (hends : ¬ Ends scanner.rest) :
    Blames scanner (ItemReport levels) (element inner scanner) := by
  have hsees : scanner.sees (.oneOf quantifierSigils)
      = Scanner.begins quantifierSigils.contains scanner.rest := Scanner.sees_single rfl
  unfold element
  split
  · next hsigils =>
    refine blames_here ⟨.inl ?_, .inr ⟨[], completes_of_ne (by decide), continues_nil _⟩⟩
    rw [hsees] at hsigils
    cases hrest : scanner.rest with
    | nil => simp [hrest] at hsigils
    | cons c rest =>
        rw [hrest, Scanner.begins_cons] at hsigils
        exact ⟨c, rfl, List.contains_iff_mem.mp hsigils⟩
  · next hsigils =>
    rw [hsees, Bool.not_eq_true] at hsigils
    refine (atom_blames hunderstands hinside hends hsigils).bind fun taken hatom => ?_
    obtain ⟨operand, behind⟩ := taken
    obtain ⟨derived, hadmissible, hreads, rfl⟩ :=
      (atom_eq_ok_iff hunderstands.agrees hinside hends hsigils).mp hatom
    obtain ⟨d, text, htext, -⟩ := derived.exists_text_eq_cons
    have hmore : ∀ front, front ≠ [] →
        derived.text ++ front ≠ [] ∧ derived.text ++ front ≠ ['{'] := by
      intro front hne
      rw [htext]
      exact ⟨List.cons_ne_nil _ _, by simp [hne]⟩
    dsimp only
    split
    · next hstarts =>
      refine Blames.bind ?_ fun taken hquantifier => ?_
      · refine Blames.behind hreads ((quantifier_blames hstarts).mono
          fun front back kind _ hreport => ?_)
        obtain ⟨hne, hquantifier⟩ := hreport
        have hitem : Diagnosed none
            (fun whole => ∃ item : Item, item.1.Admissible levels ∧ itemText item = whole)
            (derived.text ++ front) back kind :=
          hquantifier.append fun rest h => exists_item_of_quantifierText hadmissible h
        exact hitem.item (hmore front hne).2 fun whole h => h
      · obtain ⟨quantified, after⟩ := taken
        obtain ⟨q, hq, rfl⟩ := (quantifier_eq_ok_iff
          (by rw [Atom.sourceText_tree]; exact hreads.position)).mp hquantifier
        dsimp only
        split
        · next hbounds =>
          obtain ⟨e, tail, hqtext, -⟩ := q.exists_text_eq_cons
          obtain ⟨hne, hbrace⟩ := hmore q.text (by rw [hqtext]; exact List.cons_ne_nil e tail)
          refine blames_reject (hreads.trans hq) ⟨.inr (.inl hbounds),
            .inr ⟨[], completes_of_ne (by decide), ?_⟩⟩
          exact continues_item (derived, some q) hadmissible (List.append_nil _).symm hne hbrace
        · exact blames_pure _
    · exact blames_pure _

end Production

end PatternTree
