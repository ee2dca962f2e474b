import PatternTree.Node.Equality
import PatternTree.Proofs.Acceptance.Literal
import PatternTree.Proofs.Rejection.Alternation

/-!
# Rejecting pattern literals

An error names a byte position and a kind.  This file says what both tell about the text.

* `Faithful` — what an error of each kind says about the text in front of its position and behind
  it; `parse_error_faithful` — it is so for every text that is rejected;
* `parse_error_completable` — what stands in front of the position of an error is the beginning of
  a pattern literal, unless the error is one of the two that are found too late (`TooLate`).

Both follow from what is known of rejected bodies (`Production.alternation_faults`): a body in front
of an error is completed, and with a closing slash the whole literal.
-/

namespace PatternTree

open Grammar Production

/-! ## Completed literals -/

/-- The flags of a literal can be looked up in its tree. -/
theorem Grammar.Literal.exists_flags (literal : Literal) (start : Nat) :
    ∃ flags, (literal.tree.place start).node? .flags = some flags ∧
      flags.sourceText = literal.flags := by
  refine ⟨(flagsTree literal.flags).place (start
    + Text.byteLength (Node.spell (slashedProperties literal.first literal.others))), ?_, ?_⟩
  · have hmissing : (Node.placeAll start (slashedProperties literal.first literal.others)).find?
        (·.1 == .flags) = none := by
      rw [List.find?_eq_none]
      intro property hproperty
      rw [beq_iff_eq]
      exact slot_ne_flags hproperty
    rw [Node.node?, Node.child?, Node.place_properties, literal.properties_tree,
      Node.placeAll_append, List.find?_append, hmissing]
    rfl
  · rw [Node.sourceText_place, sourceText_flagsTree]

/-- A body between slashes with different flags behind them is a pattern literal. -/
theorem exists_parse_of_bodyText {body letters : List Char} (h : BodyText 64 body)
    (known : ∀ c ∈ letters, c ∈ Flag.letters) (distinct : letters.Nodup) :
    ∃ tree flags, parse ('/' :: (body ++ '/' :: letters)) = .ok tree ∧
      tree.node? .flags = some flags ∧ flags.sourceText = letters := by
  obtain ⟨first, others, hadmissible, rfl⟩ := h
  obtain ⟨literal, rfl, hadmissible, htext⟩ : ∃ literal : Literal, literal.flags = letters ∧
      literal.Admissible ∧ literal.text
        = '/' :: (alternativeText first ++ othersText others ++ '/' :: letters) :=
    ⟨⟨first, others, letters, known, distinct⟩, rfl, hadmissible, rfl⟩
  obtain ⟨flags, hflags, hletters⟩ := literal.exists_flags 0
  exact ⟨_, flags, parse_eq_ok_iff.mpr ⟨literal, hadmissible, htext, rfl⟩, hflags, hletters⟩

/-- A body between slashes is a pattern literal. -/
theorem exists_parse_of_bodyText_nil {body : List Char} (h : BodyText 64 body) :
    ∃ tree, parse ('/' :: (body ++ ['/'])) = .ok tree := by
  have hnone : ∀ c ∈ ([] : List Char), c ∈ Flag.letters := fun _ hc => nomatch hc
  obtain ⟨tree, -, htree, -⟩ := exists_parse_of_bodyText h hnone List.nodup_nil
  exact ⟨tree, htree⟩

theorem bodyText_nil : BodyText 64 [] := by
  refine ⟨[], [], ?_, by rw [alternativeText, othersText]; rfl⟩
  simp [AdmissibleAlternative, Seamless]

/-! ## What errors tell -/

/-- What an error of a pattern literal tells about the text in front of it and behind it. -/
def Faithful (front back : List Char) : ErrorKind → Prop
  | .general detail =>
    detail = "expected '/'" ∧ front = [] ∧ back.head? ≠ some '/' ∨
    detail = "end of pattern not reached" ∧ (∃ tree, parse front = .ok tree) ∧
      (∃ c ∈ back.head?, c ∉ Flag.letters) ∨
    ∃ c ∈ back.head?, c ∈ ['\r', '\n', '\t'] ∧ .general detail = ErrorKind.unexpected c
  | .duplicateFlag letter =>
    back.head? = some letter ∧ ∃ tree flags, parse front = .ok tree ∧
      tree.node? .flags = some flags ∧ letter ∈ flags.sourceText
  | .unbalancedDelimiter closer =>
    closer ∈ ['/', ')', ']'] ∧
      (back = [] ∨ closer = ')' ∧ back.head? = some '/' ∨ closer = '/' ∧ back.head? = some ')')
  | .malformedQuantifier =>
    (∃ c ∈ back.head?, c ∈ ['*', '+', '?']) ∨ beginsBounds back = true ∨
      ∃ before bounds, front = before ++ '{' :: bounds ∧ BoundsBegun bounds
  | .unrecognizedEscape escape =>
    ∃ rest, back = '\\' :: rest ∧ escape = '\\' :: rest.head?.toList
  | .unknownRegion _ => False
  | .invalidHex =>
    ∃ before letter digits, front = before ++ '\\' :: letter :: digits ∧
      letter ∈ Escape.codeLetters ∧ CodeBegun letter digits
  | .invalidCodePoint => (∃ before, front = before ++ ['\\']) ∧ NamesNoCodePoint back
  | .recursionExceeded =>
    back.head? = some '(' ∧
      ∃ tree, parse (front ++ List.replicate 64 ')' ++ ['/']) = .ok tree

/-- What an error between the slashes tells. -/
theorem Production.Apt.faithful {front back : List Char} {kind : ErrorKind}
    (h : Apt front back kind)
    (hdeep : kind = .recursionExceeded →
      ∃ tree, parse (front ++ List.replicate 64 ')' ++ ['/']) = .ok tree) :
    Faithful front back kind := by
  cases kind with
  | general detail => exact .inr (.inr h)
  | duplicateFlag letter => exact h.elim
  | unbalancedDelimiter closer =>
      rcases h with ⟨rfl, hend⟩ | ⟨rfl, hslash⟩
      · exact ⟨by decide, .inl hend⟩
      · refine ⟨by decide, ?_⟩
        cases back with
        | nil => exact .inl rfl
        | cons c back => exact .inr (.inl ⟨rfl, congrArg some (hslash c rfl)⟩)
  | malformedQuantifier => exact h
  | unrecognizedEscape escape => exact h
  | unknownRegion region => exact h
  | invalidHex => exact h
  | invalidCodePoint => exact h
  | recursionExceeded => exact ⟨h, hdeep rfl⟩

/-- An error is faithful, and what stands in front of it can be completed to a pattern literal,
unless it is found too late. -/
structure Explained (front back : List Char) (kind : ErrorKind) : Prop where
  faithful : Faithful front back kind
  completable : TooLate front back kind ∨
    ∃ completion tree, parse (front ++ completion) = .ok tree

/-- An error in a body, with the slash that opens the literal. -/
theorem explained_of_diagnosed {front back : List Char} {kind : ErrorKind}
    (h : Diagnosed (some 64) (BodyText 64) front back kind) :
    Explained ('/' :: front) back kind := by
  have hprepended : Apt ('/' :: front) back kind := h.apt.prepend ['/']
  rcases h.viable with late | ⟨rest, hcompletes, hbody⟩
  · refine ⟨hprepended.faithful ?_, .inl (late.prepend ['/'])⟩
    intro hkind
    subst hkind
    exact late.elim
  · obtain ⟨tree, htree⟩ := exists_parse_of_bodyText_nil hbody
    have hcompleted : parse ('/' :: front ++ (rest ++ ['/'])) = .ok tree := by
      simpa using htree
    refine ⟨hprepended.faithful fun hkind => ⟨tree, ?_⟩, .inr ⟨rest ++ ['/'], tree, hcompleted⟩⟩
    obtain ⟨levels, hlevels, rfl⟩ := hcompletes hkind
    obtain rfl := Option.some.inj hlevels
    rwa [List.append_assoc]

namespace Production

variable {scanner : Scanner}

/-! ## Flags -/

/-- Letters that come are taken. -/
theorem flagTokens_blames {report : Report} {letters rest : List Char} {draft : Builder}
    (hrest : scanner.rest = letters ++ rest) :
    Blames scanner report (flagTokens letters draft scanner) := by
  induction letters generalizing draft scanner report with
  | nil => exact blames_ok _
  | cons c letters ih =>
      have hsees : scanner.sees (.char c) = true := by
        rw [Scanner.sees_single rfl, hrest]
        exact beq_self_eq_true c
      rw [flagTokens]
      refine (blames_expect hsees).bind fun taken hexpect => ?_
      obtain ⟨token, behind⟩ := taken
      obtain ⟨hreads, -⟩ := Scanner.take?_char_iff.mp (expect_eq_ok_iff.mp hexpect)
      have hbehind : behind.rest = letters ++ rest :=
        (List.cons.inj (hreads.rest.symm.trans hrest)).2
      exact blames_record.bind fun extended _ => Blames.behind hreads (ih hbehind)

/-- Flags are rejected only at a letter that has come before, behind different letters. -/
theorem flags_blames :
    Blames scanner (fun front back kind => ∃ c, kind = .duplicateFlag c ∧ back.head? = some c ∧
      (∀ d ∈ front, d ∈ Flag.letters) ∧ front.Nodup ∧ c ∈ front) (flags scanner) := by
  obtain ⟨letters, hletters⟩ : ∃ letters, (scanner.matched? .flagRun).getD [] = letters := ⟨_, rfl⟩
  obtain ⟨rest, hrest, hall, -⟩ := matched?_flagRun_iff.mp hletters
  have hknown : ∀ c ∈ letters, c ∈ Flag.letters := by simpa using hall
  unfold flags
  rw [hletters]
  dsimp only
  by_cases hdistinct : letters.Nodup
  · obtain ⟨seen, hseen, -⟩ := seeFlags_eq_ok hknown hdistinct scanner.position
    rw [hseen, ok_bind]
    refine blames_noteAll.bind fun noted _ => ?_
    exact (flagTokens_blames hrest).bind fun taken _ => blames_pure _
  · obtain ⟨front, c, hrepeats⟩ := exists_repeats hdistinct
    rw [seeFlags_eq_reject hrepeats hknown]
    obtain ⟨⟨back, rfl⟩, hfront, hbefore⟩ := hrepeats
    have hsplit : scanner.rest = front ++ (c :: back ++ rest) := by
      rw [hrest, List.append_assoc]
    refine blames_ahead hsplit ⟨c, rfl, rfl, fun d hd => ?_, hfront, hbefore⟩
    exact hknown d (List.mem_append_left _ hd)

/-! ## Pattern literals -/

/-- Where no slash comes, a literal cannot begin. -/
theorem explained_opening {back : List Char} (h : back.head? ≠ some '/') :
    Explained [] back (.expected "'/'") where
  faithful := .inl ⟨rfl, rfl, h⟩
  completable := .inr ⟨_, exists_parse_of_bodyText_nil bodyText_nil⟩

/-- Behind a body that has ended, a literal stays open only where the text ends or a parenthesis
comes that closes nothing. -/
theorem explained_unclosed {body back : List Char} (h : BodyText 64 body) (hcloses : Closes back)
    (hmissing : Scanner.begins (· == '/') back = false) :
    Explained ('/' :: body) back (.unbalancedDelimiter '/') where
  faithful := by
    refine ⟨by decide, ?_⟩
    cases back with
    | nil => exact .inl rfl
    | cons c back =>
        rw [Scanner.begins_cons, beq_eq_false_iff_ne] at hmissing
        have hc : c = ')' := by simpa [hmissing] using hcloses c rfl
        exact .inr (.inr ⟨rfl, congrArg some hc⟩)
  completable := .inr ⟨['/'], exists_parse_of_bodyText_nil h⟩

/-- A letter that comes again behind a literal with other flags. -/
theorem explained_duplicate {body front back : List Char} {c : Char} (h : BodyText 64 body)
    (hback : back.head? = some c) (known : ∀ d ∈ front, d ∈ Flag.letters)
    (distinct : front.Nodup) (hrepeated : c ∈ front) :
    Explained ('/' :: (body ++ '/' :: front)) back (.duplicateFlag c) := by
  obtain ⟨tree, flags, htree, hflags, hletters⟩ := exists_parse_of_bodyText h known distinct
  refine ⟨⟨hback, tree, flags, htree, hflags, hletters ▸ hrepeated⟩, .inr ⟨[], tree, ?_⟩⟩
  rwa [List.append_nil]

/-- A pattern literal is rejected with an error that is explained. -/
theorem pattern_blames (hframes : scanner.frames = []) :
    Blames scanner Explained (pattern scanner) := by
  unfold pattern
  split
  · next hnone =>
    refine blames_here (explained_opening fun hslash => ?_)
    obtain ⟨rest, hrest⟩ := List.head?_eq_some_iff.mp hslash
    have hsees : scanner.sees (.char '/') = true := by
      rw [Scanner.sees_single rfl, hrest]
      rfl
    exact open?_ne_none hsees hnone
  · next opening pushed hopening =>
    obtain ⟨inside, hopen, rfl, -⟩ := (Scanner.open?_iff Scanner.take?_char_iff).mp hopening
    have hinside := inside_of_opening hframes hopen
    refine Blames.behind hopen (Blames.of_push (.delimiter '/' (some .pattern)) ?_)
    refine blames_record.bind fun opened hopened => ?_
    obtain ⟨-, rfl⟩ := record_eq_ok_iff.mp hopened
    refine Blames.bind ?_ fun taken hreader => ?_
    · refine (alternation_faults 64 ⟨rfl, rfl⟩ hinside).mono fun front back kind _ hreport => ?_
      exact explained_of_diagnosed hreport
    · obtain ⟨filled, behind⟩ := taken
      obtain ⟨first, others, hadmissible, hbody, hcloses, -⟩ :=
        (alternation_accepts 64 ⟨rfl, rfl⟩ hinside).mp hreader
      obtain ⟨behind, rfl, -⟩ := Scanner.reads_push.mp hbody
      have htext : BodyText 64 (alternativeText first ++ othersText others) :=
        ⟨first, others, hadmissible, rfl⟩
      refine Blames.behind hbody ?_
      refine (blames_expectClosing fun hmissing => ?_).bind fun taken hclosing => ?_
      · rw [List.append_nil]
        exact explained_unclosed htext hcloses hmissing
      · obtain ⟨closing, outside⟩ := taken
        obtain ⟨hclose, -⟩ := Scanner.close?_push_iff.mp (expectClosing_eq_ok_iff.mp hclosing)
        refine blames_record.bind fun closed _ => ?_
        refine Blames.push (.delimiter '/' (some .pattern)) (Blames.behind hclose ?_)
        refine Blames.bind (flags_blames.mono fun front back kind _ hreport => ?_) fun taken _ => ?_
        · obtain ⟨c, rfl, hback, hknown, hdistinct, hrepeated⟩ := hreport
          exact explained_duplicate htext hback hknown hdistinct hrepeated
        · exact blames_record.bind fun _ _ => blames_pure _

/-- A whole text is rejected with an error that is explained. -/
theorem parse_blames (text : List Char) : Blames (.new text) Explained (parse text) := by
  unfold parse whole
  refine (pattern_blames rfl).bind fun taken hpattern => ?_
  obtain ⟨node, last⟩ := taken
  dsimp only
  split
  · exact blames_pure node
  · next hmore =>
    obtain ⟨literal, hadmissible, hstop, hreads, rfl⟩ := (pattern_eq_ok_iff rfl).mp hpattern
    have htree : parse literal.text = .ok (literal.tree.place 0) :=
      parse_eq_ok_iff.mpr ⟨literal, hadmissible, rfl, rfl⟩
    have hnext : ∃ c ∈ last.rest.head?, c ∉ Flag.letters := by
      cases hrest : last.rest with
      | nil => simp [Scanner.atEnd, hrest] at hmore
      | cons c rest =>
          rw [hrest, Scanner.begins_cons] at hstop
          exact ⟨c, rfl, by simpa using hstop⟩
    refine blames_reject hreads ⟨.inr (.inl ⟨rfl, ⟨_, htree⟩, hnext⟩), .inr ⟨[], ?_⟩⟩
    rw [List.append_nil]
    exact ⟨_, htree⟩

end Production

/-! ## The errors of all texts -/

/-- **Errors are found as soon as possible.**  What stands in front of an error can be completed to
a pattern literal, unless it ends with the digits of a code in braces that are too many or beyond
the last code point, or with bounds that are out of order. -/
theorem parse_error_completable {text : List Char} {position : Nat} {kind : ErrorKind}
    (h : parse text = .error (.rejected ⟨position, kind⟩)) :
    ∃ front back, text = front ++ back ∧ position = Text.byteLength front ∧
      ((∃ completion tree, parse (front ++ completion) = .ok tree) ∨ TooLate front back kind) := by
  obtain ⟨front, back, hrest, hposition, hexplained⟩ := parse_blames text position kind h
  exact ⟨front, back, hrest, hposition.trans (Nat.zero_add _), hexplained.completable.symm⟩

/-- A group that is not closed. -/
theorem error_completable_example :
    parse "/(?:a/".toList = .error (.rejected ⟨5, .unbalancedDelimiter ')'⟩) ∧
      ∃ front back, "/(?:a/".toList = front ++ back ∧ 5 = Text.byteLength front ∧
        ((∃ completion tree, parse (front ++ completion) = .ok tree) ∨
          TooLate front back (.unbalancedDelimiter ')')) := by
  have hparse : parse "/(?:a/".toList = .error (.rejected ⟨5, .unbalancedDelimiter ')'⟩) := by
    decide +kernel
  exact ⟨hparse, parse_error_completable hparse⟩

end PatternTree
