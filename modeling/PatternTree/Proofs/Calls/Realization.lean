import PatternTree.Proofs.Acceptance.Literal
import PatternTree.Proofs.Calls.Order

/-!
# Productions and their scripts

The script of a production has the outcome of the production and makes its calls in order
(`Task.realized`).  Each production is put together from scanner operations, records and calls, and
so is its script, so the proofs follow the script from top to bottom and keep track of one thing:
how far the scanner has come since the start, and under which frame.

A repetition is `collect`, which repeats a step up to a bound.  As every step takes some text, the
bound is never reached and does not show (`collect_eq_step`); that steps take text is known of the
calls that are made further on.
-/

namespace PatternTree

open Production Script

namespace Task

variable {scanner after : Scanner}

/-- Inside too many groups nothing reads the inside of a further one. -/
theorem readerAt_of_le {depth : Nat} (h : deepestNesting ≤ depth) : readerAt depth = none := by
  rw [readerAt, Nat.sub_eq_zero_of_le h]

/-- The inside of a group is read with one more group open. -/
theorem readerAt_of_lt {depth : Nat} (h : depth < deepestNesting) :
    readerAt depth = some (Production.alternatives (readerAt (depth + 1))) := by
  obtain ⟨levels, hlevels⟩ : ∃ levels, deepestNesting - depth = levels + 1 :=
    ⟨deepestNesting - depth - 1, by omega⟩
  have hrest : deepestNesting - (depth + 1) = levels := by omega
  rw [readerAt, readerAt, hlevels, hrest]
  cases levels <;> rfl

/-- Some text has been taken. -/
theorem Exit.of_advances {task : Task} {result : task.Result} (h : scanner.Advances after)
    (hfinds : task.finds result = true) : task.Exit scanner result after where
  reaches := h.reaches
  advances := fun _ => h
  missing := fun hmissing => by simp [hfinds] at hmissing

/-- No text has to be taken. -/
theorem Exit.of_reaches {task : Task} {result : task.Result} (h : scanner.Reaches after)
    (hempty : task.advances result = false) (hfinds : task.finds result = true) :
    task.Exit scanner result after where
  reaches := h
  advances := fun hadvances => by simp [hempty] at hadvances
  missing := fun hmissing => by simp [hfinds] at hmissing

/-- Nothing has been found. -/
theorem Exit.nothing {task : Task} {result : task.Result} (hempty : task.advances result = false) :
    task.Exit scanner result scanner where
  reaches := .refl scanner
  advances := fun hadvances => by simp [hempty] at hadvances
  missing := fun _ => rfl

/-- The closer of a frame leaves the frame. -/
theorem reaches_of_expectClosing {closer : Char} {inside : Option Region}
    {closing : Token × Scanner}
    (h : expectClosing closer (scanner.push (.delimiter closer inside)) = .ok closing) :
    scanner.Reaches closing.2 :=
  Scanner.reaches_of_close? (expectClosing_eq_ok_iff.mp h)

/-- The script of a production realizes it. -/
def Realized (task : Task) (place : Place) : Prop :=
  Realizes (task.Permits place) (task.script place) (settle place.depth)
    (task.run place.depth place.scanner) fun taken => task.Exit place.scanner taken.1 taken.2

variable (place : Place)

/-! ## Alternations -/

theorem realized_alternatives (draft : Builder) : (alternatives draft).Realized place := by
  refine Realizes.call_bind (Permits.here (by simp)) fun first behind hfirst => ?_
  refine .attempt_bind fun begun _ => ?_
  refine Realizes.passes ?_ fun _ _ hexit => ?_
  · exact Permits.further (by simp) (.inr ⟨hfirst.reaches, by simp⟩)
  · exact Exit.of_reaches (hfirst.reaches.trans hexit.reaches) rfl rfl

theorem realized_alternative : alternative.Realized place := by
  refine Realizes.call_bind (Permits.here (by simp)) fun filled behind hfilled => ?_
  exact Realizes.pure rfl (Exit.of_reaches hfilled.reaches rfl rfl)

theorem realized_element : element.Realized place := by
  refine Realizes.ite (fun _ => .reject) fun _ => ?_
  refine .call_bind (Permits.here (by simp)) fun operand behind hatom => ?_
  have hadvances : place.scanner.Advances behind := hatom.advances rfl
  refine .ite (fun _ => ?_) fun _ => .pure rfl (Exit.of_advances hadvances rfl)
  refine .call_bind (Permits.further (by simp) (.inl hadvances)) fun quantified after hexit => ?_
  refine .ite (fun _ => .reject) fun _ => .pure rfl (Exit.of_advances ?_ rfl)
  exact hadvances.trans hexit.reaches

theorem realized_atom : atom.Realized place := by
  refine Realizes.ite (fun _ => ?_) fun _ => .ite (fun _ => ?_) fun _ => .ite (fun _ => ?_) fun _ =>
    .ite (fun _ => ?_) fun _ => .ite (fun _ => ?_) fun _ => .ite (fun _ => ?_) fun _ =>
    .ite (fun _ => ?_) fun _ => .ite (fun _ => ?_) fun _ => .ite (fun _ => ?_) fun _ => ?_
  all_goals
    refine Realizes.passes ?_ fun _ _ hexit => ?_
    · exact .here (by simp)
    · exact Exit.of_advances (hexit.advances rfl) rfl

theorem realized_group (kind : NodeKind) (opener : String) :
    (group kind opener).Realized place := by
  change Realizes _ (groupScript kind opener place) _
    (Production.group (readerAt place.depth) kind opener place.scanner) _
  rw [groupScript]
  by_cases hdeep : deepestNesting ≤ place.depth
  · rw [if_pos hdeep, readerAt_of_le hdeep]
    exact .reject
  rw [if_neg hdeep, readerAt_of_lt (Nat.lt_of_not_le hdeep)]
  have hroom : place.depth < deepestNesting ∨ (group kind opener).rule.deepens = 0 :=
    .inl (Nat.lt_of_not_le hdeep)
  dsimp only [Production.group]
  cases hopen : place.scanner.open? .punctuator (.word opener.toList) ')' none with
  | none => exact .reject
  | some taken =>
      obtain ⟨opening, inside⟩ := taken
      obtain ⟨inner, rfl, hadvances⟩ := Scanner.advances_of_open? hopen
      refine .attempt_bind fun opened _ => ?_
      refine Realizes.call_bind (Permits.inside (by simp) rfl hroom hadvances)
        fun filled behind hfilled => ?_
      obtain ⟨last, rfl, hlast⟩ := Scanner.reaches_push hfilled.reaches
      refine .attempt_bind fun closing hclose => ?_
      refine .attempt_bind fun closed _ => .pure rfl (Exit.of_advances ?_ rfl)
      exact (hadvances.trans hlast).trans (reaches_of_expectClosing hclose)

/-! ## Quantifiers -/

variable {allowed : Task → Place → Prop}

/-- Bounds in braces are called for as a pair. -/
theorem realizes_ask_bracedBounds {place : Place} {draft : Builder}
    (h : allowed (bracedBounds draft) place) :
    Realizes allowed (ask (bracedBounds draft) place) (settle place.depth ∘ paired)
      (Production.bracedBounds draft place.scanner)
      fun taken => place.scanner.Advances taken.2.2 :=
  (Realizes.call_view h rfl fun result after _ => ⟨(result.1, result.2, after), rfl⟩).mono
    fun _ hexit => hexit.advances rfl

/-- A result that may be missing is seen behind it, or where it is missing. -/
theorem exists_optionally {α : Type} {found : Option α}
    (h : found.isSome = false → after = scanner) :
    ∃ taken, optionally scanner taken = (found, after) := by
  cases found with
  | none => exact ⟨none, by rw [h rfl]; rfl⟩
  | some result => exact ⟨some (result, after), rfl⟩

/-- A number that is called for may be missing. -/
theorem realizes_ask_unsignedInteger {place : Place} (h : allowed unsignedInteger place) :
    Realizes allowed (ask unsignedInteger place) (settle place.depth ∘ optionally place.scanner)
      (Production.unsignedInteger place.scanner)
      fun taken => ∀ found after, taken = some (found, after) → place.scanner.Reaches after := by
  refine (Realizes.call_view h rfl fun _ _ hexit => exists_optionally hexit.missing).mono ?_
  rintro taken hexit found after rfl
  exact hexit.reaches

theorem realizes_quantifierBounds (operand : Node) (draft : Builder) :
    Realizes ((quantifier operand).Permits place) (quantifierBoundsScript draft place)
      (settle place.depth ∘ paired) (quantifierBounds draft place.scanner)
      fun taken => place.scanner.Advances taken.2.2 := by
  rw [quantifierBoundsScript, quantifierBounds]
  cases htake : place.scanner.take? .keyword (.oneOf quantifierSigils) with
  | some taken =>
      obtain ⟨sigil, after⟩ := taken
      refine .attempt_bind fun filled _ => .pure rfl ?_
      exact Scanner.advances_of_take? htake
  | none => exact realizes_ask_bracedBounds (Permits.here (by simp))

theorem realized_quantifier (operand : Node) : (quantifier operand).Realized place := by
  refine Realizes.attempt_bind fun begun _ => ?_
  refine (realizes_quantifierBounds place operand begun).bind fun taken hadvances => ?_
  refine .attempt_bind fun noted _ => .pure rfl ?_
  exact Exit.of_advances hadvances rfl

/-- The frame inside braces. -/
abbrev brace : Frame := .delimiter '}' none

theorem realizes_upperBound {begun : Builder} {inner : Scanner}
    (hadvances : place.scanner.Advances inner) (least : Nat) (draft : Builder) :
    Realizes ((bracedBounds begun).Permits place)
      (upperBoundScript least draft ⟨inner.push brace, place.depth⟩)
      (settle place.depth ∘ paired) (upperBound least draft (inner.push brace))
      fun taken => ∃ last, taken.2.2 = last.push brace ∧ inner.Reaches last := by
  rw [upperBoundScript, upperBound]
  dsimp only
  cases htake : (inner.push brace).take? .punctuator (.char ',') with
  | none =>
      refine .attempt_bind fun separated _ => .attempt_bind fun bounded _ => .pure rfl ?_
      exact ⟨inner, rfl, .refl inner⟩
  | some taken =>
      obtain ⟨comma, behind⟩ := taken
      obtain ⟨last, rfl, hlast⟩ := Scanner.reaches_push (Scanner.advances_of_take? htake).reaches
      have hinside : (bracedBounds begun).Permits place unsignedInteger
          ⟨last.push brace, place.depth⟩ :=
        Permits.inside (by simp) rfl (.inr rfl) (hadvances.trans hlast)
      refine .attempt_bind fun separated _ => (realizes_ask_unsignedInteger hinside).bind ?_
      rintro (_ | ⟨⟨node, most⟩, after⟩) hexit
      · refine .attempt_bind fun bounded _ => .pure rfl ?_
        exact ⟨last, rfl, hlast⟩
      · obtain ⟨final, heq, hfinal⟩ := Scanner.reaches_push (hexit _ _ rfl)
        refine .attempt_bind fun bounded _ => .pure rfl ?_
        exact ⟨final, heq, hlast.trans hfinal⟩

theorem realized_bracedBounds (draft : Builder) : (bracedBounds draft).Realized place := by
  refine Realizes.viewed ?_
  change Realizes _ (bracedBoundsScript draft place) _ _ _
  rw [bracedBoundsScript, Production.bracedBounds]
  cases hopen : place.scanner.open? .punctuator (.char '{') '}' none with
  | none => exact .reject
  | some taken =>
      obtain ⟨opening, inside⟩ := taken
      obtain ⟨inner, rfl, hadvances⟩ := Scanner.advances_of_open? hopen
      refine .attempt_bind fun opened _ => ?_
      have hinside : (bracedBounds draft).Permits place unsignedInteger
          ⟨inner.push brace, place.depth⟩ :=
        Permits.inside (by simp) rfl (.inr rfl) hadvances
      refine (realizes_ask_unsignedInteger hinside).bind ?_
      rintro (_ | ⟨⟨node, least⟩, behind⟩) hexit
      · exact .reject
      obtain ⟨first, rfl, hfirst⟩ := Scanner.reaches_push (hexit _ _ rfl)
      refine .attempt_bind fun begun _ => ?_
      refine (realizes_upperBound place (hadvances.trans hfirst) least begun).bind ?_
      rintro ⟨bounds, bounded, _⟩ ⟨last, rfl, hlast⟩
      refine .ite (fun _ => .reject) fun _ => ?_
      dsimp only [Function.comp_apply, settle, paired]
      cases hclose : (last.push brace).close? .punctuator '}' with
      | none => exact .reject
      | some taken =>
          refine .attempt_bind fun closed _ => .pure rfl (Exit.of_advances ?_ rfl)
          have hbehind := (hadvances.trans hfirst).trans hlast
          exact hbehind.trans (Scanner.reaches_of_close? hclose)

theorem realized_unsignedInteger : unsignedInteger.Realized place := by
  refine Realizes.viewed ?_
  refine Realizes.call_bind (Permits.here (by simp)) fun draft after hdigits => ?_
  refine .ite (fun _ => .pure rfl (Exit.nothing rfl)) fun _ => ?_
  dsimp only [Place.complete, complete]
  cases Numeral.count? (draft.finish after.position).sourceText with
  | none => exact .reject
  | some value => exact .pure rfl (Exit.of_reaches hdigits.reaches rfl rfl)

/-! ## Bracket expressions -/

/-- Whether there is a mark or not, the scanner does not go back. -/
theorem reaches_negation (scanner : Scanner) : scanner.Reaches (negation scanner).2 := by
  unfold negation
  split
  · next mark after htake => exact (Scanner.advances_of_take? htake).reaches
  · exact .refl scanner

theorem realized_characterClass : characterClass.Realized place := by
  change Realizes _ (characterClassScript place) _ (Production.characterClass place.scanner) _
  rw [characterClassScript, Production.characterClass]
  cases hopen : place.scanner.open? .punctuator (.char '[') ']' (some .characterClass) with
  | none => exact .reject
  | some taken =>
      obtain ⟨opening, inside⟩ := taken
      obtain ⟨inner, rfl, hadvances⟩ := Scanner.advances_of_open? hopen
      obtain ⟨listed, hlisted, hreaches⟩ := Scanner.reaches_push (reaches_negation (inner.push _))
      refine .attempt_bind fun opened _ => ?_
      dsimp only
      rw [hlisted]
      refine .attempt_bind fun noted _ => .attempt_bind fun marked _ => ?_
      refine Realizes.call_bind (Permits.inside (by simp) rfl (.inr rfl) (hadvances.trans hreaches))
        fun filled behind hfilled => ?_
      obtain ⟨last, rfl, hlast⟩ := Scanner.reaches_push hfilled.reaches
      refine .attempt_bind fun closing hclose => ?_
      refine .attempt_bind fun closed _ => .pure rfl (Exit.of_advances ?_ rfl)
      exact ((hadvances.trans hreaches).trans hlast).trans (reaches_of_expectClosing hclose)

theorem realizes_classAtom :
    Realizes (classElement.Permits place) (classAtomScript place) (settle place.depth)
      (classAtom place.scanner) fun taken => place.scanner.Advances taken.2 := by
  refine .ite (fun _ => ?_) fun _ => .ite (fun _ => ?_) fun _ => ?_
  all_goals
    refine Realizes.passes ?_ fun _ _ hexit => ?_
    · exact .here (by simp)
    · exact hexit.advances rfl

theorem realized_classElement : classElement.Realized place := by
  refine (realizes_classAtom place).bind fun taken hadvances => ?_
  refine .ite (fun _ => ?_) fun _ => .pure rfl (Exit.of_advances hadvances rfl)
  refine Realizes.passes ?_ fun _ _ hexit => ?_
  · exact .further (by simp) (.inl hadvances)
  · exact Exit.of_advances (hadvances.trans hexit.reaches) rfl

theorem realized_classRange (lower : Node) : (classRange lower).Realized place := by
  refine Realizes.attempt_bind fun begun _ => .attempt_bind fun hyphen hexpect => ?_
  have hadvances := Scanner.advances_of_take? (expect_eq_ok_iff.mp hexpect)
  refine .attempt_bind fun joined _ => ?_
  refine Realizes.call_bind (Permits.further (by simp) (.inl hadvances)) fun upper after hexit => ?_
  refine .attempt_bind fun filled _ => .pure rfl (Exit.of_advances ?_ rfl)
  exact hadvances.trans hexit.reaches

/-! ## Characters -/

theorem realized_escapedSet : escapedSet.Realized place := by
  refine Realizes.ite (fun _ => ?_) fun _ => .ite (fun _ => ?_) fun _ => ?_
  all_goals
    refine Realizes.passes ?_ fun _ _ hexit => ?_
    · exact .here (by simp)
    · exact Exit.of_advances (hexit.advances rfl) rfl

theorem realized_character : character.Realized place := by
  change Realizes _ (characterScript place) _ (Production.character place.scanner) _
  rw [characterScript, Production.character]
  refine .ite (fun _ => ?_) fun _ => ?_
  · refine .call_bind (Permits.here (by simp)) fun escape after hexit => ?_
    refine .attempt_bind fun filled _ => .pure rfl (Exit.of_advances ?_ rfl)
    exact hexit.advances rfl
  · cases htake : place.scanner.take? .literal .plain with
    | some taken =>
        obtain ⟨value, after⟩ := taken
        refine .attempt_bind fun filled _ => .pure rfl (Exit.of_advances ?_ rfl)
        exact Scanner.advances_of_take? htake
    | none =>
        cases place.scanner.next? with
        | some c => exact .reject
        | none => exact .reject

/-! ## Escapes -/

/-- The escape of a single character leaves the region of the escape. -/
theorem reaches_of_singleEscape {start : Nat} {c cooked : Char} {draft : Builder}
    {taken : List Char × Builder × Scanner}
    (h : singleEscape start c cooked draft (scanner.push (.region .escape)) = .ok taken) :
    scanner.Reaches taken.2.2 := by
  unfold singleEscape at h
  split at h
  · simp at h
  · next token after hleave =>
    obtain ⟨coded, -, hdone⟩ := bind_eq_ok_iff.mp h
    obtain rfl := pure_eq_ok_iff.mp hdone
    exact ⟨_, (Scanner.leave?_push_iff.mp hleave).1⟩

theorem realizes_escapeBody {inner : Scanner} (hadvances : place.scanner.Advances inner)
    (start : Nat) (region : Region) (draft : Builder) :
    Realizes (escapeSequence.Permits place)
      (escapeBodyScript start region draft ⟨inner.push (.region .escape), place.depth⟩)
      (settle place.depth ∘ paired) (escapeBody start region draft (inner.push (.region .escape)))
      fun taken => inner.Reaches taken.2.2 := by
  -- both fixed escapes and special characters of the region are single characters
  have hsingle : ∀ c cooked, Realizes (escapeSequence.Permits place)
      (done ((singleEscape start c cooked draft (inner.push (.region .escape))).map
        (settle place.depth ∘ paired))) (settle place.depth ∘ paired)
      (singleEscape start c cooked draft (inner.push (.region .escape)))
      fun taken => inner.Reaches taken.2.2 :=
    fun c cooked => .done fun taken => reaches_of_singleEscape
  rw [escapeBodyScript, escapeBody]
  dsimp only
  cases (inner.push (.region .escape)).next?.bind
      fun c => (Escape.fixed? c).map fun cooked => (c, cooked) with
  | some fixed => exact hsingle fixed.1 fixed.2
  | none =>
      cases region.specials? with
      | none => exact .reject
      | some specials =>
          cases (inner.push (.region .escape)).next? with
          | none => exact .reject
          | some c =>
              refine .ite (fun _ => hsingle c c) fun _ => .ite (fun _ => ?_) fun _ => .reject
              have hinside : escapeSequence.Permits place escapeCode
                  ⟨inner.push (.region .escape), place.depth⟩ :=
                Permits.inside (by simp) rfl (.inr rfl) hadvances
              refine Realizes.call_bind hinside fun code after hexit => ?_
              obtain ⟨last, rfl, hlast⟩ := Scanner.reaches_push hexit.reaches
              refine .attempt_bind fun coded _ => .pure rfl ?_
              rw [Scanner.leave_push]
              exact hlast

theorem realized_escapeSequence : escapeSequence.Realized place := by
  change Realizes _ (escapeSequenceScript place) _ (Production.escapeSequence place.scanner) _
  rw [escapeSequenceScript, Production.escapeSequence]
  cases henter : place.scanner.enter? .punctuator (.char '\\') .escape with
  | none => exact .reject
  | some taken =>
      obtain ⟨backslash, inside⟩ := taken
      obtain ⟨inner, hreads, rfl, -⟩ := Scanner.enter?_char_iff.mp henter
      have hadvances := Scanner.advances_of_reads hreads
      refine .attempt_bind fun begun _ => ?_
      refine (realizes_escapeBody place hadvances _ _ begun).bind fun taken hbody => ?_
      refine .attempt_bind fun noted _ => .pure rfl (Exit.of_advances ?_ rfl)
      exact hadvances.trans hbody

/-- Digits in braces are taken with their braces. -/
theorem advances_of_bracedDigits {opening : Token} {draft : Builder}
    {taken : List Char × Builder × Scanner}
    (h : bracedDigits opening draft scanner = .ok taken) : scanner.Advances taken.2.2 := by
  obtain ⟨opened, -, h⟩ := bind_eq_ok_iff.mp h
  split at h
  · simp at h
  next digits behind hdigits =>
  split at h
  · simp at h
  split at h
  · simp at h
  next closing after hclosing =>
  obtain ⟨filled, -, h⟩ := bind_eq_ok_iff.mp h
  obtain ⟨closed, -, hdone⟩ := bind_eq_ok_iff.mp h
  obtain rfl := pure_eq_ok_iff.mp hdone
  exact (Scanner.advances_of_take? hdigits).trans (Scanner.advances_of_take? hclosing).reaches

/-- A block of digits is not empty. -/
theorem advances_of_blockDigits {terminal : Terminal} {draft : Builder}
    {taken : List Char × Builder × Scanner}
    (h : Production.blockDigits terminal draft scanner = .ok taken) :
    scanner.Advances taken.2.2 := by
  unfold Production.blockDigits at h
  split at h
  · simp at h
  next digits behind hdigits =>
  obtain ⟨opened, -, h⟩ := bind_eq_ok_iff.mp h
  obtain ⟨filled, -, h⟩ := bind_eq_ok_iff.mp h
  obtain ⟨closed, -, hdone⟩ := bind_eq_ok_iff.mp h
  obtain rfl := pure_eq_ok_iff.mp hdone
  exact Scanner.advances_of_take? hdigits

/-- A block of digits is called for as a pair. -/
theorem realizes_ask_blockDigits {place : Place} {terminal : Terminal} {draft : Builder}
    (h : allowed (blockDigits terminal draft) place) :
    Realizes allowed (ask (blockDigits terminal draft) place) (settle place.depth ∘ paired)
      (Production.blockDigits terminal draft place.scanner)
      fun taken => place.scanner.Advances taken.2.2 :=
  (Realizes.call_view h rfl fun result after _ => ⟨(result.1, result.2, after), rfl⟩).mono
    fun _ hexit => hexit.advances rfl

theorem realizes_codeDigits (hreached : place.scanner.Advances after) (letter : Token)
    (draft : Builder) :
    Realizes (escapeCode.Permits place) (codeDigitsScript letter draft ⟨after, place.depth⟩)
      (settle place.depth ∘ paired) (codeDigits letter draft after)
      fun taken => after.Advances taken.2.2 := by
  have hfurther : ∀ terminal, escapeCode.Permits place (blockDigits terminal draft)
      ⟨after, place.depth⟩ :=
    fun terminal => Permits.further (by simp) (.inl hreached)
  rw [codeDigitsScript, codeDigits]
  refine .ite (fun _ => ?_) fun _ => realizes_ask_blockDigits (hfurther .hexPair)
  dsimp only
  cases hbrace : after.take? .punctuator (.char '{') with
  | none => exact realizes_ask_blockDigits (hfurther .hexQuad)
  | some taken =>
      obtain ⟨opening, inside⟩ := taken
      refine .done fun taken hdigits => ?_
      exact (Scanner.advances_of_take? hbrace).trans (advances_of_bracedDigits hdigits).reaches

theorem realized_escapeCode : escapeCode.Realized place := by
  refine Realizes.attempt_bind fun letter hexpect => .attempt_bind fun begun _ => ?_
  have hadvances := Scanner.advances_of_take? (expect_eq_ok_iff.mp hexpect)
  refine (realizes_codeDigits place hadvances letter.1 begun).bind fun taken hdigits => ?_
  dsimp only [Function.comp_apply, settle, paired]
  cases Numeral.codePoint? taken.1 with
  | none => exact .reject
  | some code =>
      refine .attempt_bind fun noted _ => .pure rfl (Exit.of_advances ?_ rfl)
      exact hadvances.trans hdigits.reaches

/-! ## Repetitions -/

/-- A repetition goes on in the same way whatever bound is left, as long as its steps take text and
the bound exceeds the number of characters ahead. -/
theorem collectUpTo_eq_of_lt {step : Step} {bound other : Nat} {draft : Builder}
    (hstep : ∀ draft behind extended after, scanner.Reaches behind →
      step draft behind = .ok (some (extended, after)) → behind.Advances after)
    (hbound : scanner.rest.length < bound) (hother : scanner.rest.length < other) :
    collectUpTo step bound draft scanner = collectUpTo step other draft scanner := by
  induction bound generalizing other draft scanner with
  | zero => omega
  | succ bound ih =>
      obtain ⟨other, rfl⟩ : ∃ fewer, other = fewer + 1 := ⟨other - 1, by omega⟩
      rw [collectUpTo, collectUpTo]
      cases htaken : step draft scanner with
      | error failure => rfl
      | ok taken =>
          obtain _ | ⟨extended, after⟩ := taken
          · rfl
          have hadvances := hstep _ _ _ _ (.refl scanner) htaken
          have hshorter := hadvances.length_lt
          refine ih (fun draft behind extended last hbehind => ?_) (by omega) (by omega)
          exact hstep draft behind extended last (hadvances.reaches.trans hbehind)

/-- A repetition whose steps take text is a step, and the repetition again behind it. -/
theorem collect_eq_step {step : Step} {draft : Builder}
    (hstep : ∀ draft behind extended after, scanner.Reaches behind →
      step draft behind = .ok (some (extended, after)) → behind.Advances after) :
    collect step draft scanner = step draft scanner >>= fun taken =>
      match taken with
      | none => pure (draft, scanner)
      | some (extended, after) => collect step extended after := by
  rw [collect, collectUpTo]
  cases htaken : step draft scanner with
  | error failure => rfl
  | ok taken =>
      obtain _ | ⟨extended, after⟩ := taken
      · rfl
      have hadvances := hstep _ _ _ _ (.refl scanner) htaken
      refine collectUpTo_eq_of_lt (fun draft behind extended last hbehind => ?_)
        hadvances.length_lt (Nat.lt_succ_self _)
      exact hstep draft behind extended last (hadvances.reaches.trans hbehind)

/-- A digit that is called for may be missing. -/
theorem realizes_ask_digit {place : Place} (h : allowed digit place) :
    Realizes allowed (ask digit place) (settle place.depth ∘ optionally place.scanner)
      (Production.digit place.scanner)
      fun taken => ∀ node after, taken = some (node, after) → place.scanner.Advances after := by
  refine (Realizes.call_view h rfl fun _ _ hexit => exists_optionally hexit.missing).mono ?_
  rintro taken hexit node after rfl
  exact hexit.advances rfl

theorem realizes_step (loop : Loop) (begun draft : Builder) :
    Realizes ((repeated loop begun).Permits place) (stepScript loop draft place)
      (Option.map (settle place.depth)) (stepAt place.depth loop draft place.scanner)
      fun taken => ∀ extended after, taken = some (extended, after) →
        place.scanner.Advances after := by
  cases loop with
  | alternatives =>
      rw [stepScript, stepAt, nextAlternative]
      cases htake : place.scanner.take? .punctuator (.char '|') with
      | none => exact .pure rfl (by rintro _ _ ⟨⟩)
      | some taken =>
          obtain ⟨bar, behind⟩ := taken
          have hadvances := Scanner.advances_of_take? htake
          refine .attempt_bind fun separated _ => ?_
          refine Realizes.call_bind (Permits.further (by simp) (.inl hadvances))
            fun node after hexit => .attempt_bind fun extended _ => .pure rfl ?_
          rintro _ _ ⟨⟩
          exact hadvances.trans hexit.reaches
  | elements =>
      rw [stepScript, stepAt, nextElement]
      refine .ite (fun _ => .pure rfl (by rintro _ _ ⟨⟩)) fun _ => ?_
      refine Realizes.call_bind (Permits.here (by simp)) fun node after hexit =>
        .attempt_bind fun extended _ => .pure rfl ?_
      rintro _ _ ⟨⟩
      exact hexit.advances rfl
  | digits =>
      rw [stepScript, stepAt, nextDigit]
      refine (realizes_ask_digit (Permits.here (by simp))).bind ?_
      rintro (_ | ⟨node, after⟩) hadvances
      · exact .pure rfl (by rintro _ _ ⟨⟩)
      refine .attempt_bind fun extended _ => .pure rfl ?_
      rintro _ _ ⟨⟩
      exact hadvances _ _ rfl
  | classElements =>
      rw [stepScript, stepAt, nextClassElement]
      refine .ite (fun _ => .pure rfl (by rintro _ _ ⟨⟩)) fun _ => ?_
      refine Realizes.call_bind (Permits.here (by simp)) fun node after hexit =>
        .attempt_bind fun extended _ => .pure rfl ?_
      rintro _ _ ⟨⟩
      exact hexit.advances rfl

theorem realized_repeated (loop : Loop) (draft : Builder) :
    (repeated loop draft).Realized place := by
  -- one step, and a call for what is left behind it
  have honce : Realizes ((repeated loop draft).Permits place) (repeatedScript loop draft place)
      (settle place.depth) (stepAt place.depth loop draft place.scanner >>= fun taken =>
        match taken with
        | none => pure (draft, place.scanner)
        | some (extended, after) => collect (stepAt place.depth loop) extended after)
      fun taken => (repeated loop draft).Exit place.scanner taken.1 taken.2 := by
    refine (realizes_step place loop draft draft).bind ?_
    rintro (_ | ⟨extended, after⟩) hadvances
    · exact .pure rfl (Exit.nothing rfl)
    · have hfurther : (repeated loop draft).Permits place (repeated loop extended)
          ⟨after, place.depth⟩ :=
        Permits.further (by cases loop <;> simp) (.inl (hadvances _ _ rfl))
      refine Realizes.passes hfurther fun _ _ hexit => ?_
      exact Exit.of_reaches ((hadvances _ _ rfl).trans hexit.reaches).reaches rfl rfl
  -- that further steps take text follows from the calls being answered in order
  refine honce.congr fun hcorrect => (collect_eq_step ?_).symm
  intro entry behind extended after hreaches hstep
  refine (realizes_step ⟨behind, place.depth⟩ loop draft entry).exits ?_ _ hstep _ _ rfl
  exact fun task at' hpermits => hcorrect task at' (hpermits.earlier hreaches)

/-! ## Productions without calls -/

/-- A production that makes no calls. -/
theorem Realized.leaf {task : Task} {place : Place}
    (hscript : task.script place = done (task.perform place)) (h : task.Correct place) :
    task.Realized place := by
  rw [Realized, hscript, perform]
  exact .done fun taken heq => h taken.1 taken.2 heq

theorem realized_flags : flags.Realized place := by
  refine .leaf rfl fun node after heq => ?_
  obtain ⟨letters, -, -, -, hreads, -⟩ := flags_eq_ok_iff.mp heq
  exact Exit.of_reaches ⟨letters, hreads⟩ rfl rfl

theorem realized_digit : digit.Realized place := by
  refine .leaf rfl fun found after heq => ?_
  obtain ⟨taken, hdigit, htaken⟩ := map_eq_ok_iff.mp heq
  cases taken with
  | none =>
      obtain ⟨rfl, rfl⟩ := Prod.mk.inj htaken
      exact Exit.nothing rfl
  | some taken =>
      obtain ⟨node, last⟩ := taken
      obtain ⟨rfl, rfl⟩ := Prod.mk.inj htaken
      obtain ⟨c, -, hreads, -⟩ := digit_eq_some_iff.mp hdigit
      exact Exit.of_advances (Scanner.advances_of_reads hreads) rfl

theorem realized_escapedKeyword (kind : NodeKind) (letters : List Char) :
    (escapedKeyword kind letters).Realized place := by
  refine .leaf rfl fun node after heq => ?_
  obtain ⟨⟨backslash, inside⟩, hbackslash, heq⟩ := bind_eq_ok_iff.mp heq
  obtain ⟨begun, -, heq⟩ := bind_eq_ok_iff.mp heq
  obtain ⟨⟨letter, last⟩, hletter, heq⟩ := bind_eq_ok_iff.mp heq
  obtain ⟨noted, heq⟩ : ∃ noted, (record noted .value (.token letter) >>= fun filled =>
      pure (complete filled last)) = .ok (node, after) := by
    dsimp only at heq
    split at heq
    · obtain ⟨noted, -, heq⟩ := bind_eq_ok_iff.mp heq
      exact ⟨noted, heq⟩
    · exact ⟨begun, heq⟩
  obtain ⟨filled, -, hdone⟩ := bind_eq_ok_iff.mp heq
  obtain ⟨-, rfl⟩ := Prod.mk.inj (pure_eq_ok_iff.mp hdone)
  have hfront := Scanner.advances_of_take? (expect_eq_ok_iff.mp hbackslash)
  have hback := Scanner.advances_of_take? (expect_eq_ok_iff.mp hletter)
  exact Exit.of_advances (hfront.trans hback.reaches) rfl

theorem realized_sigil (kind : NodeKind) (terminal : Terminal) (what : String) :
    (sigil kind terminal what).Realized place := by
  refine .leaf rfl fun node after heq => ?_
  obtain ⟨⟨token, last⟩, htoken, heq⟩ := bind_eq_ok_iff.mp heq
  obtain ⟨filled, -, hdone⟩ := bind_eq_ok_iff.mp heq
  obtain ⟨-, rfl⟩ := Prod.mk.inj (pure_eq_ok_iff.mp hdone)
  exact Exit.of_advances (Scanner.advances_of_take? (expect_eq_ok_iff.mp htoken)) rfl

theorem realized_blockDigits (terminal : Terminal) (draft : Builder) :
    (blockDigits terminal draft).Realized place := by
  refine .leaf rfl fun digits after heq => ?_
  obtain ⟨taken, hdigits, htaken⟩ := map_eq_ok_iff.mp heq
  obtain ⟨-, rfl⟩ := Prod.mk.inj htaken
  exact Exit.of_advances (advances_of_blockDigits hdigits) rfl

/-! ## All productions -/

theorem realized (task : Task) (place : Place) : task.Realized place := by
  cases task with
  | flags => exact realized_flags place
  | alternatives draft => exact realized_alternatives place draft
  | alternative => exact realized_alternative place
  | element => exact realized_element place
  | atom => exact realized_atom place
  | group kind opener => exact realized_group place kind opener
  | quantifier operand => exact realized_quantifier place operand
  | bracedBounds draft => exact realized_bracedBounds place draft
  | unsignedInteger => exact realized_unsignedInteger place
  | digit => exact realized_digit place
  | characterClass => exact realized_characterClass place
  | classElement => exact realized_classElement place
  | classRange lower => exact realized_classRange place lower
  | character => exact realized_character place
  | escapedKeyword kind letters => exact realized_escapedKeyword place kind letters
  | sigil kind terminal what => exact realized_sigil place kind terminal what
  | escapedSet => exact realized_escapedSet place
  | escapeSequence => exact realized_escapeSequence place
  | escapeCode => exact realized_escapeCode place
  | blockDigits terminal draft => exact realized_blockDigits place terminal draft
  | repeated loop draft => exact realized_repeated place loop draft

end Task

end PatternTree
