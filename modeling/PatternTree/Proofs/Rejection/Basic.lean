import PatternTree.Escape
import PatternTree.Proofs.Drafting
import PatternTree.Proofs.Grammar.Boundary

/-!
# Where reading stops

An attempt that is rejected names a place ahead of the scanner that it started from.  The place
splits the text ahead: `front` has been read, `back` has not been touched.  What is known of an
error is a relation between these two parts and the kind of the error (`Report`), and the rules of
this file derive it for a production from what is known of its parts.

* `Blames` — an attempt is rejected only at places ahead, and as reported;
* `Blames.bind`, `Blames.behind` — one part after the other;
* `collect_blames` — a repetition is rejected in one of its steps, behind entries that stand where
  they may;
* `Diagnosed` — the report of all productions: the error tells about the text around it
  (`Apt`), and what stands in front of it can be completed to something that the production reads,
  unless it is one of two exceptions (`TooLate`).
-/

namespace PatternTree.Production

open Grammar

variable {α β ε : Type}

/-- Whether two attempts have the same outcome can be decided. -/
instance [DecidableEq α] : DecidableEq (Attempt α)
  | .ok a, .ok b => decidable_of_iff (a = b) ⟨congrArg Except.ok, Except.ok.inj⟩
  | .error e, .error f => decidable_of_iff (e = f) ⟨congrArg Except.error, Except.error.inj⟩
  | .ok _, .error _ => isFalse fun h => nomatch h
  | .error _, .ok _ => isFalse fun h => nomatch h

/-- What is known of an error: the text that was read before it, the text behind it, and its
kind. -/
abbrev Report := List Char → List Char → ErrorKind → Prop

/-- An attempt that starts at a scanner is rejected only at places ahead, and as reported. -/
def Blames (scanner : Scanner) (report : Report) (attempt : Attempt α) : Prop :=
  ∀ position kind, attempt = .error (.rejected ⟨position, kind⟩) →
    ∃ front back, scanner.rest = front ++ back ∧
      position = scanner.position + Text.byteLength front ∧ report front back kind

variable {scanner after : Scanner} {report : Report} {attempt : Attempt α}

theorem blames_ok (a : α) : Blames scanner report (.ok a : Attempt α) := by
  intro position kind h
  exact nomatch h

theorem blames_pure (a : α) : Blames scanner report (pure a : Attempt α) :=
  blames_ok a

/-- An error somewhere ahead. -/
theorem blames_ahead {front back : List Char} {kind : ErrorKind}
    (hrest : scanner.rest = front ++ back) (h : report front back kind) :
    Blames scanner report
      (reject (scanner.position + Text.byteLength front) kind : Attempt α) := by
  intro position other heq
  obtain ⟨rfl, rfl⟩ := Error.mk.inj (Failure.rejected.inj (Except.error.inj heq))
  exact ⟨front, back, hrest, rfl, h⟩

/-- An error behind a text that was read. -/
theorem blames_reject {front : List Char} {kind : ErrorKind} (reads : scanner.Reads front after)
    (h : report front after.rest kind) :
    Blames scanner report (reject after.position kind : Attempt α) := by
  rw [reads.position]
  exact blames_ahead reads.rest h

/-- An error where the scanner stands. -/
theorem blames_here {kind : ErrorKind} (h : report [] scanner.rest kind) :
    Blames scanner report (reject scanner.position kind : Attempt α) :=
  blames_reject (Scanner.reads_nil.mpr rfl) h

/-- A report may be replaced by one that follows from it. -/
theorem Blames.mono {weaker : Report} (h : Blames scanner report attempt)
    (himp : ∀ front back kind, scanner.rest = front ++ back → report front back kind →
      weaker front back kind) : Blames scanner weaker attempt := by
  intro position kind heq
  obtain ⟨front, back, hrest, hposition, hreport⟩ := h position kind heq
  exact ⟨front, back, hrest, hposition, himp front back kind hrest hreport⟩

/-- An attempt that goes on from the result of another one. -/
theorem Blames.bind {next : α → Attempt β} (h : Blames scanner report attempt)
    (hnext : ∀ a, attempt = .ok a → Blames scanner report (next a)) :
    Blames scanner report (attempt >>= next) := by
  cases attempt with
  | ok a => exact hnext a rfl
  | error failure =>
      intro position kind heq
      exact h position kind (congrArg Except.error (Except.error.inj heq))

/-- An attempt that starts behind a text that was read. -/
theorem Blames.behind {text : List Char} (reads : scanner.Reads text after)
    (h : Blames after (fun front => report (text ++ front)) attempt) :
    Blames scanner report attempt := by
  intro position kind heq
  obtain ⟨front, back, hrest, hposition, hreport⟩ := h position kind heq
  refine ⟨text ++ front, back, ?_, ?_, hreport⟩
  · rw [reads.rest, hrest, List.append_assoc]
  · rw [hposition, reads.position, Text.byteLength_append, Nat.add_assoc]

/-- Under one more frame the same errors are reported. -/
theorem Blames.push (frame : Frame) (h : Blames scanner report attempt) :
    Blames (scanner.push frame) report attempt := h

theorem Blames.of_push (frame : Frame) (h : Blames (scanner.push frame) report attempt) :
    Blames scanner report attempt := h

/-- How failures of another kind are reported does not matter. -/
theorem blames_mapError {cause : Type} {result : Except cause α} {wrap : cause → Failure}
    (h : ∀ c error, wrap c ≠ .rejected error) :
    Blames scanner report (result.mapError wrap) := by
  intro position kind heq
  cases result with
  | ok a => exact nomatch heq
  | error c => exact absurd (Except.error.inj heq) (h c _)

theorem blames_record {draft : Builder} {slot : Slot} {child : Child Node} :
    Blames scanner report (record draft slot child) :=
  blames_mapError fun _ _ heq => nomatch heq

theorem blames_note {draft : Builder} {name : AttributeName} {value : Attribute} :
    Blames scanner report (note draft name value) :=
  blames_mapError fun _ _ heq => nomatch heq

theorem blames_noteAll {attributes : List (AttributeName × Attribute)} {draft : Builder} :
    Blames scanner report (noteAll draft attributes) := by
  induction attributes generalizing draft with
  | nil => exact blames_pure draft
  | cons entry rest ih => exact blames_note.bind fun noted _ => ih

/-- A terminal that is seen can be taken. -/
theorem take?_ne_none {kind : Token.Kind} {terminal : Terminal}
    (h : scanner.sees terminal = true) : scanner.take? kind terminal ≠ none := by
  have htake : scanner.sees terminal = (scanner.take? kind terminal).isSome :=
    Scanner.sees_iff_take?
  rw [htake] at h
  exact Option.isSome_iff_ne_none.mp h

/-- A terminal that is seen is taken. -/
theorem blames_expect {kind : Token.Kind} {terminal : Terminal} {what : String}
    (h : scanner.sees terminal = true) :
    Blames scanner report (expect kind terminal what scanner) := by
  unfold expect
  split
  · exact blames_ok _
  · next hnone => exact absurd hnone (take?_ne_none h)

/-- A delimiter that is seen can be opened. -/
theorem open?_ne_none {kind : Token.Kind} {terminal : Terminal} {closer : Char}
    {inside : Option Region} (h : scanner.sees terminal = true) :
    scanner.open? kind terminal closer inside ≠ none := by
  unfold Scanner.open?
  split
  · next hnone => exact absurd hnone (take?_ne_none h)
  · exact Option.some_ne_none _

/-- A region is entered where its token is seen. -/
theorem enter?_ne_none {kind : Token.Kind} {terminal : Terminal} {inside : Region}
    (h : scanner.sees terminal = true) : scanner.enter? kind terminal inside ≠ none := by
  unfold Scanner.enter?
  split
  · next hnone => exact absurd hnone (take?_ne_none h)
  · exact Option.some_ne_none _

/-- The closer of the innermost delimiter is missed only where it does not come. -/
theorem blames_expectClosing {closer : Char} {inside : Option Region}
    (h : Scanner.begins (· == closer) scanner.rest = false →
      report [] scanner.rest (.unbalancedDelimiter closer)) :
    Blames scanner report
      (expectClosing closer (scanner.push (.delimiter closer inside))) := by
  unfold expectClosing
  split
  · exact blames_ok _
  · next hnone =>
    refine blames_here (h ?_)
    cases htake : scanner.take? .punctuator (.char closer) with
    | none => exact (Scanner.take?_single_eq_none_iff rfl).mp htake
    | some taken =>
        obtain ⟨hreads, -⟩ := Scanner.take?_char_iff.mp htake
        rw [Scanner.close?_push_iff.mpr ⟨hreads, rfl⟩] at hnone
        exact nomatch hnone

/-! ## Repetition -/

/-- Every entry may stand before what follows it, but more may follow the last one. -/
def Entries.Leads (entries : Entries ε) : List ε → List Char → Prop
  | [], _ => True
  | entry :: list, rest =>
    entries.joins entry (entries.textOf list ++ rest) ∧ entries.Leads list rest

/-- Behind a whole chain no further entry comes. -/
theorem Entries.Chain.stops {entries : Entries ε} {list : List ε} {rest : List Char}
    (h : entries.Chain list rest) : entries.stops rest := by
  induction list with
  | nil => exact h
  | cons entry list ih => exact ih h.2

/-- Behind some entries an error is reported. -/
def Entries.Interrupted (entries : Entries ε) (report : Report) : Report :=
  fun front back kind => ∃ list last, front = entries.textOf list ++ last ∧
    entries.Leads list (last ++ back) ∧ report last back kind

private theorem collectUpTo_blames {step : Step} {entries : Entries ε} {kind : NodeKind}
    {frames : List Frame} (reads : step.ReadsEntries entries kind frames)
    (faults : ∀ {draft scanner}, draft.kind = kind → scanner.frames = frames →
      Blames scanner report (step draft scanner)) (bound : Nat) :
    ∀ {draft : Builder} {scanner : Scanner}, draft.kind = kind → scanner.frames = frames →
      Blames scanner (entries.Interrupted report) (collectUpTo step bound draft scanner) := by
  induction bound with
  | zero => exact fun _ _ => blames_ok _
  | succ bound ih =>
      intro draft scanner hkind hframes
      rw [collectUpTo]
      refine Blames.bind ?_ fun result hresult => ?_
      · refine (faults hkind hframes).mono fun front back kind _ hreport => ?_
        exact ⟨[], front, rfl, trivial, hreport⟩
      · cases result with
        | none => exact blames_pure _
        | some taken =>
            obtain ⟨extended, behind⟩ := taken
            obtain ⟨entry, hreads, hjoins, rfl⟩ := (reads.more hkind hframes).mp hresult
            have hlater := ih ((Builder.extend_kind draft (Node.placeAll scanner.position
              (entries.properties entry))).trans hkind) (hreads.frames.trans hframes)
            refine Blames.behind hreads (hlater.mono fun front back kind hbehind hreport => ?_)
            obtain ⟨list, last, rfl, hleads, hlast⟩ := hreport
            rw [hbehind, List.append_assoc] at hjoins
            exact ⟨entry :: list, last, (List.append_assoc ..).symm, ⟨hjoins, hleads⟩, hlast⟩

/-- A repetition is rejected just where one of its steps is, behind the entries that were read
before. -/
theorem collect_blames {step : Step} {entries : Entries ε} {kind : NodeKind}
    {frames : List Frame} (reads : step.ReadsEntries entries kind frames)
    (faults : ∀ {draft scanner}, draft.kind = kind → scanner.frames = frames →
      Blames scanner report (step draft scanner))
    {draft : Builder} (hkind : draft.kind = kind) (hframes : scanner.frames = frames) :
    Blames scanner (entries.Interrupted report) (collect step draft scanner) :=
  collectUpTo_blames reads faults _ hkind hframes

/-! ## What errors tell -/

/-- A code in braces with six digits that is beyond the last code point, behind its backslash. -/
def NamesNoCodePoint (text : List Char) : Prop :=
  ∃ digits rest, text = 'u' :: '{' :: (digits ++ '}' :: rest) ∧ digits.length = 6 ∧
    digits.all (Numeral.isDigit 16) = true ∧ 0x10ffff < Numeral.value 16 digits

/-- What has been read of bounds behind their opening brace: digits, and digits again behind a
comma. -/
def BoundsBegun (text : List Char) : Prop :=
  ∃ least : List Char, least.all (Numeral.isDigit 10) = true ∧
    (text = least ∨ least ≠ [] ∧ ∃ most : List Char, most.all (Numeral.isDigit 10) = true ∧
      text = least ++ ',' :: most)

/-- What has been read of a character code behind its letter: nothing, or a brace and digits. -/
def CodeBegun (letter : Char) (text : List Char) : Prop :=
  text = [] ∨ letter = 'u' ∧ ∃ digits : List Char, digits.all (Numeral.isDigit 16) = true ∧
    text = '{' :: digits

/-- What an error between the slashes tells about the text in front of it and behind it. -/
def Apt (front back : List Char) : ErrorKind → Prop
  | .general detail =>
    ∃ c ∈ back.head?, c ∈ ['\r', '\n', '\t'] ∧ .general detail = ErrorKind.unexpected c
  | .duplicateFlag _ => False
  | .unbalancedDelimiter closer =>
    closer = ']' ∧ back = [] ∨ closer = ')' ∧ ∀ c ∈ back.head?, c = '/'
  | .malformedQuantifier =>
    (∃ c ∈ back.head?, c ∈ ['*', '+', '?']) ∨ beginsBounds back = true ∨
      ∃ before bounds, front = before ++ '{' :: bounds ∧ BoundsBegun bounds
  | .unrecognizedEscape escape =>
    ∃ rest, back = '\\' :: rest ∧ escape = '\\' :: rest.head?.toList
  | .unknownRegion _ => False
  | .invalidHex =>
    ∃ before letter digits, front = before ++ '\\' :: letter :: digits ∧
      letter ∈ PatternTree.Escape.codeLetters ∧ CodeBegun letter digits
  | .invalidCodePoint => (∃ before, front = before ++ ['\\']) ∧ NamesNoCodePoint back
  | .recursionExceeded => back.head? = some '('

/-- What an error tells does not depend on text far in front of it. -/
theorem Apt.prepend {front back : List Char} {kind : ErrorKind} (h : Apt front back kind)
    (text : List Char) : Apt (text ++ front) back kind := by
  cases kind with
  | general detail => exact h
  | duplicateFlag letter => exact h
  | unbalancedDelimiter closer => exact h
  | malformedQuantifier =>
      rcases h with hsigil | hbounds | ⟨before, bounds, rfl, hbegun⟩
      · exact .inl hsigil
      · exact .inr (.inl hbounds)
      · exact .inr (.inr ⟨text ++ before, bounds, (List.append_assoc ..).symm, hbegun⟩)
  | unrecognizedEscape escape => exact h
  | unknownRegion region => exact h
  | invalidHex =>
      obtain ⟨before, letter, digits, rfl, hletter⟩ := h
      exact ⟨text ++ before, letter, digits, (List.append_assoc ..).symm, hletter⟩
  | invalidCodePoint =>
      obtain ⟨⟨before, rfl⟩, hback⟩ := h
      exact ⟨⟨text ++ before, (List.append_assoc ..).symm⟩, hback⟩
  | recursionExceeded => exact h

/-- The two errors that are found too late: behind all digits of a code in braces that has too
many of them or is beyond the last code point, and behind bounds that are out of order. -/
def TooLate (front back : List Char) : ErrorKind → Prop
  | .invalidHex =>
    ∃ before digits, front = before ++ '\\' :: 'u' :: '{' :: digits ∧
      digits.all (Numeral.isDigit 16) = true ∧
      Scanner.begins (Numeral.isDigit 16) back = false ∧
      (6 < digits.length ∨ 0x10ffff < Numeral.value 16 digits)
  | .malformedQuantifier =>
    ∃ (before : List Char) (least most : Count),
      front = before ++ '{' :: (least.digits ++ ',' :: most.digits) ∧
      Scanner.begins (Numeral.isDigit 10) back = false ∧ most.value < least.value
  | _ => False

theorem TooLate.prepend {front back : List Char} {kind : ErrorKind}
    (h : TooLate front back kind) (text : List Char) : TooLate (text ++ front) back kind := by
  cases kind with
  | invalidHex =>
      obtain ⟨before, digits, rfl, hdigits⟩ := h
      exact ⟨text ++ before, digits, (List.append_assoc ..).symm, hdigits⟩
  | malformedQuantifier =>
      obtain ⟨before, least, most, rfl, hbounds⟩ := h
      exact ⟨text ++ before, least, most, (List.append_assoc ..).symm, hbounds⟩
  | general detail => exact h
  | duplicateFlag letter => exact h
  | unbalancedDelimiter closer => exact h
  | unrecognizedEscape escape => exact h
  | unknownRegion region => exact h
  | invalidCodePoint => exact h
  | recursionExceeded => exact h

/-- How what stands in front of an error is completed, in a place where groups may nest to the
given number of levels: groups that are nested too deeply by closing all that are open.  In a
place where there are no groups, none is nested too deeply. -/
def Completes (depth : Option Nat) (kind : ErrorKind) (rest : List Char) : Prop :=
  kind = .recursionExceeded → ∃ levels, depth = some levels ∧ rest = List.replicate levels ')'

theorem completes_of_ne {depth : Option Nat} {kind : ErrorKind} {rest : List Char}
    (h : kind ≠ .recursionExceeded) : Completes depth kind rest :=
  fun heq => absurd heq h

/-- Where there are no groups, what is completed may be continued in any way. -/
theorem Completes.leaf {depth : Option Nat} {kind : ErrorKind} {rest other : List Char}
    (h : Completes none kind rest) : Completes depth kind other := by
  intro heq
  obtain ⟨levels, hdepth, -⟩ := h heq
  exact nomatch hdepth

/-- A further group is closed like those inside it. -/
theorem Completes.close {levels : Nat} {kind : ErrorKind} {rest : List Char}
    (h : Completes (some levels) kind rest) :
    Completes (some (levels + 1)) kind (rest ++ [')']) := by
  intro heq
  obtain ⟨_, hlevels, rfl⟩ := h heq
  obtain rfl := Option.some.inj hlevels
  exact ⟨levels + 1, rfl, List.replicate_succ'.symm⟩

/-- The error tells about the text around it, and what stands in front of it can be completed to
a text of the language. -/
structure Diagnosed (depth : Option Nat) (language : List Char → Prop) (front back : List Char)
    (kind : ErrorKind) : Prop where
  apt : Apt front back kind
  viable : TooLate front back kind ∨
    ∃ rest, Completes depth kind rest ∧ language (front ++ rest)

/-- What completes to a text of a language completes to a text of a wider one. -/
theorem Diagnosed.mono {depth : Option Nat} {inner outer : List Char → Prop}
    {front back : List Char} {kind : ErrorKind} (h : Diagnosed depth inner front back kind)
    (himp : ∀ text, inner text → outer text) : Diagnosed depth outer front back kind where
  apt := h.apt
  viable := h.viable.imp_right fun ⟨rest, hcompletes, hinner⟩ =>
    ⟨rest, hcompletes, himp _ hinner⟩

/-- What stands in front of an error is completed along with the text around it. -/
theorem Diagnosed.within {depth depth' : Option Nat} {inner outer : List Char → Prop}
    {front back : List Char} {kind : ErrorKind} (h : Diagnosed depth inner front back kind)
    (before behind : List Char)
    (completes : ∀ rest, Completes depth kind rest → Completes depth' kind (rest ++ behind))
    (transfer : ∀ rest, inner (front ++ rest) → outer (before ++ (front ++ rest) ++ behind)) :
    Diagnosed depth' outer (before ++ front) back kind where
  apt := h.apt.prepend before
  viable := by
    rcases h.viable with late | ⟨rest, hcompletes, hinner⟩
    · exact .inl (late.prepend before)
    · refine .inr ⟨rest ++ behind, completes rest hcompletes, ?_⟩
      have houter := transfer rest hinner
      simp only [List.append_assoc] at houter ⊢
      exact houter

/-- Behind a text that was read, what completes the rest completes the whole. -/
theorem Diagnosed.append {depth : Option Nat} {inner outer : List Char → Prop}
    {front back before : List Char} {kind : ErrorKind} (h : Diagnosed depth inner front back kind)
    (transfer : ∀ rest, inner (front ++ rest) → outer (before ++ (front ++ rest))) :
    Diagnosed depth outer (before ++ front) back kind := by
  have hnil : ∀ rest : List Char, rest ++ [] = rest := List.append_nil
  refine h.within before [] (fun rest hrest => (hnil rest).symm ▸ hrest) fun rest hinner => ?_
  rw [hnil]
  exact transfer rest hinner

end PatternTree.Production
