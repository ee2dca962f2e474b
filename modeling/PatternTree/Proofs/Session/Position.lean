import PatternTree.Proofs.Session.Step
import PatternTree.Proofs.Slice

/-!
# Where a session stands

The tokens that a session has taken are spelled like the text behind the scanner, and what it has
not taken is the text ahead.  So the position, which is only ever counted in bytes, never falls
inside of a character.

* `Standing` — how position, tokens and the text ahead divide the text;
* `Keeping` — what one more call may change;
* `Looking` — what looking tells about taking;
* `session_positions` — all of it holds at any time in any session.
-/

namespace PatternTree

namespace Scanner

variable {scanner scanner' : Scanner} {call : Call} {reply : Reply}

/-- A call passes the text of the token that it takes, and nothing if it takes none. -/
theorem Outcome.passes (h : Outcome scanner call reply scanner') :
    scanner.rest = reply.token?.toList.flatMap Token.text ++ scanner'.rest ∧
      scanner'.position
        = scanner.position + Text.byteLength (reply.token?.toList.flatMap Token.text) := by
  cases h with
  | asked asks tokenless =>
      rw [tokenless]
      exact ⟨rfl, rfl⟩
  | refused attempts => exact ⟨rfl, rfl⟩
  | taken nonempty reads => simpa [Reply.token?] using ⟨reads.rest, reads.position⟩
  | opened nonempty reads => simpa [Reply.token?] using ⟨reads.rest, reads.position⟩
  | closed innermost reads => simpa [Reply.token?] using ⟨reads.rest, reads.position⟩
  | entered nonempty reads => simpa [Reply.token?] using ⟨reads.rest, reads.position⟩
  | ended nonempty reads => simpa [Reply.token?] using ⟨reads.rest, reads.position⟩
  | left => simp [Reply.token?]

/-- Calls pass the texts of the tokens that they take. -/
theorem passes_after (scanner : Scanner) (calls : List Call) :
    scanner.rest = (scanner.tokens calls).flatMap Token.text ++ (scanner.after calls).rest ∧
      (scanner.after calls).position
        = scanner.position + Text.byteLength ((scanner.tokens calls).flatMap Token.text) := by
  induction calls generalizing scanner with
  | nil => exact ⟨rfl, rfl⟩
  | cons call calls ih =>
      obtain ⟨hrest, hposition⟩ := (scanner.outcome_perform call).passes
      obtain ⟨hrest', hposition'⟩ := ih (scanner.perform call).2
      rw [tokens_cons, after_cons, List.flatMap_append, Text.byteLength_append]
      constructor
      · rw [List.append_assoc, ← hrest', ← hrest]
      · rw [hposition', hposition, Nat.add_assoc]

/-- The token of a call is not empty and takes up the bytes that the call passes. -/
theorem Outcome.token (h : Outcome scanner call reply scanner') {token : Token}
    (htoken : reply = .token (some token)) :
    token.text ≠ [] ∧ token.span = ⟨scanner.position, scanner'.position⟩ := by
  have hpasses := h.passes.2
  subst htoken
  have hspan : scanner'.position = scanner.position + Text.byteLength token.text := by
    simpa [Reply.token?] using hpasses
  rw [hspan]
  cases h with
  | asked asks tokenless => exact nomatch tokenless
  | taken nonempty reads => exact ⟨nonempty, rfl⟩
  | opened nonempty reads => exact ⟨nonempty, rfl⟩
  | closed innermost reads => exact ⟨List.cons_ne_nil _ _, rfl⟩
  | entered nonempty reads => exact ⟨nonempty, rfl⟩
  | ended nonempty reads => exact ⟨nonempty, rfl⟩

/-- A refused call changes nothing. -/
theorem Outcome.eq_of_refused (h : Outcome scanner call reply scanner')
    (hreply : reply = .token none) : scanner' = scanner := by
  cases h with
  | asked asks tokenless => rfl
  | refused attempts => rfl
  | _ => exact nomatch hreply

/-- A question changes nothing. -/
theorem Outcome.eq_of_asks (h : Outcome scanner call reply scanner')
    (hasks : call.asks = true) : scanner' = scanner := by
  cases h with
  | asked asks tokenless => rfl
  | refused attempts => rfl
  | _ => exact nomatch hasks

end Scanner

open Scanner

/-! ## Sessions -/

/-- The position divides a text between two characters: the tokens that have been taken spell what
is behind it, and the scanner has the rest ahead. -/
structure Standing (text : List Char) (tokens : List Token) (scanner : Scanner) : Prop where
  behind : Text.takeBytes? scanner.position text = some (tokens.flatMap Token.text)
  ahead : Text.dropBytes? scanner.position text = some scanner.rest
  inside : scanner.position ≤ Text.byteLength text
  /-- The scanner is at the end just if no text is ahead, and that is the end of the text. -/
  atEnd : scanner.atEnd = true ↔ scanner.rest = []
  exhausted : scanner.rest = [] ↔ scanner.position = Text.byteLength text

/-- What a call may change. -/
structure Keeping (scanner : Scanner) (call : Call) : Prop where
  /-- The position never falls back. -/
  forward : scanner.position ≤ (scanner.perform call).2.position
  /-- A token that is taken is not empty, and it takes up the bytes that are passed. -/
  token : ∀ token, (scanner.perform call).1 = .token (some token) → token.text ≠ [] ∧
    token.span = ⟨scanner.position, (scanner.perform call).2.position⟩
  /-- Where no token is taken, neither position nor frames change. -/
  refused : (scanner.perform call).1 = .token none → (scanner.perform call).2 = scanner
  asked : call.asks = true → (scanner.perform call).2 = scanner

/-- A terminal is seen just if it matches something, and what it matches is what it takes. -/
structure Looking (scanner : Scanner) (terminal : Terminal) : Prop where
  sees : scanner.sees terminal = true ↔ ∃ text, scanner.matched? terminal = some text
  takes : ∀ kind text, scanner.matched? terminal = some text ↔
    ∃ token, (scanner.perform (.take kind terminal)).1 = .token (some token) ∧ token.text = text

theorem standing_after (text : List Char) (calls : List Call) :
    Standing text ((new text).tokens calls) ((new text).after calls) := by
  obtain ⟨hrest, hposition⟩ := passes_after (new text) calls
  generalize (new text).tokens calls = tokens at *
  generalize (new text).after calls = scanner at *
  have htext : text = tokens.flatMap Token.text ++ scanner.rest := hrest
  have hbehind : scanner.position = Text.byteLength (tokens.flatMap Token.text) :=
    hposition.trans (Nat.zero_add _)
  have hlength : Text.byteLength text = scanner.position + Text.byteLength scanner.rest := by
    rw [htext, Text.byteLength_append, ← hbehind]
  exact {
    behind := by rw [htext, hbehind, Text.takeBytes?_append]
    ahead := by
      rw [htext, hbehind, Text.dropBytes?_append]
    inside := by omega
    atEnd := List.isEmpty_iff
    exhausted := by
      rw [← Text.byteLength_eq_zero]
      omega }

theorem keeping (scanner : Scanner) (call : Call) : Keeping scanner call where
  forward := by
    rw [(scanner.outcome_perform call).passes.2]
    exact Nat.le_add_right _ _
  token := fun _ => (scanner.outcome_perform call).token
  refused := (scanner.outcome_perform call).eq_of_refused
  asked := (scanner.outcome_perform call).eq_of_asks

theorem looking (scanner : Scanner) (terminal : Terminal) : Looking scanner terminal where
  sees := by
    rw [Scanner.sees, matched?, Option.isSome_iff_exists]
    simp
  takes := by
    intro kind text
    rw [perform, take?, matched?]
    cases hsplit : terminal.split? scanner.rest with
    | none => simp [Scanner.reply]
    | some parts => simp [Scanner.reply, Token.plain]

/-- **Where sessions stand.**  At any time in any session on any text, the position lies between two
characters of the text, the tokens taken so far spell what is behind it, and the scanner has what is
ahead.  One more call, whichever it is, does not fall back; a token that it takes begins where the
scanner stood and ends where it stands then; and a question or a refused call changes nothing.
Whatever matches a terminal there is what would be taken for it. -/
theorem session_positions (text : List Char) (calls : List Call) (call : Call)
    (terminal : Terminal) :
    Standing text ((new text).tokens calls) ((new text).after calls) ∧
      Keeping ((new text).after calls) call ∧ Looking ((new text).after calls) terminal :=
  ⟨standing_after text calls, keeping _ call, looking _ terminal⟩

/-- Behind the third byte stand two characters, the second of them two bytes long.  The line feed
ahead cannot be taken as plain text. -/
theorem session_positions_example :
    let text := "aé\n".toList
    let scanner := (new text).after
      [.take .literal .plain, .closing .punctuator '/', .take .literal .plain]
    scanner.position = 3 ∧ Text.takeBytes? 3 text = some "aé".toList ∧
      scanner.matched? .plain = none ∧
      (scanner.perform (.take .literal .plain)).2 = scanner := by
  intro text scanner
  obtain ⟨hstanding, hkeeping, hlooking⟩ := session_positions text
    [.take .literal .plain, .closing .punctuator '/', .take .literal .plain]
    (.take .literal .plain) .plain
  have hposition : scanner.position = 3 := by decide
  refine ⟨hposition, ?_, ?_, hkeeping.refused (by decide)⟩
  · rw [← hposition]
    exact hstanding.behind
  · rw [← Option.not_isSome_iff_eq_none, Option.isSome_iff_exists, ← hlooking.sees]
    decide

end PatternTree
