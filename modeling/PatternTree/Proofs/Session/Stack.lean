import Mathlib.Data.List.Induction
import PatternTree.Proofs.Balance
import PatternTree.Proofs.Session.Step

/-!
# The frames of a session

Delimiters and regions share one stack of frames, and a session may open and close them in any
order, whether that makes sense or not.  The closers on the stack can still be read off the tokens:
a scan puts on a stack of its own what every token demands to be closed by, takes it off again where
a token closes it, and is left with the closers of the open frames (`scan_after`).  Regions do not
disturb this, since their frames have no closers.

What the scan is left with is what has been opened and not closed since.  Nothing behind the token
that opened it closes it, and that is to say that the tokens behind can be scanned from an empty
stack (`mem_iff_unclosed`).

* `Unclosed` — something has been opened and not closed since;
* `Nested` — what the tokens of a session tell about the open frames;
* `session_nested` — this holds at any time in any session, and a frame goes only if it is the
  innermost one and the call names it.
-/

namespace PatternTree

/-! ## Scanning tokens for delimiters -/

namespace Token

variable {stack after below top : List Char} {token : Token} {closer : Char}

/-- One step of the scan: what an opening token has to be closed by is put on the stack, and a
closing token has to be spelled like the top of the stack and takes it off. -/
def scan? (stack : List Char) (token : Token) : Option (List Char) :=
  match token.balanced, token.balancer with
  | some closer, false => some (closer :: stack)
  | none, true =>
    match stack with
    | closer :: below => if token.text = [closer] then some below else none
    | [] => none
  | none, false => some stack
  | some _, true => none

theorem scan?_undelimiting (h : token.Undelimiting) (stack : List Char) :
    scan? stack token = some stack := by
  unfold scan?
  rw [h.1, h.2]

theorem scan?_opens (h : token.Opens closer) (stack : List Char) :
    scan? stack token = some (closer :: stack) := by
  unfold scan?
  rw [h.1, h.2]

theorem scan?_closes (h : token.Closes closer) (stack : List Char) :
    scan? (closer :: stack) token = some stack := by
  unfold scan?
  rw [h.1, h.2.1]
  exact if_pos h.2.2

/-- A step of the scan succeeds in three ways only. -/
theorem scan?_cases (h : scan? stack token = some after) :
    (token.Undelimiting ∧ after = stack) ∨
      (∃ closer, token.Opens closer ∧ after = closer :: stack) ∨
      ∃ closer, token.Closes closer ∧ stack = closer :: after := by
  unfold scan? at h
  split at h
  · next closer hbalanced hbalancer =>
    exact .inr (.inl ⟨closer, ⟨hbalanced, hbalancer⟩, (Option.some.inj h).symm⟩)
  · next hbalanced hbalancer =>
    cases stack with
    | nil => exact nomatch h
    | cons closer below =>
        by_cases htext : token.text = [closer]
        · have hbelow : some below = some after := (if_pos htext).symm.trans h
          obtain rfl := Option.some.inj hbelow
          exact .inr (.inr ⟨closer, ⟨hbalanced, hbalancer, htext⟩, rfl⟩)
        · have hnone : none = some after := (if_neg htext).symm.trans h
          exact nomatch hnone
  · next hbalanced hbalancer => exact .inl ⟨⟨hbalanced, hbalancer⟩, (Option.some.inj h).symm⟩
  · exact nomatch h

/-- What lies below the stack does not matter to a scan that succeeds without it. -/
theorem scan?_append (h : scan? stack token = some after) (below : List Char) :
    scan? (stack ++ below) token = some (after ++ below) := by
  rcases scan?_cases h with ⟨hplain, rfl⟩ | ⟨closer, hopens, rfl⟩ | ⟨closer, hcloses, rfl⟩
  · exact scan?_undelimiting hplain _
  · exact scan?_opens hopens _
  · exact scan?_closes hcloses _

theorem scan_append {tokens : List Token} (h : tokens.foldlM scan? stack = some after)
    (below : List Char) : tokens.foldlM scan? (stack ++ below) = some (after ++ below) := by
  induction tokens generalizing stack with
  | nil =>
      obtain rfl : stack = after := Option.some.inj h
      rfl
  | cons token tokens ih =>
      obtain ⟨middle, htoken, htokens⟩ := Option.bind_eq_some_iff.mp h
      rw [List.foldlM_cons, scan?_append htoken below]
      exact ih htokens

/-- A scan of one more token. -/
theorem scan_concat (tokens : List Token) (token : Token) (stack : List Char) :
    (tokens ++ [token]).foldlM scan? stack
      = (tokens.foldlM scan? stack).bind fun middle => scan? middle token := by
  rw [List.foldlM_append]
  exact Option.bind_congr fun middle _ => by simp

/-- What is on the stack was put there by some token, and the tokens behind it put on what is
above. -/
theorem exists_opening {tokens : List Token}
    (h : tokens.foldlM scan? [] = some (top ++ closer :: below)) :
    ∃ before opening behind, tokens = before ++ opening :: behind ∧ opening.Opens closer ∧
      behind.foldlM scan? [] = some top := by
  induction tokens using List.reverseRecOn generalizing top with
  | nil => simp at h
  | append_singleton tokens token ih =>
      rw [scan_concat] at h
      obtain ⟨stack, hstack, htoken⟩ := Option.bind_eq_some_iff.mp h
      -- unless the token itself put the closer on, it was there before, below some other top
      have hearlier : ∀ other, stack = other ++ closer :: below → scan? other token = some top →
          ∃ before opening behind, tokens ++ [token] = before ++ opening :: behind ∧
            opening.Opens closer ∧ behind.foldlM scan? [] = some top := by
        intro other hother hscan
        rw [hother] at hstack
        obtain ⟨before, opening, behind, rfl, hopens, hbehind⟩ := ih hstack
        refine ⟨before, opening, behind ++ [token], by simp, hopens, ?_⟩
        rw [scan_concat, hbehind]
        exact hscan
      rcases scan?_cases htoken with ⟨hplain, hsame⟩ | ⟨c, hopens, hpush⟩ | ⟨c, hcloses, hpop⟩
      · exact hearlier top hsame.symm (scan?_undelimiting hplain top)
      · cases top with
        | nil =>
            obtain ⟨rfl, -⟩ := List.cons.inj hpush
            exact ⟨tokens, token, [], rfl, hopens, rfl⟩
        | cons d top =>
            obtain ⟨rfl, hbelow⟩ := List.cons.inj hpush
            exact hearlier top hbelow.symm (scan?_opens hopens top)
      · exact hearlier (c :: top) hpop (scan?_closes hcloses top)

end Token

/-- Something has been opened that the given character closes, and it has not been closed: what
comes behind closes no more than it has opened itself. -/
def Unclosed (tokens : List Token) (closer : Char) : Prop :=
  ∃ before opening behind, tokens = before ++ opening :: behind ∧
    opening.balanced = some closer ∧ (behind.foldlM Token.scan? []).isSome = true

/-- The scan is left with what has been opened and not closed. -/
theorem mem_iff_unclosed {tokens : List Token} {stack : List Char} {closer : Char}
    (h : tokens.foldlM Token.scan? [] = some stack) : closer ∈ stack ↔ Unclosed tokens closer := by
  constructor
  · intro hmem
    obtain ⟨top, below, rfl⟩ := List.append_of_mem hmem
    obtain ⟨before, opening, behind, hsplit, hopens, hbehind⟩ := Token.exists_opening h
    exact ⟨before, opening, behind, hsplit, hopens.1, by rw [hbehind]; rfl⟩
  · intro hunclosed
    obtain ⟨before, opening, behind, rfl, hbalanced, hsome⟩ := hunclosed
    obtain ⟨top, hbehind⟩ := Option.isSome_iff_exists.mp hsome
    rw [List.foldlM_append] at h
    obtain ⟨below, -, hopening⟩ := Option.bind_eq_some_iff.mp h
    obtain ⟨pushed, hpushed, hrest⟩ := Option.bind_eq_some_iff.mp hopening
    obtain rfl : pushed = closer :: below := by
      rcases Token.scan?_cases hpushed with ⟨hplain, -⟩ | ⟨c, hopens, rfl⟩ | ⟨c, hcloses, -⟩
      · exact nomatch hplain.1.symm.trans hbalanced
      · rw [Option.some.inj (hopens.1.symm.trans hbalanced)]
      · exact nomatch hcloses.1.symm.trans hbalanced
    -- what comes behind is scanned on top of the closer and leaves it there
    have hwhole : some (top ++ closer :: below) = some stack :=
      (Token.scan_append hbehind (closer :: below)).symm.trans hrest
    rw [← Option.some.inj hwhole]
    exact List.mem_append_right _ List.mem_cons_self

/-! ## Closers of frames -/

/-- The characters that have to close the frames, the innermost first. -/
def closers (frames : List Frame) : List Char :=
  frames.filterMap Frame.closer?

namespace Scanner

variable {scanner scanner' : Scanner} {call : Call} {reply : Reply}

/-- Leaving a region closes nothing. -/
theorem closers_leave (scanner : Scanner) (inside : Region) :
    closers (scanner.leave inside).frames = closers scanner.frames := by
  rcases scanner.leave_frames inside with hleft | hsame
  · rw [hleft]
    rfl
  · rw [hsame]

/-- The token of a call, if there is one, does to the scan what the call does to the closers. -/
theorem Outcome.scan (h : Outcome scanner call reply scanner') :
    reply.token?.toList.foldlM Token.scan? (closers scanner.frames)
      = some (closers scanner'.frames) := by
  have hone : ∀ (token : Token) stack, [token].foldlM Token.scan? stack = token.scan? stack := by
    intro token stack
    simp
  cases h with
  | asked asks tokenless =>
      rw [tokenless]
      rfl
  | refused attempts => rfl
  | taken nonempty reads =>
      rw [reads.frames]
      exact (hone _ _).trans (Token.scan?_undelimiting ⟨rfl, rfl⟩ _)
  | opened nonempty reads =>
      rw [push_frames, reads.frames]
      exact (hone _ _).trans (Token.scan?_opens ⟨rfl, rfl⟩ _)
  | closed innermost reads =>
      rw [innermost]
      exact (hone _ _).trans (Token.scan?_closes ⟨rfl, rfl, rfl⟩ _)
  | entered nonempty reads =>
      rw [push_frames, reads.frames]
      exact (hone _ _).trans (Token.scan?_undelimiting ⟨rfl, rfl⟩ _)
  | ended nonempty reads =>
      rw [closers_leave, reads.frames]
      exact (hone _ _).trans (Token.scan?_undelimiting ⟨rfl, rfl⟩ _)
  | left => rw [closers_leave]; rfl

/-- A scan of the tokens of a session is left with the closers of the frames that are open. -/
theorem scan_after (scanner : Scanner) (calls : List Call) :
    (scanner.tokens calls).foldlM Token.scan? (closers scanner.frames)
      = some (closers (scanner.after calls).frames) := by
  induction calls generalizing scanner with
  | nil => rfl
  | cons call calls ih =>
      rw [tokens_cons, after_cons, List.foldlM_append, (scanner.outcome_perform call).scan]
      exact ih _

/-- A scanner awaits the closers of its frames. -/
theorem awaits_iff_mem_closers {c : Char} :
    scanner.awaits c = true ↔ c ∈ closers scanner.frames := by
  simp [awaits, closers]

/-- The region is that of the innermost frame that has one. -/
theorem region_cases (scanner : Scanner) :
    (∃ inner frame outer, scanner.frames = inner ++ frame :: outer ∧
      (∀ other ∈ inner, other.region? = none) ∧ frame.region? = some scanner.region) ∨
    ((∀ frame ∈ scanner.frames, frame.region? = none) ∧ scanner.region = .pattern) := by
  rw [Scanner.region]
  cases hfound : scanner.frames.findSome? Frame.region? with
  | none => exact .inr ⟨List.findSome?_eq_none_iff.mp hfound, rfl⟩
  | some region =>
      obtain ⟨inner, frame, outer, hsplit, hregion, hinner⟩ := List.findSome?_eq_some_iff.mp hfound
      exact .inl ⟨inner, frame, outer, hsplit, hinner, hregion⟩

end Scanner

/-! ## Which frames go -/

/-- The call is meant for the frame: it closes the delimiter by its closer, or leaves the region. -/
def Frame.EndedBy : Frame → Scanner.Call → Prop
  | .delimiter closer _, .closing _ c => c = closer
  | .region inside, .leaving _ _ left => left = inside
  | .region inside, .leave left => left = inside
  | _, _ => False

/-- A call that is meant for a frame is no question. -/
theorem Frame.EndedBy.asks_eq_false {frame : Frame} {call : Scanner.Call}
    (h : frame.EndedBy call) : call.asks = false := by
  cases frame <;> cases call <;> first | rfl | exact nomatch h

namespace Scanner

variable {scanner scanner' : Scanner} {call : Call} {reply : Reply} {frame : Frame}
  {outer : List Frame}

/-- A call keeps the open frames, or it takes off the innermost one, which it is meant for. -/
theorem Outcome.frames (h : Outcome scanner call reply scanner') :
    scanner.frames <:+ scanner'.frames ∨
      ∃ frame, scanner.frames = frame :: scanner'.frames ∧ frame.EndedBy call ∧
        reply ≠ .token none := by
  cases h with
  | asked asks tokenless => exact .inl (List.suffix_refl _)
  | refused attempts => exact .inl (List.suffix_refl _)
  | taken nonempty reads =>
      rw [reads.frames]
      exact .inl (List.suffix_refl _)
  | opened nonempty reads =>
      rw [push_frames, reads.frames]
      exact .inl (List.suffix_cons _ _)
  | closed innermost reads => exact .inr ⟨_, innermost, rfl, nofun⟩
  | entered nonempty reads =>
      rw [push_frames, reads.frames]
      exact .inl (List.suffix_cons _ _)
  | @ended _ _ inside _ behind nonempty reads =>
      rcases behind.leave_frames inside with hleft | hsame
      · exact .inr ⟨_, reads.frames.symm.trans hleft, rfl, nofun⟩
      · rw [hsame, reads.frames]
        exact .inl (List.suffix_refl _)
  | @left inside =>
      rcases scanner.leave_frames inside with hleft | hsame
      · exact .inr ⟨_, hleft, rfl, nofun⟩
      · rw [hsame]
        exact .inl (List.suffix_refl _)

/-- Leaving the region of the innermost frame takes the frame off. -/
theorem leave_frames_of_innermost {inside : Region} (h : scanner.frames = .region inside :: outer) :
    (scanner.leave inside).frames = outer := by
  simp [leave, h]

/-- The innermost frame goes if the call is meant for it and not refused. -/
theorem Outcome.frames_of_endedBy (h : Outcome scanner call reply scanner')
    (hframes : scanner.frames = frame :: outer) (hended : frame.EndedBy call)
    (haccepted : reply ≠ .token none) : scanner'.frames = outer := by
  cases h with
  | asked asks tokenless => exact absurd (hended.asks_eq_false.symm.trans asks) Bool.false_ne_true
  | refused attempts => exact absurd rfl haccepted
  | closed innermost reads => exact (List.cons.inj (innermost.symm.trans hframes)).2
  | ended nonempty reads =>
      cases frame with
      | delimiter closer inside => exact nomatch hended
      | region inside =>
          obtain rfl := hended
          exact leave_frames_of_innermost (reads.frames.trans hframes)
  | left =>
      cases frame with
      | delimiter closer inside => exact nomatch hended
      | region inside =>
          obtain rfl := hended
          exact leave_frames_of_innermost hframes
  | _ => cases frame <;> exact nomatch hended

/-- An open frame goes just if it is the innermost one, the call is meant for it, and the call is
not refused. -/
theorem not_suffix_iff (scanner : Scanner) (call : Call)
    (hopen : frame :: outer <:+ scanner.frames) :
    ¬ frame :: outer <:+ (scanner.perform call).2.frames ↔
      scanner.frames = frame :: outer ∧ frame.EndedBy call ∧
        (scanner.perform call).1 ≠ .token none := by
  have houtcome := scanner.outcome_perform call
  constructor
  · intro hgone
    -- a frame below the innermost one stays whatever happens to that one
    rcases houtcome.frames with hkept | ⟨innermost, hframes, hended, haccepted⟩
    · exact absurd (hopen.trans hkept) hgone
    · rw [hframes] at hopen
      rcases List.suffix_cons_iff.mp hopen with heq | hbelow
      · obtain ⟨rfl, rfl⟩ := List.cons.inj heq
        exact ⟨hframes, hended, haccepted⟩
      · exact absurd hbelow hgone
  · intro hmeant hkept
    obtain ⟨hframes, hended, haccepted⟩ := hmeant
    rw [houtcome.frames_of_endedBy hframes hended haccepted] at hkept
    have hlength := hkept.length_le
    rw [List.length_cons] at hlength
    omega

end Scanner

open Scanner

/-! ## Sessions -/

/-- What the tokens that have been taken tell about the frames that are open. -/
structure Nested (tokens : List Token) (scanner : Scanner) : Prop where
  /-- Tokens close only what is open, by its own closer, and the frames with a closer are what they
  have left open. -/
  scan : tokens.foldlM Token.scan? [] = some (closers scanner.frames)
  awaits : ∀ c, scanner.awaits c = true ↔ Unclosed tokens c
  /-- The region is that of the innermost frame that has one, and the pattern region otherwise. -/
  region :
    (∃ inner frame outer, scanner.frames = inner ++ frame :: outer ∧
      (∀ other ∈ inner, other.region? = none) ∧ frame.region? = some scanner.region) ∨
    ((∀ frame ∈ scanner.frames, frame.region? = none) ∧ scanner.region = .pattern)

/-- **Whatever a session opens and closes is nested.**  At any time in any session on any text, a
scan of the tokens taken so far succeeds, and it is left with the closers of the open frames; these
are what has been opened and not closed.  In one more call, whichever it is, an open frame goes just
if it is the innermost one, the call is meant for it, and the call is not refused. -/
theorem session_nested (text : List Char) (calls : List Call) (call : Call) :
    Nested ((new text).tokens calls) ((new text).after calls) ∧
      ∀ frame outer, frame :: outer <:+ ((new text).after calls).frames →
        (¬ frame :: outer <:+ (((new text).after calls).perform call).2.frames ↔
          ((new text).after calls).frames = frame :: outer ∧ frame.EndedBy call ∧
            (((new text).after calls).perform call).1 ≠ .token none) := by
  have hscan := scan_after (new text) calls
  refine ⟨⟨hscan, ?_, region_cases _⟩, fun frame outer => not_suffix_iff _ call⟩
  intro c
  rw [awaits_iff_mem_closers]
  exact mem_iff_unclosed hscan

/-- A region that has been entered inside of a delimiter keeps the delimiter open, even where its
closer comes next. -/
theorem session_nested_example :
    let text := "(\\)".toList
    let calls : List Call := [.opening .punctuator (.char '(') ')' none,
      .entering .punctuator (.char '\\') .escape]
    let scanner := (new text).after calls
    scanner.sees (.char ')') = true ∧ Unclosed ((new text).tokens calls) ')' ∧
      [.delimiter ')' none] <:+ scanner.frames ∧
      [.delimiter ')' none] <:+ (scanner.perform (.closing .punctuator ')')).2.frames := by
  intro text calls scanner
  obtain ⟨hnested, hgoes⟩ := session_nested text calls (.closing .punctuator ')')
  have hopen : [.delimiter ')' none] <:+ scanner.frames := by decide
  refine ⟨by decide, (hnested.awaits ')').mp (by decide), hopen, ?_⟩
  apply Decidable.byContradiction
  intro hgone
  obtain ⟨hinnermost, -, -⟩ := (hgoes _ _ hopen).mp hgone
  exact absurd hinnermost (by decide)

end PatternTree
