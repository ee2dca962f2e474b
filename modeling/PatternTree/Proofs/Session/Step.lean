import PatternTree.Proofs.Reading
import PatternTree.Scanner.Call

/-!
# Sessions with a scanner

A session is any list of calls to a scanner, in any order and with any arguments.  What one call
does is said once (`Scanner.Outcome`): it only asks, it is refused, or it takes some text, and a
frame is put on or taken off on the way.  Everything about sessions follows from this by going
through the calls one after the other.

* `Scanner.after`, `Scanner.tokens` — the scanner that a session leads to, and what it has taken;
* `Scanner.outcome_perform` — what a call does.
-/

namespace PatternTree.Scanner

/-- The token in an answer. -/
def Reply.token? : Reply → Option Token
  | .token taken => taken
  | _ => none

/-- Whether a call only asks about the scanner. -/
def Call.asks : Call → Bool
  | .rest | .next | .sees _ | .matched _ | .awaits _ => true
  | .take _ _ | .opening _ _ _ _ | .closing _ _ | .entering _ _ _ | .leaving _ _ _
  | .leave _ => false

/-! ## Sessions -/

/-- The scanner that calls lead to. -/
def after (scanner : Scanner) (calls : List Call) : Scanner :=
  ((scanner.run calls).getLast?.map Prod.snd).getD scanner

/-- The tokens that calls take, in the order of the calls. -/
def tokens (scanner : Scanner) (calls : List Call) : List Token :=
  (scanner.run calls).filterMap fun outcome => outcome.1.token?

@[simp] theorem after_nil (scanner : Scanner) : scanner.after [] = scanner := rfl

@[simp] theorem after_cons (scanner : Scanner) (call : Call) (calls : List Call) :
    scanner.after (call :: calls) = (scanner.perform call).2.after calls := by
  rw [after, after, run, List.getLast?_cons, Option.map_some, Option.getD_some]
  exact (Option.getD_map Prod.snd (scanner.perform call) _).symm

@[simp] theorem tokens_nil (scanner : Scanner) : scanner.tokens [] = [] := rfl

@[simp] theorem tokens_cons (scanner : Scanner) (call : Call) (calls : List Call) :
    scanner.tokens (call :: calls)
      = (scanner.perform call).1.token?.toList ++ (scanner.perform call).2.tokens calls := by
  rw [tokens, tokens, run, List.filterMap_cons]
  cases (scanner.perform call).1.token? <;> rfl

/-! ## One call -/

variable {scanner scanner' : Scanner} {call : Call} {reply : Reply}

/-- What a call may be answered with, and the scanner behind it. -/
inductive Outcome (scanner : Scanner) : Call → Reply → Scanner → Prop
  /-- The scanner is asked something, and stays. -/
  | asked {call : Call} {reply : Reply} (asks : call.asks = true)
    (tokenless : reply.token? = none) : Outcome scanner call reply scanner
  /-- Nothing can be taken, and the scanner stays. -/
  | refused {call : Call} (attempts : call.asks = false) :
    Outcome scanner call (.token none) scanner
  /-- Some text is taken. -/
  | taken {kind : Token.Kind} {terminal : Terminal} {text : List Char} {behind : Scanner}
    (nonempty : text ≠ []) (reads : scanner.Reads text behind) :
    Outcome scanner (.take kind terminal)
      (.token (some ((Token.bare kind text).place scanner.position))) behind
  /-- Some text is taken, and the delimiter that it opens is put on. -/
  | opened {kind : Token.Kind} {terminal : Terminal} {closer : Char} {inside : Option Region}
    {text : List Char} {behind : Scanner} (nonempty : text ≠ [])
    (reads : scanner.Reads text behind) :
    Outcome scanner (.opening kind terminal closer inside)
      (.token (some ({ Token.bare kind text with
        balanced := some closer, balancedRegion := inside }.place scanner.position)))
      (behind.push (.delimiter closer inside))
  /-- The closer of the innermost frame is taken, and the frame is taken off. -/
  | closed {kind : Token.Kind} {closer : Char} {inside : Option Region} {outer : List Frame}
    {behind : Scanner} (innermost : scanner.frames = .delimiter closer inside :: outer)
    (reads : scanner.Reads [closer] behind) :
    Outcome scanner (.closing kind closer)
      (.token (some ({ Token.bare kind [closer] with balancer := true }.place scanner.position)))
      { behind with frames := outer }
  /-- Some text is taken, and the region that it opens is put on. -/
  | entered {kind : Token.Kind} {terminal : Terminal} {inside : Region} {text : List Char}
    {behind : Scanner} (nonempty : text ≠ []) (reads : scanner.Reads text behind) :
    Outcome scanner (.entering kind terminal inside)
      (.token (some ({ Token.bare kind text with
        openRegion := some inside }.place scanner.position)))
      (behind.push (.region inside))
  /-- Some text is taken, and the region is left behind it. -/
  | ended {kind : Token.Kind} {terminal : Terminal} {inside : Region} {text : List Char}
    {behind : Scanner} (nonempty : text ≠ []) (reads : scanner.Reads text behind) :
    Outcome scanner (.leaving kind terminal inside)
      (.token (some ({ Token.bare kind text with
        closeRegion := some inside }.place scanner.position)))
      (behind.leave inside)
  /-- The region is left. -/
  | left {inside : Region} : Outcome scanner (.leave inside) .done (scanner.leave inside)

/-- What a terminal matches is taken as a token without marks, if it matches anything. -/
theorem take?_cases (scanner : Scanner) (kind : Token.Kind) (terminal : Terminal) :
    scanner.take? kind terminal = none ∨
      ∃ text behind, text ≠ [] ∧ scanner.Reads text behind ∧ scanner.take? kind terminal
        = some ((Token.bare kind text).place scanner.position, behind) := by
  cases htake : scanner.take? kind terminal with
  | none => exact .inl rfl
  | some taken =>
      obtain ⟨text, hsplit, hreads, htoken⟩ := take?_iff_split?.mp htake
      exact .inr ⟨text, taken.2, (Terminal.split?_eq_some hsplit).1, hreads,
        congrArg some (Prod.ext htoken rfl)⟩

/-- A call that takes what a terminal matches, marks it, and puts on or takes off a frame behind
it. -/
theorem outcome_of_take (kind : Token.Kind) (terminal : Terminal) (mark : Token → Token)
    (settle : Scanner → Scanner) (hattempts : call.asks = false)
    (hperform : scanner.perform call = scanner.reply
      ((scanner.take? kind terminal).map fun taken => (mark taken.1, settle taken.2)))
    (htaken : ∀ text behind, text ≠ [] → scanner.Reads text behind → Outcome scanner call
      (.token (some (mark ((Token.bare kind text).place scanner.position)))) (settle behind)) :
    Outcome scanner call (scanner.perform call).1 (scanner.perform call).2 := by
  rw [hperform]
  rcases scanner.take?_cases kind terminal with hnone | ⟨text, behind, hne, hreads, hsome⟩
  · rw [hnone]
    exact .refused hattempts
  · rw [hsome]
    exact htaken text behind hne hreads

/-- A closer is taken only if it closes the innermost frame. -/
theorem outcome_closing (scanner : Scanner) (kind : Token.Kind) (closer : Char) :
    Outcome scanner (.closing kind closer) (scanner.perform (.closing kind closer)).1
      (scanner.perform (.closing kind closer)).2 := by
  cases hframes : scanner.frames with
  | nil =>
      simp only [perform, close?, hframes, Scanner.reply]
      exact .refused rfl
  | cons frame outer =>
      by_cases hcloser : frame.closer? = some closer
      · cases htake : scanner.take? kind (.char closer) with
        | none =>
            simp only [perform, close?, hframes, if_pos hcloser, htake, Scanner.reply]
            exact .refused rfl
        | some taken =>
            obtain ⟨token, behind⟩ := taken
            obtain ⟨hreads, rfl⟩ := take?_char_iff.mp htake
            simp only [perform, close?, hframes, if_pos hcloser, htake, Scanner.reply]
            cases frame with
            | delimiter awaited inside =>
                obtain rfl : awaited = closer := Option.some.inj hcloser
                exact .closed hframes hreads
            | region inside => exact absurd hcloser.symm (Option.some_ne_none closer)
      · simp only [perform, close?, hframes, if_neg hcloser, Scanner.reply]
        exact .refused rfl

/-- Every call has one of the outcomes. -/
theorem outcome_perform (scanner : Scanner) (call : Call) :
    Outcome scanner call (scanner.perform call).1 (scanner.perform call).2 := by
  cases call with
  | rest => exact .asked rfl rfl
  | next => exact .asked rfl rfl
  | sees terminal => exact .asked rfl rfl
  | matched terminal => exact .asked rfl rfl
  | awaits c => exact .asked rfl rfl
  | leave inside => exact .left
  | closing kind closer => exact outcome_closing scanner kind closer
  | take kind terminal =>
      refine outcome_of_take kind terminal id id rfl ?_ fun _ _ hne hreads => .taken hne hreads
      rw [perform]
      cases scanner.take? kind terminal <;> rfl
  | opening kind terminal closer inside =>
      refine outcome_of_take kind terminal
        (fun token => { token with balanced := some closer, balancedRegion := inside })
        (·.push (.delimiter closer inside)) rfl ?_ fun _ _ hne hreads => .opened hne hreads
      rw [perform, open?]
      cases scanner.take? kind terminal <;> rfl
  | entering kind terminal inside =>
      refine outcome_of_take kind terminal (fun token => { token with openRegion := some inside })
        (·.push (.region inside)) rfl ?_ fun _ _ hne hreads => .entered hne hreads
      rw [perform, enter?]
      cases scanner.take? kind terminal <;> rfl
  | leaving kind terminal inside =>
      refine outcome_of_take kind terminal (fun token => { token with closeRegion := some inside })
        (·.leave inside) rfl ?_ fun _ _ hne hreads => .ended hne hreads
      rw [perform, leave?]
      cases scanner.take? kind terminal <;> rfl

/-! ## Leaving a region -/

@[simp] theorem leave_position (scanner : Scanner) (inside : Region) :
    (scanner.leave inside).position = scanner.position := by
  rw [leave]
  split
  · rfl
  · split <;> rfl

@[simp] theorem leave_rest (scanner : Scanner) (inside : Region) :
    (scanner.leave inside).rest = scanner.rest := by
  rw [leave]
  split
  · rfl
  · split <;> rfl

/-- Leaving a region takes its frame off if that is the innermost one, and touches no frame
otherwise. -/
theorem leave_frames (scanner : Scanner) (inside : Region) :
    scanner.frames = .region inside :: (scanner.leave inside).frames ∨
      (scanner.leave inside).frames = scanner.frames := by
  cases hframes : scanner.frames with
  | nil => exact .inr (by simp only [leave, hframes])
  | cons frame outer =>
      by_cases hframe : frame = .region inside
      · left
        simp only [leave, hframes, if_pos hframe]
        rw [hframe]
      · right
        simp only [leave, hframes, if_neg hframe]

end PatternTree.Scanner
