import PatternTree.Proofs.Calls.Realization

/-!
# The calls of a run

Every call of a production is further on in the text or goes to a production of lower rank, so calls
end (`Task.Permits.descends`).  By recursion along the calls every production exits in order
(`Task.correct`) and is given by its script, whose calls are answered by productions again
(`Task.answer_script`).  The same holds of the scripts of whole texts (`answer_parseScript`,
`answer_parseFlagsScript`).

A run visits a production under the productions that are at work meanwhile (`Visits`).
-/

namespace PatternTree

open Production Script

/-! ## Productions are their scripts -/

namespace Task

variable {caller callee : Task} {start place : Place}

/-- What calls descend along: the bytes ahead, and then the rank of the production. -/
def load (task : Task) (place : Place) : Nat × Nat :=
  (Text.byteLength place.scanner.rest, task.rule.rank)

theorem Permits.stop_eq (h : caller.Permits start callee place) :
    place.scanner.stop = start.scanner.stop := by
  obtain ⟨-, -, -, behind, hbehind, hreached⟩ := h
  rw [hbehind, Scanner.under_stop]
  exact hreached.elim (·.reaches.stop_eq) (·.1.stop_eq)

theorem Permits.position_le (h : caller.Permits start callee place) :
    start.scanner.position ≤ place.scanner.position := by
  obtain ⟨-, -, -, behind, hbehind, hreached⟩ := h
  rw [hbehind, Scanner.under_position]
  exact hreached.elim (·.reaches.position_le) (·.1.position_le)

/-- A call that is not to a production of lower rank is further on. -/
theorem Permits.position_lt (h : caller.Permits start callee place)
    (hrank : caller.rule.rank ≤ callee.rule.rank) :
    start.scanner.position < place.scanner.position := by
  obtain ⟨-, -, -, behind, hbehind, hadvances | ⟨-, hlower⟩⟩ := h
  · rw [hbehind, Scanner.under_position]
    exact hadvances.position_lt
  · omega

/-- Calls descend. -/
theorem Permits.descends (h : caller.Permits start callee place) :
    Prod.Lex (· < ·) (· < ·) (callee.load place) (caller.load start) := by
  have hstop := h.stop_eq
  have hle := h.position_le
  rw [Scanner.stop, Scanner.stop] at hstop
  rw [Prod.lex_def, load, load]
  by_cases hrank : caller.rule.rank ≤ callee.rule.rank
  · have hlt := h.position_lt hrank
    dsimp only
    omega
  · dsimp only
    omega

/-- Whenever a production gives a result, it exits in order. -/
theorem correct (task : Task) (place : Place) : task.Correct place := fun result after hrun =>
  (realized task place).exits (fun callee at' _ => correct callee at') (result, after) hrun
termination_by task.load place
decreasing_by exact Permits.descends ‹_›

/-- A production is what its script gives when calls are answered by productions. -/
theorem answer_script (task : Task) (place : Place) :
    (task.script place).answer perform = task.perform place :=
  (realized task place).answers fun callee at' _ => correct callee at'

/-- A production that gives a result leaves the number of open groups as it is. -/
theorem exit_of_perform {task : Task} {place after : Place} {result : task.Result}
    (h : task.perform place = .ok (result, after)) :
    task.Exit place.scanner result after.scanner ∧ after.depth = place.depth := by
  obtain ⟨⟨taken, last⟩, hrun, hsettle⟩ := map_eq_ok_iff.mp h
  obtain ⟨rfl, rfl⟩ := Prod.mk.inj hsettle
  exact ⟨correct task place taken last hrun, rfl⟩

end Task

namespace Script

variable {α : Type} {allowed : Task → Place → Prop} {post : α → Prop} {script : Script α}

/-- The calls that are made when productions answer are among the allowed ones. -/
theorem Sound.asks {task : Task} {place : Place} (h : script.Sound allowed post)
    (hasks : script.Asks task place) : allowed task place := by
  induction hasks with
  | here => exact h.1
  | @later _ _ _ _ _ answer answered _ ih =>
      obtain ⟨result, last, depth⟩ := answer
      obtain ⟨hexit, rfl⟩ := Task.exit_of_perform answered
      exact ih (h.2 _ _ hexit)

/-- Whoever answers the allowed calls as productions do gets the same outcome. -/
theorem Sound.answer_eq {handler : Handler} (h : script.Sound allowed post)
    (hagrees : ∀ task place, allowed task place → handler task place = task.perform place) :
    script.answer handler = script.answer Task.perform := by
  induction script with
  | done attempt => rfl
  | call task place further ih =>
      rw [answer, answer, hagrees task place h.1]
      cases hanswer : task.perform place with
      | error failure => rfl
      | ok answered =>
          obtain ⟨result, last, depth⟩ := answered
          obtain ⟨hexit, rfl⟩ := Task.exit_of_perform hanswer
          exact ih _ (h.2 _ _ hexit)

end Script

/-- The calls of a production are in order. -/
theorem Task.permits_of_asks {caller callee : Task} {start place : Place}
    (h : (caller.script start).Asks callee place) : caller.Permits start callee place :=
  (Task.realized caller start).sound.asks h

/-! ## Whole texts -/

/-- The frame of a pattern literal. -/
abbrev literalFrame : Frame := .delimiter '/' (some .pattern)

/-- The calls that a text begins with: the alternatives of a pattern literal inside its frame, or
flags outside of it. -/
inductive Starts (scanner : Scanner) : Task → Place → Prop
  | alternatives {draft : Builder} {inner : Scanner} (advances : scanner.Advances inner) :
      Starts scanner (.alternatives draft) ⟨inner.push literalFrame, 0⟩
  | flags {behind : Scanner} (reaches : scanner.Reaches behind) :
      Starts scanner .flags ⟨behind, 0⟩

theorem realizes_literal (scanner : Scanner) :
    Realizes (Starts scanner) (literalScript scanner) (settle 0) (pattern scanner)
      fun _ => True := by
  rw [literalScript, pattern]
  cases hopen : scanner.open? .punctuator (.char '/') '/' (some .pattern) with
  | none => exact .reject
  | some taken =>
      obtain ⟨opening, inside⟩ := taken
      obtain ⟨inner, rfl, hadvances⟩ := Scanner.advances_of_open? hopen
      refine .attempt_bind fun opened _ => ?_
      refine Realizes.call_bind (.alternatives hadvances) fun filled behind hfilled => ?_
      obtain ⟨last, rfl, hlast⟩ := Scanner.reaches_push hfilled.reaches
      refine .attempt_bind fun closing hclose => .attempt_bind fun closed _ => ?_
      have houtside := (hadvances.trans hlast).trans (Task.reaches_of_expectClosing hclose)
      refine Realizes.call_bind (.flags houtside.reaches) fun flagsNode after _ => ?_
      exact .attempt_bind fun flagged _ => .pure rfl trivial

theorem realizes_whole {script : Scanner → Script (Node × Place)}
    {production : Scanner → Attempt (Node × Scanner)} (text : List Char)
    (h : Realizes (Starts (.new text)) (script (.new text)) (settle 0) (production (.new text))
      fun _ => True) :
    Realizes (Starts (.new text)) (wholeScript script text) id (whole production text)
      fun _ => True := by
  refine h.bind fun taken _ => ?_
  exact .ite (fun _ => .pure rfl trivial) fun _ => .reject

theorem realizes_parse (text : List Char) :
    Realizes (Starts (.new text)) (parseScript text) id (parse text) fun _ => True :=
  realizes_whole text (realizes_literal (.new text))

theorem realizes_parseFlags (text : List Char) :
    Realizes (Starts (.new text)) (parseFlagsScript text) id (parseFlags text) fun _ => True :=
  realizes_whole text (.passes (.flags (.refl _)) fun _ _ _ => trivial)

theorem answer_parseScript (text : List Char) :
    (parseScript text).answer Task.perform = parse text := by
  rw [(realizes_parse text).answers fun task place _ => task.correct place]
  cases parse text <;> rfl

theorem answer_parseFlagsScript (text : List Char) :
    (parseFlagsScript text).answer Task.perform = parseFlags text := by
  rw [(realizes_parseFlags text).answers fun task place _ => task.correct place]
  cases parseFlags text <;> rfl

/-! ## Visited productions -/

/-- The production is called in the course of a run, under the given productions, the innermost
first. -/
inductive Visits {α : Type} (root : Script α) : List Rule → Task → Place → Prop
  | first {task : Task} {place : Place} (asked : root.Asks task place) : Visits root [] task place
  | next {callers : List Rule} {caller task : Task} {start place : Place}
      (visited : Visits root callers caller start)
      (asked : (caller.script start).Asks task place) :
      Visits root (caller.rule :: callers) task place

end PatternTree
