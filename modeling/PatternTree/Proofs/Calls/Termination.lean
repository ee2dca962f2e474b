import PatternTree.Proofs.Calls.Visits

/-!
# Runs end

The key idea is that a call which is not further on in the text goes to a production of lower rank,
and that there are seven ranks.  So `Task.weight`, seven times the number of bytes ahead and the
rank on top, falls from call to call, and that much fuel is enough (`FuelBounded.eq_perform`).

* `progresses_of_stop_eq`, `Visits.stop_eq` — every production that a run visits stays within the
  text and makes progress;
* `eq_perform_iff` — what productions do between their calls determines what they give;
* `parse_terminates` — all of it for both entry points.
-/

namespace PatternTree

open Production Script

/-! ## Fuel -/

theorem Rule.rank_lt (rule : Rule) : rule.rank < 7 := by
  cases rule with
  | repeated loop => cases loop <;> simp
  | _ => simp

namespace Task

/-- A bound for how deep the calls of a production are inside each other. -/
def weight (task : Task) (place : Place) : Nat :=
  7 * Text.byteLength place.scanner.rest + task.rule.rank

theorem Permits.weight_lt {caller callee : Task} {start place : Place}
    (h : caller.Permits start callee place) : callee.weight place < caller.weight start := by
  have hrank := callee.rule.rank_lt
  have hdescends := h.descends
  rw [Prod.lex_def, load, load] at hdescends
  rw [weight, weight]
  dsimp only at hdescends
  omega

end Task

/-- Answers with more and more fuel: every call takes one unit of it.  Nothing is said about the
answers without fuel. -/
structure FuelBounded (rendering : Nat → Handler) : Prop where
  unfolds : ∀ fuel task place,
    rendering (fuel + 1) task place = (task.script place).answer (rendering fuel)

/-- Answers that give up where the fuel is used up. -/
def fuelled : Nat → Handler
  | 0, _, place => reject place.scanner.position (.general "out of fuel")
  | fuel + 1, task, place => (task.script place).answer (fuelled fuel)

theorem fuelBounded_fuelled : FuelBounded fuelled where
  unfolds := fun _ _ _ => rfl

/-- With enough fuel the answers are those of the productions. -/
theorem FuelBounded.eq_perform {rendering : Nat → Handler} (h : FuelBounded rendering) {fuel : Nat}
    {task : Task} {place : Place} (hfuel : task.weight place < fuel) :
    rendering fuel task place = task.perform place := by
  induction fuel generalizing task place with
  | zero => omega
  | succ fuel ih =>
      rw [h.unfolds, ← Task.answer_script]
      refine (Task.realized task place).sound.answer_eq fun callee at' hpermits => ih ?_
      have hlighter := hpermits.weight_lt
      omega

/-- What productions do between their calls determines what they give. -/
theorem eq_perform_iff {handler : Handler} :
    handler = Task.perform ↔
      ∀ task place, handler task place = (task.script place).answer handler := by
  constructor
  · rintro rfl task place
    exact (Task.answer_script task place).symm
  · intro h
    have hbounded : FuelBounded fun _ => handler := ⟨fun _ => h⟩
    funext task place
    exact hbounded.eq_perform (Nat.lt_succ_self (task.weight place))

/-- The calls that a text begins with weigh less than the whole text. -/
theorem Starts.weight_le {text : List Char} {task : Task} {place : Place}
    (h : Starts (.new text) task place) : task.weight place ≤ 7 * Text.byteLength text := by
  have htext : (Scanner.new text).stop = Text.byteLength text := Nat.zero_add _
  cases h with
  | alternatives advances =>
      have hstop := advances.reaches.stop_eq
      have hlt := advances.position_lt
      rw [htext, Scanner.stop] at hstop
      simp only [Task.weight, Scanner.push_rest, Task.rule, Rule.rank]
      omega
  | flags reaches =>
      have hstop := reaches.stop_eq
      rw [htext, Scanner.stop] at hstop
      simp only [Task.weight, Task.rule, Rule.rank]
      omega

/-! ## Progress -/

/-- A production that is called in a text stays within the text, does not go back, and takes some
text whenever it has to (`Task.advances`).  Its calls do not go back either; they descend, and a
repetition calls itself further on only. -/
structure Progresses (text : List Char) (task : Task) (place : Place) : Prop where
  within : place.scanner.position ≤ Text.byteLength text
  exits : ∀ result after, task.perform place = .ok (result, after) →
    place.scanner.position ≤ after.scanner.position ∧
      after.scanner.position ≤ Text.byteLength text ∧
      (task.advances result = true → place.scanner.position < after.scanner.position)
  calls : ∀ callee at', (task.script place).Asks callee at' →
    place.scanner.position ≤ at'.scanner.position ∧
      Prod.Lex (· < ·) (· < ·) (callee.load at') (task.load place) ∧
      (callee.rule = task.rule → place.scanner.position < at'.scanner.position)

theorem progresses_of_stop_eq {text : List Char} {task : Task} {place : Place}
    (h : place.scanner.stop = Text.byteLength text) : Progresses text task place where
  within := by
    rw [← h]
    exact Nat.le_add_right _ _
  exits := by
    intro result after hperform
    obtain ⟨hexit, -⟩ := Task.exit_of_perform hperform
    refine ⟨hexit.reaches.position_le, ?_, fun hadvances => (hexit.advances hadvances).position_lt⟩
    rw [← h, ← hexit.reaches.stop_eq]
    exact Nat.le_add_right _ _
  calls := by
    intro callee at' hasks
    have hpermits := Task.permits_of_asks hasks
    refine ⟨hpermits.position_le, hpermits.descends, fun hrule => hpermits.position_lt ?_⟩
    exact Nat.le_of_eq (congrArg Rule.rank hrule.symm)

variable {α : Type} {root : Script α} {text : List Char}

/-- The text ends in the same place for every production that is visited. -/
theorem Visits.stop_eq {post : α → Prop} (hroot : root.Sound (Starts (.new text)) post)
    {callers : List Rule} {task : Task} {place : Place} (h : Visits root callers task place) :
    place.scanner.stop = Text.byteLength text := by
  have htext : (Scanner.new text).stop = Text.byteLength text := Nat.zero_add _
  induction h with
  | first asked =>
      cases hroot.asks asked with
      | alternatives advances => exact advances.reaches.stop_eq.trans htext
      | flags reaches => exact reaches.stop_eq.trans htext
  | next _ asked ih => exact (Task.permits_of_asks asked).stop_eq.trans ih

/-- Reading a text ends, and it ends because of what productions do between their calls.  Whatever
is visited stays within the text and makes progress; the productions and both entry points are what
their scripts make of them, and no other answers fit the scripts; and answers with fuel give the
same results as soon as there is more of it than a bound that depends on the length of the text
alone. -/
theorem parse_terminates (text : List Char) :
    (∀ callers task place,
      Visits (parseScript text) callers task place ∨
        Visits (parseFlagsScript text) callers task place → Progresses text task place) ∧
    (∀ handler : Handler,
      (∀ task place, handler task place = (task.script place).answer handler) ↔
        handler = Task.perform) ∧
    ((parseScript text).answer Task.perform = parse text ∧
      (parseFlagsScript text).answer Task.perform = parseFlags text) ∧
    ∀ rendering, FuelBounded rendering → ∀ fuel, 7 * Text.byteLength text < fuel →
      (parseScript text).answer (rendering fuel) = parse text ∧
        (parseFlagsScript text).answer (rendering fuel) = parseFlags text := by
  refine ⟨?_, fun handler => eq_perform_iff.symm,
    ⟨answer_parseScript text, answer_parseFlagsScript text⟩, ?_⟩
  · rintro callers task place (hvisits | hvisits)
    · exact progresses_of_stop_eq (hvisits.stop_eq (realizes_parse text).sound)
    · exact progresses_of_stop_eq (hvisits.stop_eq (realizes_parseFlags text).sound)
  · intro rendering hbounded fuel hfuel
    have hagrees : ∀ task place, Starts (.new text) task place →
        rendering fuel task place = task.perform place :=
      fun task place hstarts => hbounded.eq_perform (Nat.lt_of_le_of_lt hstarts.weight_le hfuel)
    constructor
    · rw [(realizes_parse text).sound.answer_eq hagrees, answer_parseScript]
    · rw [(realizes_parseFlags text).sound.answer_eq hagrees, answer_parseFlagsScript]

/-- A visit of an element, fuel that does not run out and fuel that does. -/
theorem parse_terminates_example :
    let text := ['/', 'a', '/']
    let place : Place := ⟨⟨1, ['a', '/'], [literalFrame]⟩, 0⟩
    Visits (parseScript text) [.repeated .elements, .alternative, .alternatives] .element place ∧
      FuelBounded fuelled ∧ 7 * Text.byteLength text < 22 ∧
      Progresses text .element place ∧ (parseScript text).answer (fuelled 22) = parse text ∧
      (parse text).isOk = true ∧
      (parseScript text).answer (fuelled 2) = reject 1 (.general "out of fuel") := by
  intro text place
  obtain ⟨draft, hfirst⟩ : ∃ draft, Visits (parseScript text) [] (.alternatives draft) place :=
    ⟨_, .first .here⟩
  have halternative : Visits (parseScript text) [.alternatives] .alternative place :=
    hfirst.next .here
  have hloop : Visits (parseScript text) [.alternative, .alternatives]
      (.repeated .elements (.new .alternative 1)) place := halternative.next .here
  have hvisits : Visits (parseScript text) [.repeated .elements, .alternative, .alternatives]
      .element place := hloop.next .here
  obtain ⟨hprogress, -, -, hfuel⟩ := parse_terminates text
  exact ⟨hvisits, fuelBounded_fuelled, by decide, hprogress _ _ _ (.inl hvisits),
    (hfuel _ fuelBounded_fuelled 22 (by decide)).1, by decide, rfl⟩

end PatternTree
