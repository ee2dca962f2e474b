import PatternTree.Proofs.Bodies
import PatternTree.Proofs.Recursion
import PatternTree.Proofs.Rejection.Literal
import PatternTree.Proofs.Rejection.Propagation

/-!
# The depth of accepted trees

Groups nest to at most 64 levels, so the trees of pattern literals are of bounded depth however
long the literals are, and so are the recursions over them.  The limit does nothing else: with
fewer levels a production gives what it gives with more of them, unless it is given up at the
parenthesis of a group that is too deep (`Abridges`).

* `alternation_abridges` — bodies, with fewer levels and with more;
* `parse_of_not_nestsTo` — a literal whose groups nest more deeply is given up;
* `deepLiteral` — literals of any depth;
* `parse_depth_bounded` — the depth of accepted trees.
-/

namespace PatternTree

namespace Production

open Grammar

variable {α β : Type}

/-- An attempt gives what another one gives, unless it is given up because groups are nested too
deeply. -/
def Abridges (attempt full : Attempt α) : Prop :=
  attempt = full ∨ ∃ position, attempt = reject position .recursionExceeded

theorem Abridges.refl (attempt : Attempt α) : Abridges attempt attempt :=
  .inl rfl

/-- An attempt that goes on from the result of another one. -/
theorem Abridges.bind {attempt full : Attempt α} {next fullNext : α → Attempt β}
    (h : Abridges attempt full) (hnext : ∀ a, Abridges (next a) (fullNext a)) :
    Abridges (attempt >>= next) (full >>= fullNext) := by
  rcases h with rfl | ⟨position, rfl⟩
  · cases attempt with
    | ok a => exact hnext a
    | error failure => exact .refl _
  · exact .inr ⟨position, rfl⟩

/-- A reader abridges another one if it does so wherever it is applied. -/
def AlternationReader.Abridges (reader full : AlternationReader) : Prop :=
  ∀ draft scanner, Production.Abridges (reader draft scanner) (full draft scanner)

/-- What reads the inside of groups abridges what reads it elsewhere, or does not read it at
all. -/
def InsideAbridges : Option AlternationReader → Option AlternationReader → Prop
  | none, _ => True
  | some reader, some full => reader.Abridges full
  | some _, none => False

variable {inner full : Option AlternationReader} {scanner : Scanner}

theorem group_abridges {kind : NodeKind} {opener : String} (h : InsideAbridges inner full) :
    Abridges (group inner kind opener scanner) (group full kind opener scanner) := by
  cases inner with
  | none => exact .inr ⟨scanner.position, rfl⟩
  | some reader =>
      cases full with
      | none => exact h.elim
      | some fullReader =>
          unfold group
          dsimp only
          split
          · exact .refl _
          · exact (Abridges.refl _).bind fun opened => (h opened _).bind fun taken => .refl _

theorem atom_abridges (h : InsideAbridges inner full) :
    Abridges (atom inner scanner) (atom full scanner) := by
  rw [atom, atom]
  by_cases hbracket : scanner.sees (.char '[') = true
  · rw [if_pos hbracket, if_pos hbracket]
    exact .refl _
  rw [if_neg hbracket, if_neg hbracket]
  by_cases hopener : scanner.sees (.word "(?:".toList) = true
  · rw [if_pos hopener, if_pos hopener]
    exact group_abridges h
  rw [if_neg hopener, if_neg hopener]
  by_cases hparenthesis : scanner.sees (.char '(') = true
  · rw [if_pos hparenthesis, if_pos hparenthesis]
    exact group_abridges h
  rw [if_neg hparenthesis, if_neg hparenthesis]
  exact .refl _

theorem element_abridges (h : InsideAbridges inner full) :
    Abridges (element inner scanner) (element full scanner) := by
  unfold element
  split
  · exact .refl _
  · exact (atom_abridges h).bind fun taken => .refl _

theorem nextElement_abridges {draft : Builder} (h : InsideAbridges inner full) :
    Abridges (nextElement inner draft scanner) (nextElement full draft scanner) := by
  unfold nextElement
  split
  · exact .refl _
  · exact (element_abridges h).bind fun taken => .refl _

/-- A repetition abridges another one if its step does. -/
theorem collectUpTo_abridges {step fullStep : Step} (bound : Nat) {draft : Builder}
    (h : ∀ draft scanner, Abridges (step draft scanner) (fullStep draft scanner)) :
    Abridges (collectUpTo step bound draft scanner) (collectUpTo fullStep bound draft scanner) := by
  induction bound generalizing draft scanner with
  | zero => exact .refl _
  | succ bound ih =>
      rw [collectUpTo, collectUpTo]
      apply (h draft scanner).bind
      intro taken
      cases taken with
      | none => exact .refl _
      | some pair => exact ih

theorem alternative_abridges (h : InsideAbridges inner full) :
    Abridges (alternative inner scanner) (alternative full scanner) := by
  unfold alternative collect
  exact (collectUpTo_abridges _ fun _ _ => nextElement_abridges h).bind fun taken => .refl _

theorem nextAlternative_abridges {draft : Builder} (h : InsideAbridges inner full) :
    Abridges (nextAlternative inner draft scanner) (nextAlternative full draft scanner) := by
  unfold nextAlternative
  split
  · exact .refl _
  · exact (Abridges.refl _).bind fun separated =>
      (alternative_abridges h).bind fun taken => .refl _

theorem alternatives_abridges (h : InsideAbridges inner full) :
    (alternatives inner).Abridges (alternatives full) := by
  intro draft scanner
  unfold alternatives collect
  apply (alternative_abridges h).bind
  intro taken
  exact (Abridges.refl _).bind fun begun =>
    collectUpTo_abridges _ fun _ _ => nextAlternative_abridges h

/-- With fewer levels a body gives what it gives with more of them, or is given up. -/
theorem alternation_abridges {fewer more : Nat} (h : fewer ≤ more) :
    (alternation fewer).Abridges (alternation more) := by
  induction fewer generalizing more with
  | zero => cases more <;> exact alternatives_abridges trivial
  | succ fewer ih =>
      cases more with
      | zero => omega
      | succ more => exact alternatives_abridges (ih (Nat.le_of_succ_le_succ h))

end Production

namespace Grammar

open Production

/-! ## Literals that are too deep -/

/-- Bodies with the same layout nest equally deeply. -/
theorem nestsTo_of_placeAll_eq {start levels : Nat} {first first' : List Item}
    {others others' : List (List Item)}
    (h : Node.placeAll start (bodyProperties first others)
      = Node.placeAll start (bodyProperties first' others'))
    (nests : ∀ items ∈ first' :: others', (alternativeTree items).NestsTo levels) :
    ∀ items ∈ first :: others, (alternativeTree items).NestsTo levels := by
  intro items hitems
  obtain ⟨position, hplaced⟩ := Node.exists_place_of_mem (alternativeTree_mem hitems) start
  rw [h] at hplaced
  obtain ⟨front, original, back, hsplit, hsame⟩ := Node.node_mem_placeAll hplaced
  have horiginal : (.alternatives, .node original) ∈ bodyProperties first' others' := by
    rw [hsplit]
    simp
  obtain ⟨-, items', hitems', rfl⟩ := mem_bodyProperties horiginal
  have hnests : ((alternativeTree items).place position).NestsTo levels := by
    rw [hsame]
    exact Node.nestsTo_place.mpr (nests items' hitems')
  exact Node.nestsTo_place.mp hnests

/-- A body whose groups nest too deeply is given up. -/
theorem alternation_of_not_nestsTo {scanner after : Scanner} {draft : Builder}
    {first : List Item} {others : List (List Item)} {more : Nat}
    (hadmissible : ∀ items ∈ first :: others, AdmissibleAlternative more items)
    (hdeep : ∃ items ∈ first :: others, ¬ (alternativeTree items).NestsTo 64)
    (hholds : HoldsBody draft.kind) (hinside : Inside scanner.frames)
    (hreads : scanner.Reads (alternativeText first ++ othersText others) after)
    (hcloses : Closes after.rest) :
    ∃ position, alternation 64 draft scanner = reject position .recursionExceeded := by
  have hmore : ∀ items ∈ first :: others, AdmissibleAlternative (max 64 more) items :=
    fun items hitems => (hadmissible items hitems).mono (Nat.le_max_right 64 more)
  have hfull := (alternation_accepts (max 64 more) hholds hinside).mpr
    ⟨first, others, hmore, hreads, hcloses, rfl⟩
  rcases alternation_abridges (Nat.le_max_left 64 more) draft scanner with hsame | hgivenUp
  · -- the body would be accepted, and would nest no deeper than what is accepted
    rw [hfull] at hsame
    obtain ⟨first', others', hadmissible', -, -, hfilled⟩ :=
      (alternation_accepts 64 hholds hinside).mp hsame
    obtain ⟨items, hitems, hnests⟩ := hdeep
    have hall : ∀ items ∈ first' :: others', (alternativeTree items).NestsTo 64 :=
      fun items hitems => (hadmissible' items hitems).shallow.nests
    exact absurd (nestsTo_of_placeAll_eq (Builder.extend_inj hfilled) hall items hitems) hnests
  · exact hgivenUp

/-- A literal whose groups nest too deeply is given up at a parenthesis.  What stands before the
parenthesis is a literal when all groups are closed. -/
theorem parse_of_not_nestsTo {literal : Literal} {more : Nat}
    (hadmissible : ∀ items ∈ literal.first :: literal.others, AdmissibleAlternative more items)
    (hdeep : ¬ literal.tree.NestsTo 64) :
    ∃ front back, literal.text = front ++ '(' :: back ∧
      parse literal.text = .error (.rejected ⟨Text.byteLength front, .recursionExceeded⟩) ∧
      ∃ tree, parse (front ++ List.replicate 64 ')' ++ ['/']) = .ok tree := by
  have hitems : ∃ items ∈ literal.first :: literal.others,
      ¬ (alternativeTree items).NestsTo 64 := by
    apply Classical.byContradiction
    intro hnone
    have hliteral : literal.Admissible := by
      intro items hitems
      apply (hadmissible items hitems).of_nestsTo
      exact Classical.byContradiction fun hnests => hnone ⟨items, hitems, hnests⟩
    exact hdeep (Literal.shallow hliteral).nests
  obtain ⟨inside, behind, outside, hopen, hbody, hclose, -⟩ :=
    reads_literal (Scanner.reads_new literal.text)
  have hcloses : Closes behind.rest := by
    rw [hclose.rest]
    simp [Closes]
  obtain ⟨draft, hholds, hfails⟩ := pattern_eq_error_of_body hopen
  obtain ⟨position, hgivenUp⟩ := alternation_of_not_nestsTo hadmissible hitems hholds
    (inside_of_opening rfl hopen) (Scanner.reads_push.mpr ⟨behind, rfl, hbody⟩) hcloses
  have hparse : parse literal.text = .error (.rejected ⟨position, .recursionExceeded⟩) :=
    whole_eq_error (hfails _ hgivenUp)
  obtain ⟨front, back, hsplit, hposition, hexplained⟩ := parse_blames literal.text _ _ hparse
  obtain ⟨hparenthesis, hclosed⟩ := hexplained.faithful
  obtain ⟨tail, rfl⟩ := List.head?_eq_some_iff.mp hparenthesis
  obtain rfl : position = Text.byteLength front := hposition.trans (Nat.zero_add _)
  exact ⟨front, tail, hsplit, hparse, hclosed⟩

/-! ## Literals of any depth -/

theorem star_known : '*' ∈ ['*', '+', '?'] :=
  List.mem_cons_self

/-- Any number of repetitions. -/
def star : Quantifier :=
  .sigil '*' star_known

/-- The way down to a code in a bracket expression, in the given number of groups with a
quantifier each. -/
def deepAtom : Nat → Atom
  | 0 => .charClass false
    [.character (.escape (.coded (.byte ['4', '1'] (by decide) rfl))),
      .character (.plain '-' (by decide)), .character (.plain 'Z' (by decide))]
  | groups + 1 => .group true [(deepAtom groups, some star)] []

/-- A code at the bottom of the given number of groups. -/
def deepLiteral (groups : Nat) : Literal :=
  unflagged [(deepAtom groups, some star)] []

/-- An alternative of a single item is admissible if its atom is. -/
theorem admissible_singleton_iff {item : Item} {levels : Nat} :
    AdmissibleAlternative levels [item] ↔ item.1.Admissible levels :=
  ⟨fun h => h.2 item List.mem_cons_self, admissible_singleton⟩

theorem deepAtom_admissible_iff {groups levels : Nat} :
    (deepAtom groups).Admissible levels ↔ groups ≤ levels := by
  induction groups generalizing levels with
  | zero => exact iff_of_true Atom.admissible_charClass (Nat.zero_le levels)
  | succ groups ih =>
      cases levels with
      | zero => simp [deepAtom, Atom.Admissible]
      | succ levels =>
          have hinner : (deepAtom (groups + 1)).Admissible (levels + 1) ↔
              AdmissibleAlternative levels [(deepAtom groups, some star)] := by
            rw [deepAtom, Atom.Admissible]
            exact List.forall_mem_singleton
          rw [hinner, admissible_singleton_iff, ih]
          omega

theorem deepLiteral_admissible {groups levels : Nat} (h : groups ≤ levels) :
    ∀ items ∈ (deepLiteral groups).first :: (deepLiteral groups).others,
      AdmissibleAlternative levels items :=
  List.forall_mem_singleton.mpr (admissible_singleton_iff.mpr (deepAtom_admissible_iff.mpr h))

/-- As many groups as there are nest in a deep literal. -/
theorem not_nestsTo_deepLiteral {groups levels : Nat} (h : levels < groups) :
    ¬ (deepLiteral groups).tree.NestsTo levels := by
  intro hnests
  have hadmissible := (deepLiteral_admissible (Nat.le_refl groups) _ List.mem_cons_self).of_nestsTo
    (Literal.nestsTo_alternative hnests List.mem_cons_self)
  have hle := deepAtom_admissible_iff.mp (admissible_singleton_iff.mp hadmissible)
  omega

/-- A group, an alternative and a quantifier add three steps to a way down. -/
theorem exists_descent_deepAtom (groups : Nat) :
    ∃ below, (deepAtom groups).tree.Descent below ∧ below.length = 3 * groups + 4 := by
  induction groups with
  | zero =>
      refine ⟨_, .down (.tail _ (.tail _ (.head _))) (.down (.head _) (.down (.head _)
        (.down (.tail _ (.head _)) (.here _)))), rfl⟩
  | succ groups ih =>
      obtain ⟨below, hbelow, hlength⟩ := ih
      refine ⟨_ :: _ :: _ :: below, .down (.tail _ (.head _)) (.down (.head _)
        (.down (.head _) hbelow)), ?_⟩
      simp only [List.length_cons, hlength]
      omega

/-- A deep literal adds a quantifier, an alternative and the literal itself. -/
theorem exists_descent_deepLiteral (groups : Nat) :
    ∃ below, (deepLiteral groups).tree.Descent below ∧ below.length = 3 * groups + 7 := by
  obtain ⟨below, hbelow, hlength⟩ := exists_descent_deepAtom groups
  refine ⟨_ :: _ :: _ :: below, .down (.tail _ (.head _)) (.down (.head _)
    (.down (.head _) hbelow)), ?_⟩
  simp only [List.length_cons, hlength]

end Grammar

open Grammar

/-- **Accepted trees are of bounded depth.**  On every way down from the root there are at most 64
groups and at most 199 steps, so 200 calls suffice to list the tokens of a tree, to spell it and to
print it.  The bound is attained.  Where the grammar derives a text with groups that nest to more
than 64 levels, the text is rejected at a parenthesis, up to which it is a literal when 64 groups
are closed. -/
theorem parse_depth_bounded :
    (∀ text tree, parse text = .ok tree →
      (∀ below, tree.Descent below →
        (tree :: below).countP Node.isGroup ≤ 64 ∧ below.length ≤ 199) ∧
      tree.tokensWithin? 200 = some tree.tokens ∧
      tree.sourceTextWithin? 200 = some tree.sourceText ∧
      ∀ glyphs, tree.printWithin? glyphs 200 = some (tree.print glyphs)) ∧
    (∃ text tree below, parse text = .ok tree ∧ tree.Descent below ∧ below.length = 199) ∧
    (∀ (literal : Literal) (levels : Nat),
      (∀ items ∈ literal.first :: literal.others, AdmissibleAlternative levels items) →
      ¬ literal.tree.NestsTo 64 →
      ∃ front back, literal.text = front ++ '(' :: back ∧
        parse literal.text = .error (.rejected ⟨Text.byteLength front, .recursionExceeded⟩) ∧
        ∃ tree, parse (front ++ List.replicate 64 ')' ++ ['/']) = .ok tree) := by
  refine ⟨fun text tree htree => ?_, ?_, fun literal levels => parse_of_not_nestsTo⟩
  · obtain ⟨literal, hadmissible, -, rfl⟩ := parse_eq_ok_iff.mp htree
    have hshallow := (Literal.shallow hadmissible).place 0
    have hlength := hshallow.length_lt
    refine ⟨fun below hbelow => ⟨hshallow.nests below hbelow, ?_⟩,
      Node.tokensWithin?_eq hlength, Node.sourceTextWithin?_eq hlength,
      fun glyphs => Node.printWithin?_eq hlength⟩
    exact Nat.le_of_lt_succ (hlength below hbelow)
  · obtain ⟨below, hbelow, hlength⟩ := exists_descent_deepLiteral 64
    obtain ⟨placed, hplaced, hkinds⟩ := hbelow.place 0
    refine ⟨_, _, placed, parse_eq_ok_iff.mpr
      ⟨_, deepLiteral_admissible (Nat.le_refl 64), rfl, rfl⟩, hplaced, ?_⟩
    rw [← List.length_map (f := Node.kind), hkinds, List.length_map, hlength]

/-- A literal that is as deep as possible, and one that is too deep. -/
theorem depth_bounded_examples :
    (∃ tree, parse (deepLiteral 64).text = .ok tree ∧
      (∀ below, tree.Descent below →
        (tree :: below).countP Node.isGroup ≤ 64 ∧ below.length ≤ 199) ∧
      tree.tokensWithin? 200 = some tree.tokens ∧
      tree.sourceTextWithin? 200 = some tree.sourceText ∧
      ∀ glyphs, tree.printWithin? glyphs 200 = some (tree.print glyphs)) ∧
    (¬ (deepLiteral 65).tree.NestsTo 64 ∧
      ∃ front back, (deepLiteral 65).text = front ++ '(' :: back ∧
        parse (deepLiteral 65).text
          = .error (.rejected ⟨Text.byteLength front, .recursionExceeded⟩) ∧
        ∃ tree, parse (front ++ List.replicate 64 ')' ++ ['/']) = .ok tree) := by
  have hparse : parse (deepLiteral 64).text = .ok ((deepLiteral 64).tree.place 0) :=
    parse_eq_ok_iff.mpr ⟨_, deepLiteral_admissible (Nat.le_refl 64), rfl, rfl⟩
  have hdeep : ¬ (deepLiteral 65).tree.NestsTo 64 := not_nestsTo_deepLiteral (by decide)
  exact ⟨⟨_, hparse, parse_depth_bounded.1 _ _ hparse⟩, hdeep,
    parse_depth_bounded.2.2 _ 65 (deepLiteral_admissible (Nat.le_refl 65)) hdeep⟩

end PatternTree
