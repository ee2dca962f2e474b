import PatternTree.Proofs.Acceptance.Literal
import PatternTree.Proofs.Rejection.Basic

/-!
# How failures spread

Nothing recovers from a failure: where a part of a pattern literal is read and fails, so does the
literal, in the same way.  The statements of this file lead a failure from the place where it arises
out to the whole text.

* `collect_eq_error` — a repetition fails as its step does behind some entries;
* `pattern_eq_error_of_body`, `pattern_eq_error_of_flags` — a literal fails as its body or its flags
  do;
* `whole_eq_reject`, `flags_eq_reject` — trailing text and repeated flags are rejected;
* `alternative_eq_reject` — what begins like a second quantifier is rejected.
-/

namespace PatternTree.Production

open Grammar

variable {ε : Type} {scanner inside behind outside : Scanner} {failure : Failure}

/-! ## Repetition -/

/-- A repetition of which every entry takes some text has no more entries than characters. -/
theorem Step.ReadsEntries.length_le {step : Step} {entries : Entries ε} {kind : NodeKind}
    {frames : List Frame} (reads : step.ReadsEntries entries kind frames) (list : List ε) :
    list.length ≤ (entries.textOf list).length := by
  induction list with
  | nil => exact Nat.le_refl 0
  | cons entry list ih =>
      have hpos := List.length_pos_iff.mpr (reads.text_ne_nil entry)
      have hsplit : entries.textOf (entry :: list)
          = entries.text entry ++ entries.textOf list := rfl
      rw [hsplit, List.length_append, List.length_cons]
      omega

/-- A repetition fails as its step does behind some entries. -/
theorem collect_eq_error {step : Step} {entries : Entries ε} {kind : NodeKind}
    {frames : List Frame} (reads : step.ReadsEntries entries kind frames) {list : List ε}
    {draft : Builder} (hkind : draft.kind = kind) (hframes : scanner.frames = frames)
    (hlist : scanner.Reads (entries.textOf list) behind)
    (hleads : entries.Leads list behind.rest)
    (hstep : ∀ draft : Builder, draft.kind = kind → step draft behind = .error failure) :
    collect step draft scanner = .error failure := by
  have hbound : list.length < scanner.rest.length + 1 := by
    have hlength := reads.length_le list
    rw [hlist.rest, List.length_append]
    omega
  rw [collect]
  generalize scanner.rest.length + 1 = bound at hbound
  induction list generalizing bound draft scanner with
  | nil =>
      obtain rfl := Scanner.reads_nil.mp hlist
      obtain ⟨further, rfl⟩ : ∃ further, bound = further + 1 := ⟨bound - 1, by omega⟩
      rw [collectUpTo, hstep draft hkind]
      rfl
  | cons entry list ih =>
      obtain ⟨further, rfl⟩ : ∃ further, bound = further + 1 := ⟨bound - 1, by omega⟩
      obtain ⟨hjoins, hlater⟩ := hleads
      obtain ⟨between, hfirst, hrest⟩ := Scanner.reads_append.mp hlist
      have hentry := (reads.more hkind hframes).mpr
        ⟨entry, hfirst, by rw [hrest.rest]; exact hjoins, rfl⟩
      rw [collectUpTo, hentry, ok_bind]
      apply ih
      · exact hkind
      · exact hfirst.frames.trans hframes
      · exact hrest
      · exact hlater
      · exact Nat.lt_of_succ_lt_succ hbound

/-! ## Pattern literals -/

/-- A literal fails as its body does. -/
theorem pattern_eq_error_of_body (hopen : scanner.Reads ['/'] inside) :
    ∃ draft : Builder, HoldsBody draft.kind ∧ ∀ failure,
      alternation deepestNesting draft (inside.push (.delimiter '/' (some .pattern)))
        = .error failure → pattern scanner = .error failure := by
  refine ⟨(Builder.new .pattern scanner.position).extend
    [(.openToken, .token ((Token.opening ['/'] '/' (some .pattern)).place scanner.position))],
    ⟨rfl, rfl⟩, fun failure hbody => ?_⟩
  rw [pattern, (Scanner.open?_iff Scanner.take?_char_iff).mpr ⟨inside, hopen, rfl, rfl⟩]
  dsimp only
  rw [record_bind rfl, hbody]
  rfl

/-- A literal fails as its flags do. -/
theorem pattern_eq_error_of_flags (hframes : scanner.frames = []) {first : List Item}
    {others : List (List Item)}
    (hadmissible : ∀ items ∈ first :: others, AdmissibleAlternative 64 items)
    (hopen : scanner.Reads ['/'] inside)
    (hbody : inside.Reads (alternativeText first ++ othersText others) behind)
    (hclose : behind.Reads ['/'] outside) (hflags : flags outside = .error failure) :
    pattern scanner = .error failure := by
  have haccepts : AlternationReader.Accepts (alternation deepestNesting) 64 :=
    alternation_accepts 64
  have hcloses : Closes behind.rest := by
    rw [hclose.rest]
    simp [Closes]
  rw [pattern, (Scanner.open?_iff Scanner.take?_char_iff).mpr ⟨inside, hopen, rfl, rfl⟩]
  dsimp only
  rw [record_bind rfl, (haccepts ⟨rfl, rfl⟩ (inside_of_opening hframes hopen)).mpr
    ⟨first, others, hadmissible, Scanner.reads_push.mpr ⟨behind, rfl, hbody⟩, hcloses, rfl⟩,
    ok_bind]
  dsimp only
  rw [expectClosing_eq_ok_iff.mpr (Scanner.close?_push_iff.mpr ⟨hclose, rfl⟩), ok_bind]
  dsimp only
  rw [record_bind (hasRoom_patternTail .null rfl rfl).1, hflags]
  rfl

/-- A whole text fails as what is read of it does. -/
theorem whole_eq_error {production : Scanner → Attempt (Node × Scanner)} {text : List Char}
    (h : production (.new text) = .error failure) : whole production text = .error failure := by
  rw [whole, h]
  rfl

/-- A text of which something is left is rejected there. -/
theorem whole_eq_reject {production : Scanner → Attempt (Node × Scanner)} {text rest : List Char}
    {node : Node}
    (h : production (.new (text ++ rest)) = .ok (node, ⟨Text.byteLength text, rest, []⟩))
    (hrest : rest ≠ []) :
    whole production (text ++ rest) = reject (Text.byteLength text) .trailingText := by
  rw [whole, h, ok_bind]
  dsimp only
  rw [if_neg (by rwa [Scanner.atEnd, List.isEmpty_iff])]

/-! ## Flags -/

/-- Flags are rejected at the first letter that comes again. -/
theorem flags_eq_reject {run rest front : List Char} {c : Char}
    (hrest : scanner.rest = run ++ rest) (hrun : run.all Flag.letters.contains = true)
    (hstop : Scanner.begins Flag.letters.contains rest = false)
    (hrepeats : Repeats run front c) :
    flags scanner = reject (scanner.position + Text.byteLength front) (.duplicateFlag c) := by
  rw [flags, matched?_flagRun_iff.mpr ⟨rest, hrest, hrun, hstop⟩,
    seeFlags_eq_reject hrepeats (by simpa using hrun)]
  rfl

/-! ## Second quantifiers -/

variable {inner : Option AlternationReader} {levels : Nat}

/-- A text begins like a quantifier and like nothing else. -/
def BeginsQuantifier (text : List Char) : Prop :=
  (∃ c rest, text = c :: rest ∧ c ∈ quantifierSigils) ∨ beginsBounds text = true

/-- The digits of a count come first behind a brace. -/
theorem beginsBounds_count (count : Count) (rest : List Char) :
    beginsBounds ('{' :: (count.digits ++ rest)) = true := by
  obtain ⟨d, digits, hdigits⟩ := List.exists_cons_of_ne_nil count.nonempty
  have hdecimal := count.decimal
  rw [hdigits, List.all_cons, Bool.and_eq_true] at hdecimal
  rw [hdigits]
  exact hdecimal.1

/-- Every quantifier begins like one. -/
theorem beginsQuantifier_text (q : Quantifier) (rest : List Char) :
    BeginsQuantifier (q.text ++ rest) := by
  cases q with
  | sigil c known => exact .inl ⟨c, rest, rfl, known⟩
  | exactly count =>
      right
      simpa [Quantifier.text] using beginsBounds_count count ('}' :: rest)
  | atLeast least =>
      right
      simpa [Quantifier.text] using beginsBounds_count least (',' :: '}' :: rest)
  | between least most ordered =>
      right
      simpa [Quantifier.text] using
        beginsBounds_count least (',' :: (most.digits ++ '}' :: rest))

/-- An alternative does not end before an item. -/
theorem not_ends_of_reads {item : Item} (hreads : scanner.Reads (itemText item) behind) :
    ¬ Ends scanner.rest := by
  obtain ⟨c, text, htext, hc⟩ := exists_itemText_eq_cons item
  rw [hreads.rest, htext]
  intro hends
  exact hc (List.mem_append_right ['*', '+', '?'] (hends c rfl))

/-- Where a sigil comes, no element is read. -/
theorem element_eq_reject_of_sigil {c : Char} {rest : List Char} (hrest : scanner.rest = c :: rest)
    (hc : c ∈ quantifierSigils) :
    element inner scanner = reject scanner.position .malformedQuantifier := by
  have hsees : scanner.sees (.oneOf quantifierSigils) = true := by
    rw [Scanner.sees_single rfl, hrest, Scanner.begins_cons]
    exact List.contains_iff_mem.mpr hc
  rw [element, if_pos hsees]

/-- Behind an atom, what begins like a quantifier is read as one. -/
theorem element_eq_of_starts {atom : Atom} {c : Char} {rest : List Char}
    (hagrees : Agrees inner levels) (hinside : Inside scanner.frames)
    (hadmissible : atom.Admissible levels) (hatom : scanner.Reads atom.text behind)
    (hrest : behind.rest = c :: rest) (hc : c ∈ quantifierStarts) :
    element inner scanner = do
      let (quantified, after) ← quantifier (atom.tree.place scanner.position) behind
      if seesBounds after then
        reject after.position .malformedQuantifier
      else
        return (quantified, after) := by
  have hsigils : ¬ scanner.sees (.oneOf quantifierSigils) = true := by
    obtain ⟨d, text, htext, hd⟩ := atom.exists_text_eq_cons
    rw [Scanner.sees_single rfl, hatom.rest, htext, List.cons_append, Scanner.begins_cons,
      List.contains_iff_mem]
    exact fun hmem => hd (List.mem_append_left ['|', ')', '/'] hmem)
  have hstarts : behind.sees (.oneOf quantifierStarts) = true := by
    rw [Scanner.sees_single rfl, hrest, Scanner.begins_cons, List.contains_iff_mem]
    exact hc
  rw [element, if_neg hsigils, atom_eq_ok hagrees hinside hadmissible hatom, ok_bind]
  dsimp only
  rw [if_pos hstarts]

/-- Where bounds in braces come behind a quantifier, the element is given up. -/
theorem element_eq_reject_of_bounds {atom : Atom} {q : Quantifier}
    (hagrees : Agrees inner levels) (hinside : Inside scanner.frames)
    (hadmissible : atom.Admissible levels)
    (hreads : scanner.Reads (itemText (atom, some q)) behind)
    (hbounds : beginsBounds behind.rest = true) :
    element inner scanner = reject behind.position .malformedQuantifier := by
  obtain ⟨between, hatom, hquantifier⟩ := Scanner.reads_append.mp hreads
  obtain ⟨c, text, htext, hc⟩ := q.exists_text_eq_cons
  have hrest : between.rest = c :: (text ++ behind.rest) := by
    rw [hquantifier.rest]
    exact congrArg (· ++ behind.rest) htext
  have hposition : between.position
      = scanner.position + Text.byteLength atom.tree.sourceText := by
    rw [Atom.sourceText_tree]
    exact hatom.position
  have hquantified := (quantifier_eq_ok_iff hposition).mpr ⟨q, hquantifier, rfl⟩
  rw [element_eq_of_starts hagrees hinside hadmissible hatom hrest hc, hquantified, ok_bind]
  dsimp only
  rw [seesBounds_eq, if_pos hbounds]

/-- Where an element is rejected, so is the step that reads it. -/
theorem nextElement_eq_reject {position : Nat} {kind : ErrorKind} (hinside : Inside scanner.frames)
    (hmore : ¬ Ends scanner.rest) (helement : element inner scanner = reject position kind)
    (draft : Builder) : nextElement inner draft scanner = reject position kind := by
  rw [nextElement, if_neg (by rw [hinside.alternativeEnds_iff]; exact hmore), helement]
  rfl

/-- Where its first element is rejected, so is an alternative. -/
theorem alternative_eq_reject_of_element {position : Nat} {kind : ErrorKind}
    (hagrees : Agrees inner levels) (hinside : Inside scanner.frames) (hmore : ¬ Ends scanner.rest)
    (helement : element inner scanner = reject position kind) :
    alternative inner scanner = reject position kind := by
  have hnone : scanner.Reads ((itemEntries levels).textOf []) scanner :=
    Scanner.reads_nil.mpr rfl
  have hcollect : collect (nextElement inner) (.new .alternative scanner.position) scanner
      = reject position kind := by
    apply collect_eq_error (nextElement_reads hagrees hinside) rfl rfl hnone trivial
    intro draft _
    exact nextElement_eq_reject hinside hmore helement draft
  rw [alternative, hcollect]
  rfl

/-- An alternative is rejected where a second quantifier comes behind its first item. -/
theorem alternative_eq_reject {atom : Atom} {q : Quantifier} (hagrees : Agrees inner levels)
    (hinside : Inside scanner.frames) (hadmissible : atom.Admissible levels)
    (hreads : scanner.Reads (itemText (atom, some q)) behind)
    (hsecond : BeginsQuantifier behind.rest) :
    alternative inner scanner = reject behind.position .malformedQuantifier := by
  rcases hsecond with ⟨c, rest, hrest, hc⟩ | hbounds
  · -- the first item is read, and the sigil behind it begins no element
    have hjoins : Joins (atom, some q) behind.rest := by
      rw [hrest]
      apply beginsBounds_cons_of_ne
      rintro rfl
      exact absurd hc (by decide)
    have hmore : ¬ Ends behind.rest := by
      rw [hrest]
      intro hends
      have hmem := hends c rfl
      simp only [quantifierSigils, List.mem_cons, List.not_mem_nil, or_false] at hc
      rcases hc with rfl | rfl | rfl <;> simp at hmem
    have hlist : scanner.Reads ((itemEntries levels).textOf [(atom, some q)]) behind := by
      rw [textOf_itemEntries, alternativeText_eq, List.flatMap_singleton]
      exact hreads
    have hcollect : collect (nextElement inner) (.new .alternative scanner.position) scanner
        = reject behind.position .malformedQuantifier := by
      apply collect_eq_error (nextElement_reads hagrees hinside) rfl rfl hlist
        ⟨⟨hadmissible, hjoins⟩, trivial⟩
      intro draft _
      exact nextElement_eq_reject (hinside.of_reads hreads) hmore
        (element_eq_reject_of_sigil hrest hc) draft
    rw [alternative, hcollect]
    rfl
  · -- the item itself is given up
    have helement := element_eq_reject_of_bounds hagrees hinside hadmissible hreads hbounds
    exact alternative_eq_reject_of_element hagrees hinside (not_ends_of_reads hreads) helement

/-- A body is rejected as its first alternative is. -/
theorem alternation_eq_reject {position : Nat} {kind : ErrorKind} {draft : Builder}
    (h : alternative (some (alternation levels)) scanner = reject position kind) :
    alternation (levels + 1) draft scanner = reject position kind := by
  rw [alternation, alternatives, h]
  rfl

end PatternTree.Production
