import PatternTree.Proofs.Composition

/-!
# Counting repetitions

Bounds in braces give numbers of any length, leading zeros included, but a count must be less
than 2 ^ 64.  A number is worked out only when all of its digits have been read, and it is
rejected where it begins.  The upper bound is compared with the lower one behind its last
digit.  So there are three places where bounds in braces may fail (`Production.Faulty`), and the
first of them in the text is where they do.

* `Production.bracedBounds_eq_reject` — what is wrong with bounds in braces, and where it is found;
* `parse_faulty` — the same for a whole literal;
* `parse_recorded` — what is recorded of bounds in braces;
* `parse_counted` — bounds in braces behind any element.
-/

namespace PatternTree

/-! ## Numerals -/

/-- A numeral is a run of digits, of any length and with any leading zeros. -/
structure IsNumeral (digits : List Char) : Prop where
  nonempty : digits ≠ []
  decimal : ∀ c ∈ digits, c.isDigit = true

namespace IsNumeral

variable {digits : List Char}

theorem all_isDigit (h : IsNumeral digits) : digits.all (Numeral.isDigit 10) = true := by
  rw [List.all_eq_true]
  intro c hc
  rw [Numeral.isDigit_ten, h.decimal c hc]

/-- A numeral that is small enough is a count. -/
def count (h : IsNumeral digits) (hsmall : Numeral.value 10 digits < UInt64.size) : Grammar.Count :=
  ⟨digits, h.nonempty, h.all_isDigit, hsmall⟩

/-- Digits are one byte each. -/
theorem byteLength_eq (h : IsNumeral digits) : Text.byteLength digits = digits.length := by
  refine Text.byteLength_eq_length fun c hc => ?_
  have hdigit := h.decimal c hc
  have hnine : c.val ≤ '9'.val := by
    simp only [Char.isDigit, Bool.and_eq_true, decide_eq_true_eq] at hdigit
    exact hdigit.2
  rw [Char.utf8Size, if_pos (UInt32.le_trans hnine (by decide))]

end IsNumeral

namespace Production

open Grammar

variable {scanner behind after : Scanner}

/-! ## Where bounds are rejected -/

/-- A number that is too large is rejected in front of its first digit. -/
theorem unsignedInteger_eq_reject {digits : List Char} (hnumeral : IsNumeral digits)
    (hlarge : UInt64.size ≤ Numeral.value 10 digits) (hreads : scanner.Reads digits after)
    (hstop : Scanner.begins (Numeral.isDigit 10) after.rest = false) :
    unsignedInteger scanner = reject scanner.position .malformedQuantifier := by
  have hcollect : collect nextDigit (.new .unsignedInteger scanner.position) scanner
      = .ok (_, after) :=
    (collect_nextDigit_eq_ok_iff rfl).mpr ⟨digits, hnumeral.all_isDigit, hreads, hstop, rfl⟩
  have hcount : Numeral.count? digits = none := by
    cases hcount : Numeral.count? digits with
    | none => rfl
    | some n =>
        have hbounded := ((count?_eq_some_iff hnumeral.nonempty hnumeral.all_isDigit).mp hcount).2
        exact absurd hbounded (Nat.not_lt_of_le hlarge)
  rw [unsignedInteger, hcollect, ok_bind]
  dsimp only
  rw [if_neg (by rw [isEmpty_extend_digits]; exact hnumeral.nonempty), complete_digits hreads]
  dsimp only
  rw [Node.sourceText_place, Node.sourceText_bare, spell_digitsProperties, hcount]

/-- Where the number behind a comma is rejected, so is the upper bound. -/
theorem upperBound_eq_reject {least position : Nat} {kind : ErrorKind} {draft : Builder}
    (hkind : draft.kind = .quantifier) (hslots : draft.slots = [.element, .openToken, .min])
    (hcomma : scanner.Reads [','] behind)
    (hnumber : unsignedInteger behind = reject position kind) :
    upperBound least draft scanner = reject position kind := by
  have hseparator : draft.kind.hasRoom draft.slots .separator = true :=
    Builder.hasRoom_of_eq hkind hslots rfl
  rw [upperBound, Scanner.take?_char_iff.mpr ⟨hcomma, rfl⟩]
  dsimp only
  rw [record_bind hseparator, hnumber]
  rfl

/-- The ways in which bounds in braces may be wrong: the text in front of the place where this is
found, and the digits behind it that have been read by then. -/
inductive Faulty : List Char → List Char → Prop where
  | least (digits : List Char) (numeral : IsNumeral digits)
      (large : UInt64.size ≤ Numeral.value 10 digits) : Faulty ['{'] digits
  | most (least : Count) (digits : List Char) (numeral : IsNumeral digits)
      (large : UInt64.size ≤ Numeral.value 10 digits) :
      Faulty ('{' :: (least.digits ++ [','])) digits
  | order (least most : Count) (disordered : most.value < least.value) :
      Faulty ('{' :: (least.digits ++ ',' :: most.digits)) []

/-- All of them are found behind the opening brace. -/
theorem Faulty.exists_front {front read : List Char} (h : Faulty front read) :
    ∃ text, front = '{' :: text := by
  cases h <;> exact ⟨_, rfl⟩

/-- Behind the lower bound, the upper bound is read and compared with it. -/
theorem bracedBounds_eq_bind {first second : Scanner} {draft : Builder} {least : Count}
    (hkind : draft.kind = .quantifier) (hslots : draft.slots = [.element])
    (hopen : scanner.Reads ['{'] first) (hleast : first.Reads least.digits second)
    (hstop : Scanner.begins (Numeral.isDigit 10) second.rest = false) :
    ∃ (begun : Builder) (finish : Bounds × Builder × Scanner → Attempt _),
      begun.kind = .quantifier ∧ begun.slots = [.element, .openToken, .min] ∧
      bracedBounds draft scanner
        = upperBound least.value begun (second.push (.delimiter '}' none)) >>= finish ∧
      ∀ bounds bounded last, bounds.most.any (· < least.value) = true →
        finish (bounds, bounded, last) = reject last.position .malformedQuantifier := by
  have hopened : draft.kind.hasRoom draft.slots .openToken = true :=
    Builder.hasRoom_of_eq hkind hslots rfl
  have hbegun : ∀ child, (draft.extend [(.openToken, child)]).kind.hasRoom
      (draft.extend [(.openToken, child)]).slots .min = true := by
    intro child
    rw [Builder.extend_slots, Builder.extend_kind, hkind, hslots]
    rfl
  rw [bracedBounds, (Scanner.open?_iff Scanner.take?_char_iff).mpr ⟨first, hopen, rfl, rfl⟩]
  dsimp only
  rw [record_bind hopened, unsignedInteger_eq_some_iff.mpr
    ⟨least, Scanner.reads_push.mpr ⟨second, rfl, hleast⟩, hstop, rfl, rfl⟩, ok_bind]
  dsimp only
  rw [record_bind (hbegun _)]
  refine ⟨_, _, ?_, ?_, rfl, ?_⟩
  · simp [hkind]
  · simp [hslots]
  · intro bounds bounded last hbelow
    exact if_pos hbelow

/-- Wrong bounds are rejected at their place. -/
theorem bracedBounds_eq_reject {front read : List Char} {draft : Builder} (h : Faulty front read)
    (hkind : draft.kind = .quantifier) (hslots : draft.slots = [.element])
    (hfront : scanner.Reads front behind) (hread : behind.Reads read after)
    (hstop : Scanner.begins (Numeral.isDigit 10) after.rest = false) :
    bracedBounds draft scanner = reject behind.position .malformedQuantifier := by
  have hcomma : ∀ {text : List Char}, Scanner.begins (Numeral.isDigit 10) (',' :: text) = false :=
    rfl
  have hlarge : ∀ {digits : List Char}, IsNumeral digits →
      UInt64.size ≤ Numeral.value 10 digits → behind.Reads digits after →
      unsignedInteger (behind.push (.delimiter '}' none))
        = reject behind.position .malformedQuantifier := by
    intro digits numeral large hdigits
    exact unsignedInteger_eq_reject numeral large
      (Scanner.reads_push.mpr ⟨after, rfl, hdigits⟩) hstop
  cases h with
  | least digits numeral large =>
      have hopened : draft.kind.hasRoom draft.slots .openToken = true :=
        Builder.hasRoom_of_eq hkind hslots rfl
      rw [bracedBounds, (Scanner.open?_iff Scanner.take?_char_iff).mpr ⟨behind, hfront, rfl, rfl⟩]
      dsimp only
      rw [record_bind hopened, hlarge numeral large hread]
      rfl
  | most least digits numeral large =>
      obtain ⟨first, hopen, hinside⟩ := Scanner.reads_cons.mp hfront
      obtain ⟨second, hleast, hseparator⟩ := Scanner.reads_append.mp hinside
      have hdigit : Scanner.begins (Numeral.isDigit 10) second.rest = false := by
        rw [hseparator.rest]
        exact hcomma
      obtain ⟨begun, finish, hkind', hslots', hequation, -⟩ :=
        bracedBounds_eq_bind hkind hslots hopen hleast hdigit
      rw [hequation, upperBound_eq_reject hkind' hslots'
        (Scanner.reads_push.mpr ⟨behind, rfl, hseparator⟩) (hlarge numeral large hread)]
      rfl
  | order least most disordered =>
      obtain rfl := Scanner.reads_nil.mp hread
      obtain ⟨first, hopen, hinside⟩ := Scanner.reads_cons.mp hfront
      obtain ⟨second, hleast, hupper⟩ := Scanner.reads_append.mp hinside
      have hdigit : Scanner.begins (Numeral.isDigit 10) second.rest = false := by
        rw [hupper.rest]
        exact hcomma
      have hbelow : ((Upper.most most).bounds least.value).most.any (· < least.value) = true := by
        simpa [Upper.bounds] using disordered
      obtain ⟨begun, finish, hkind', hslots', hequation, hfinish⟩ :=
        bracedBounds_eq_bind hkind hslots hopen hleast hdigit
      rw [hequation, (upperBound_eq_ok_iff hkind' hslots').mpr
        ⟨.most most, Scanner.reads_push.mpr ⟨_, rfl, hupper⟩, hstop, rfl, rfl⟩, ok_bind,
        hfinish _ _ _ hbelow]
      rfl

/-- Wrong bounds make a wrong quantifier. -/
theorem quantifier_eq_reject {front read : List Char} {element : Node} (h : Faulty front read)
    (hfront : scanner.Reads front behind) (hread : behind.Reads read after)
    (hstop : Scanner.begins (Numeral.isDigit 10) after.rest = false) :
    quantifier element scanner = reject behind.position .malformedQuantifier := by
  obtain ⟨text, htext⟩ := h.exists_front
  have hsigils : scanner.take? .keyword (.oneOf quantifierSigils) = none := by
    rw [Scanner.take?_single_eq_none_iff rfl, hfront.rest, htext]
    rfl
  rw [quantifier, record_bind rfl, quantifierBounds, hsigils]
  dsimp only
  rw [bracedBounds_eq_reject h rfl rfl hfront hread hstop]
  rfl

end Production

open Grammar Production

variable {body lower upper : List Char}

/-- Between slashes, the text is a lone element without a quantifier. -/
def Repeatable (body : List Char) : Prop :=
  ∃ tree element, parse (slashed body) = .ok tree ∧ tree.HoldsOnly element ∧
    element.kind ≠ .quantifier

/-- Wrong bounds behind a lone element are rejected at their place. -/
theorem parse_faulty {front read rest : List Char} (hbody : Repeatable body)
    (hfaulty : Faulty front read) (hstop : Scanner.begins (Numeral.isDigit 10) rest = false) :
    parse (slashed (body ++ (front ++ (read ++ rest))))
      = .error (.rejected
        ⟨1 + Text.byteLength body + Text.byteLength front, .malformedQuantifier⟩) := by
  obtain ⟨tree, element, h, honly, hkind⟩ := hbody
  obtain ⟨atom, hatom, rfl, rfl⟩ := exists_atom_of_holdsOnly h honly hkind
  apply parse_eq_reject
  intro scanner hinside hposition hrest
  have hsplit : scanner.rest = atom.text ++ (front ++ (read ++ (rest ++ ['/']))) := by
    simpa using hrest
  -- the atom, the text in front of the place, and the digits behind it
  obtain ⟨between, hbetween, hahead⟩ := Scanner.exists_reads hsplit
  obtain ⟨behind, hfront, hbehind⟩ := Scanner.exists_reads hahead
  obtain ⟨after, hread, hafter⟩ := Scanner.exists_reads hbehind
  -- behind the digits there may be no more of the body, and the slash is no digit either
  have hends : Scanner.begins (Numeral.isDigit 10) after.rest = false := by
    rw [hafter]
    cases rest with
    | nil => rfl
    | cons c rest => exact hstop
  obtain ⟨text, htext⟩ := hfaulty.exists_front
  have hbrace : between.rest = '{' :: (text ++ (read ++ (rest ++ ['/']))) := by
    rw [hahead, htext, List.cons_append]
  have hagrees : Agrees (some (alternation 63)) 64 := ⟨63, rfl, alternation_accepts 63⟩
  have helement : Production.element (some (alternation 63)) scanner
      = reject behind.position .malformedQuantifier := by
    rw [element_eq_of_starts hagrees hinside hatom hbetween hbrace (by decide),
      quantifier_eq_reject hfaulty hfront hread hends]
    rfl
  have hitem : scanner.Reads (itemText (atom, none)) between := by
    rwa [itemText, quantifierText, Option.elim_none, List.append_nil]
  rw [← hposition, ← hbetween.position, ← hfront.position]
  exact alternative_eq_reject_of_element hagrees hinside (not_ends_of_reads hitem) helement

/-! ## What is recorded of bounds -/

/-- A bound as it is recorded: zero is not set. -/
def limit (value : Nat) : Attribute :=
  if value = 0 then .absent else .integer value

theorem ofBound_eq (value : Nat) : Attribute.ofBound value = limit value := by
  cases value <;> simp [limit, Attribute.ofBound]

/-- A node is a number that is spelled digit by digit. -/
structure IsNumber (digits : List Char) (number : Node) : Prop where
  kind : number.kind = .unsignedInteger
  digits : (number.nodes .digits).map (fun digit => (digit.kind, digit.sourceText))
    = digits.map fun c => (.digit, [c])

/-- The tree of a count is the number that it is written as. -/
theorem Grammar.Count.isNumber_place (count : Count) (start : Nat) :
    IsNumber count.digits (count.tree.place start) where
  kind := Node.place_kind start _
  digits := by
    have hproperties : count.tree.properties
        = [] ++ (count.digits.map digitTree).map (fun child => (.digits, .node child)) ++ [] := by
      simp [Count.tree, digitsProperties]
    have hplace : ∀ (node : Node) (position : Nat),
        ((node.place position).kind, (node.place position).sourceText)
          = (node.kind, node.sourceText) := by
      intro node position
      rw [Node.place_kind, Node.sourceText_place]
    have hnodes : (count.tree.place start).nodes .digits
        = Node.placeNodes start (count.digits.map digitTree) := by
      rw [Node.nodes, Node.children_place start hproperties (by simp) (by simp), List.filterMap_map]
      exact List.filterMap_some
    rw [hnodes, Node.map_placeNodes hplace, List.map_map]
    apply List.map_congr_left
    intro c _
    simp [digitTree]

/-- A quantifier records a lower bound, the digits of it, what is set as the upper bound, and the
digits of that where there are any. -/
structure Records (quantified : Node) (lower : List Char) (most : Attribute)
    (upper : Option (List Char)) : Prop where
  kind : quantified.kind = .quantifier
  min : quantified.attribute? .min = some (limit (Numeral.value 10 lower))
  max : quantified.attribute? .max = some most
  lowerDigits : ∃ number, quantified.child? .min = some (.node number) ∧ IsNumber lower number
  upperDigits : ∀ digits ∈ upper,
    ∃ number, quantified.child? .max = some (.node number) ∧ IsNumber digits number
  unset : upper = none → quantified.child? .max = some .null

/-- What is recorded of the bounds of a quantifier. -/
def Grammar.Quantifier.Recorded (quantified : Node) : Quantifier → Prop
  | .sigil _ _ => quantified.kind = .quantifier
  | .exactly count => Records quantified count.digits (limit count.value) none
  | .atLeast least => Records quantified least.digits .absent none
  | .between least most _ => Records quantified least.digits (limit most.value) (some most.digits)

/-- The tree of an atom under a quantifier records its bounds. -/
theorem recorded_itemTree (atom : Atom) (q : Quantifier) (start : Nat) :
    q.Recorded ((itemTree (atom, some q)).place start) := by
  cases q with
  | sigil c known => exact Node.place_kind start _
  | exactly count =>
      exact {
        kind := rfl
        min := congrArg some (ofBound_eq count.value)
        max := congrArg some (ofBound_eq count.value)
        lowerDigits := ⟨_, rfl, count.isNumber_place _⟩
        upperDigits := nofun
        unset := fun _ => rfl }
  | atLeast least =>
      exact {
        kind := rfl
        min := congrArg some (ofBound_eq least.value)
        max := rfl
        lowerDigits := ⟨_, rfl, least.isNumber_place _⟩
        upperDigits := nofun
        unset := fun _ => rfl }
  | between least most ordered =>
      exact {
        kind := rfl
        min := congrArg some (ofBound_eq least.value)
        max := congrArg some (ofBound_eq most.value)
        lowerDigits := ⟨_, rfl, least.isNumber_place _⟩
        upperDigits := by
          intro digits hdigits
          obtain rfl := Option.some.inj hdigits
          exact ⟨_, rfl, most.isNumber_place _⟩
        unset := nofun }

/-- A quantifier behind a lone element records its bounds. -/
theorem parse_recorded (hbody : Repeatable body) (q : Quantifier) :
    ∃ tree quantified, parse (slashed (body ++ q.text)) = .ok tree ∧
      tree.HoldsOnly quantified ∧ q.Recorded quantified := by
  obtain ⟨tree, element, h, honly, hkind⟩ := hbody
  obtain ⟨atom, hatom, rfl, rfl⟩ := exists_atom_of_holdsOnly h honly hkind
  have hparse : parse (slashed (itemText (atom, some q))) = .ok _ := parse_lone hatom
  exact ⟨_, _, hparse, holdsOnly_unflagged_iff.mpr ⟨_, rfl, rfl, rfl⟩, recorded_itemTree atom q 1⟩

/-! ## Counting -/

/-- Bounds in braces. -/
def braces (bounds : List Char) : List Char :=
  '{' :: (bounds ++ ['}'])

/-- A text is accepted under a condition and not otherwise, and what is read is a lone element as
described. -/
structure AcceptedJustIf (text : List Char) (condition : Prop) (describes : Node → Prop) :
    Prop where
  iff : (∃ tree, parse text = .ok tree) ↔ condition
  described : ∀ tree, parse text = .ok tree →
    ∃ quantified, tree.HoldsOnly quantified ∧ describes quantified

/-- It is enough to look at the texts that meet the condition and at those that do not. -/
theorem AcceptedJustIf.of_cases {text : List Char} {condition : Prop} {describes : Node → Prop}
    (haccepted : condition → ∃ tree quantified, parse text = .ok tree ∧
      tree.HoldsOnly quantified ∧ describes quantified)
    (hrejected : ¬ condition → ∃ failure, parse text = .error failure) :
    AcceptedJustIf text condition describes := by
  have honly : (∃ tree, parse text = .ok tree) → condition := by
    rintro ⟨tree, htree⟩
    by_cases hcondition : condition
    · exact hcondition
    · obtain ⟨failure, hfailure⟩ := hrejected hcondition
      simp [htree] at hfailure
  refine ⟨⟨honly, ?_⟩, ?_⟩
  · intro hcondition
    obtain ⟨tree, quantified, htree, -, -⟩ := haccepted hcondition
    exact ⟨tree, htree⟩
  · intro tree htree
    obtain ⟨tree', quantified, htree', hquantified⟩ := haccepted (honly ⟨tree, htree⟩)
    obtain rfl : tree = tree' := Except.ok.inj (htree.symm.trans htree')
    exact ⟨quantified, hquantified⟩

/-- A lower bound that is too large is rejected in front of its first digit. -/
theorem parse_lowerLarge {behind : List Char} (hbody : Repeatable body) (hlower : IsNumeral lower)
    (hstop : Scanner.begins (Numeral.isDigit 10) (behind ++ ['}']) = false)
    (hlarge : UInt64.size ≤ Numeral.value 10 lower) :
    parse (slashed (body ++ braces (lower ++ behind)))
      = .error (.rejected ⟨2 + Text.byteLength body, .malformedQuantifier⟩) := by
  have hrejected := parse_faulty hbody (.least lower hlower hlarge) hstop
  have hwidth : Text.byteLength ['{'] = 1 := by decide
  rw [hwidth] at hrejected
  rw [braces, List.append_assoc, Nat.add_right_comm 1 1]
  exact hrejected

/-- An upper bound that is too large is rejected in front of its first digit. -/
theorem parse_upperLarge (hbody : Repeatable body) (hlower : IsNumeral lower)
    (hupper : IsNumeral upper) (hsmall : Numeral.value 10 lower < UInt64.size)
    (hlarge : UInt64.size ≤ Numeral.value 10 upper) :
    parse (slashed (body ++ braces (lower ++ ',' :: upper)))
      = .error (.rejected
        ⟨2 + Text.byteLength body + lower.length + 1, .malformedQuantifier⟩) := by
  have hstop : Scanner.begins (Numeral.isDigit 10) ['}'] = false := by decide
  have hrejected := parse_faulty hbody (.most (hlower.count hsmall) upper hupper hlarge) hstop
  have htext : braces (lower ++ ',' :: upper) = '{' :: (lower ++ [',']) ++ (upper ++ ['}']) := by
    simp [braces]
  have hwidth : Text.byteLength ('{' :: (lower ++ [','])) = 1 + lower.length + 1 := by
    rw [Text.byteLength_cons, Text.byteLength_append, hlower.byteLength_eq, ← Nat.add_assoc]
    rfl
  have hposition : 2 + Text.byteLength body + lower.length + 1
      = 1 + Text.byteLength body + Text.byteLength ('{' :: (lower ++ [','])) := by
    omega
  rw [htext, hposition]
  exact hrejected

/-- An upper bound that is too small is rejected behind its last digit. -/
theorem parse_disordered (hbody : Repeatable body) (hlower : IsNumeral lower)
    (hupper : IsNumeral upper) (hdisordered : Numeral.value 10 upper < Numeral.value 10 lower)
    (hsmall : Numeral.value 10 lower < UInt64.size) :
    parse (slashed (body ++ braces (lower ++ ',' :: upper)))
      = .error (.rejected
        ⟨2 + Text.byteLength body + lower.length + 1 + upper.length, .malformedQuantifier⟩) := by
  have hstop : Scanner.begins (Numeral.isDigit 10) ['}'] = false := by decide
  have hrejected := parse_faulty hbody (.order (hlower.count hsmall)
    (hupper.count (Nat.lt_trans hdisordered hsmall)) hdisordered) hstop
  have htext : braces (lower ++ ',' :: upper)
      = '{' :: (lower ++ ',' :: upper) ++ ([] ++ ['}']) := by
    simp [braces]
  have hwidth : Text.byteLength ('{' :: (lower ++ ',' :: upper))
      = 1 + (lower.length + (1 + upper.length)) := by
    rw [Text.byteLength_cons, Text.byteLength_append, Text.byteLength_cons,
      hlower.byteLength_eq, hupper.byteLength_eq]
    rfl
  have hposition : 2 + Text.byteLength body + lower.length + 1 + upper.length
      = 1 + Text.byteLength body + Text.byteLength ('{' :: (lower ++ ',' :: upper)) := by
    omega
  rw [htext, hposition]
  exact hrejected

/-- One bound is accepted if it is small enough. -/
theorem acceptedJustIf_exactly (hbody : Repeatable body) (hlower : IsNumeral lower) :
    AcceptedJustIf (slashed (body ++ braces lower)) (Numeral.value 10 lower < UInt64.size)
      fun quantified => Records quantified lower (limit (Numeral.value 10 lower)) none := by
  apply AcceptedJustIf.of_cases
  · intro hsmall
    exact parse_recorded hbody (.exactly (hlower.count hsmall))
  · intro hlarge
    have hrejected : parse (slashed (body ++ braces (lower ++ []))) = .error _ :=
      parse_lowerLarge hbody hlower rfl (Nat.le_of_not_lt hlarge)
    rw [List.append_nil] at hrejected
    exact ⟨_, hrejected⟩

/-- One bound with a comma behind it is accepted if it is small enough. -/
theorem acceptedJustIf_atLeast (hbody : Repeatable body) (hlower : IsNumeral lower) :
    AcceptedJustIf (slashed (body ++ braces (lower ++ [','])))
      (Numeral.value 10 lower < UInt64.size)
      fun quantified => Records quantified lower .absent none := by
  apply AcceptedJustIf.of_cases
  · intro hsmall
    have htext : braces (lower ++ [',']) = (Quantifier.atLeast (hlower.count hsmall)).text := by
      simp [braces, Quantifier.text, IsNumeral.count]
    rw [htext]
    exact parse_recorded hbody (.atLeast (hlower.count hsmall))
  · intro hlarge
    exact ⟨_, parse_lowerLarge hbody hlower rfl (Nat.le_of_not_lt hlarge)⟩

/-- Two bounds are accepted if they are in order and small enough. -/
theorem acceptedJustIf_between (hbody : Repeatable body) (hlower : IsNumeral lower)
    (hupper : IsNumeral upper) :
    AcceptedJustIf (slashed (body ++ braces (lower ++ ',' :: upper)))
      (Numeral.value 10 lower ≤ Numeral.value 10 upper ∧ Numeral.value 10 upper < UInt64.size)
      fun quantified => Records quantified lower (limit (Numeral.value 10 upper)) (some upper) := by
  apply AcceptedJustIf.of_cases
  · rintro ⟨hordered, hsmall⟩
    have hlowerSmall := Nat.lt_of_le_of_lt hordered hsmall
    have htext : braces (lower ++ ',' :: upper)
        = (Quantifier.between (hlower.count hlowerSmall) (hupper.count hsmall) hordered).text := by
      simp [braces, Quantifier.text, IsNumeral.count]
    rw [htext]
    exact parse_recorded hbody (.between (hlower.count hlowerSmall) (hupper.count hsmall) hordered)
  · intro hnot
    by_cases hlowerSmall : Numeral.value 10 lower < UInt64.size
    · by_cases hupperSmall : Numeral.value 10 upper < UInt64.size
      · have hdisordered : Numeral.value 10 upper < Numeral.value 10 lower :=
          Nat.lt_of_not_le fun hordered => hnot ⟨hordered, hupperSmall⟩
        exact ⟨_, parse_disordered hbody hlower hupper hdisordered hlowerSmall⟩
      · exact ⟨_, parse_upperLarge hbody hlower hupper hlowerSmall (Nat.le_of_not_lt hupperSmall)⟩
    · exact ⟨_, parse_lowerLarge hbody hlower rfl (Nat.le_of_not_lt hlowerSmall)⟩

/-- What is read for an element under bounds in braces, by the numbers in them, and where they are
rejected. -/
structure Counted (body lower upper : List Char) : Prop where
  between : AcceptedJustIf (slashed (body ++ braces (lower ++ ',' :: upper)))
    (Numeral.value 10 lower ≤ Numeral.value 10 upper ∧ Numeral.value 10 upper < UInt64.size)
    fun quantified => Records quantified lower (limit (Numeral.value 10 upper)) (some upper)
  exactly : AcceptedJustIf (slashed (body ++ braces lower)) (Numeral.value 10 lower < UInt64.size)
    fun quantified => Records quantified lower (limit (Numeral.value 10 lower)) none
  atLeast : AcceptedJustIf (slashed (body ++ braces (lower ++ [','])))
    (Numeral.value 10 lower < UInt64.size) fun quantified => Records quantified lower .absent none
  lowerLarge : UInt64.size ≤ Numeral.value 10 lower →
    parse (slashed (body ++ braces (lower ++ ',' :: upper)))
      = .error (.rejected ⟨2 + Text.byteLength body, .malformedQuantifier⟩)
  upperLarge : Numeral.value 10 lower < UInt64.size → UInt64.size ≤ Numeral.value 10 upper →
    parse (slashed (body ++ braces (lower ++ ',' :: upper)))
      = .error (.rejected
        ⟨2 + Text.byteLength body + lower.length + 1, .malformedQuantifier⟩)
  disordered : Numeral.value 10 upper < Numeral.value 10 lower →
    Numeral.value 10 lower < UInt64.size →
    parse (slashed (body ++ braces (lower ++ ',' :: upper)))
      = .error (.rejected
        ⟨2 + Text.byteLength body + lower.length + 1 + upper.length, .malformedQuantifier⟩)

/-- **Bounds in braces are counted exactly.**  Behind any lone element without a quantifier,
bounds are accepted just if the numbers are less than 2 ^ 64 and in order, and both of them and
all of their digits are recorded.  Otherwise they are rejected in front of the first number that
is too large, or else behind the upper bound. -/
theorem parse_counted (hbody : Repeatable body) (hlower : IsNumeral lower)
    (hupper : IsNumeral upper) : Counted body lower upper where
  between := acceptedJustIf_between hbody hlower hupper
  exactly := acceptedJustIf_exactly hbody hlower
  atLeast := acceptedJustIf_atLeast hbody hlower
  lowerLarge := parse_lowerLarge hbody hlower rfl
  upperLarge := parse_upperLarge hbody hlower hupper
  disordered := parse_disordered hbody hlower hupper

/-- A bound with leading zeros, and the least number that is too large. -/
theorem counted_example :
    Repeatable ['é'] ∧ IsNumeral "007".toList ∧ IsNumeral "18446744073709551616".toList ∧
      Numeral.value 10 "007".toList = 7 ∧
      Numeral.value 10 "18446744073709551616".toList = UInt64.size ∧
      Counted ['é'] "007".toList "18446744073709551616".toList := by
  have hbody : Repeatable ['é'] := by
    have hplain : 'é' ∉ ['\r', '\n', '\t', '\\'] ∧ 'é' ∉ reserved .pattern := by decide
    have hparse : parse (slashed (itemText (.character (.plain 'é' hplain), none))) = .ok _ :=
      parse_lone Atom.admissible_character
    refine ⟨_, _, hparse, holdsOnly_unflagged_iff.mpr ⟨_, rfl, rfl, rfl⟩, ?_⟩
    rw [Node.place_kind]
    exact Atom.kind_ne_quantifier _
  have hlower : IsNumeral "007".toList := ⟨by decide, List.all_eq_true.mp (by decide)⟩
  have hupper : IsNumeral "18446744073709551616".toList :=
    ⟨by decide, List.all_eq_true.mp (by decide)⟩
  exact ⟨hbody, hlower, hupper, by decide, by decide, parse_counted hbody hlower hupper⟩

end PatternTree
