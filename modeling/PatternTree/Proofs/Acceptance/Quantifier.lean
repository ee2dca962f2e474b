import PatternTree.Production.Quantifier
import PatternTree.Proofs.Drafting
import PatternTree.Proofs.Grammar.Tree
import PatternTree.Proofs.Numeral

/-!
# Accepting quantifiers

A quantifier is accepted just if the grammar derives it, whatever stands behind it: a sigil is a
single character, and bounds end with their brace.  The numbers between the braces are all digits
that come, so they have no choice either.

* `unsignedInteger_eq_some_iff`, `unsignedInteger_eq_none_iff` — numbers;
* `upperBound_eq_ok_iff` — what stands between the lower bound and the closing brace;
* `bracedBounds_eq_ok_iff` — bounds in braces;
* `quantifier_eq_ok_iff` — quantifiers, which take the tree of their element as a child.
-/

namespace PatternTree.Production

open Grammar

variable {scanner after : Scanner} {node : Node}

/-! ## Numbers -/

/-- The digits of a number as entries of a repetition. -/
def digitEntries : Entries { c : Char // Numeral.isDigit 10 c = true } where
  text c := [c.1]
  properties c := [(.digits, .node (digitTree c.1))]
  joins _ _ := True
  stops rest := Scanner.begins (Numeral.isDigit 10) rest = false
  spell_properties c := by simp [digitTree]

theorem textOf_digitEntries (digits : List { c : Char // Numeral.isDigit 10 c = true }) :
    digitEntries.textOf digits = digits.map Subtype.val :=
  List.map_eq_flatMap.symm

theorem propertiesOf_digitEntries (digits : List { c : Char // Numeral.isDigit 10 c = true }) :
    digitEntries.propertiesOf digits = digitsProperties (digits.map Subtype.val) := by
  rw [digitsProperties, List.map_map]
  exact List.map_eq_flatMap.symm

/-- Digits may stand wherever no further digit comes. -/
theorem chain_digitEntries {digits : List { c : Char // Numeral.isDigit 10 c = true }}
    {rest : List Char} :
    digitEntries.Chain digits rest ↔ Scanner.begins (Numeral.isDigit 10) rest = false := by
  induction digits with
  | nil => rfl
  | cons c digits ih => exact (and_iff_right trivial).trans ih

/-- A digit is accepted just if it comes. -/
theorem digit_eq_some_iff :
    digit scanner = .ok (some (node, after)) ↔
      ∃ c, Numeral.isDigit 10 c = true ∧ scanner.Reads [c] after ∧
        node = (digitTree c).place scanner.position := by
  have hcomplete : ∀ {c : Char} {last : Scanner}, scanner.Reads [c] last →
      complete ((Builder.new .digit scanner.position).extend
          [(.value, .token ((Token.bare .literal [c]).place scanner.position))]) last
        = ((digitTree c).place scanner.position, last) := by
    intro c last hreads
    exact complete_eq _ (by simpa [digitTree] using hreads.position) (Builder.annotate_nil _).symm
  rw [digit]
  constructor
  · intro h
    split at h
    · simp at h
    · next token last htake =>
      obtain ⟨c, hc, hreads, rfl⟩ := (Scanner.take?_single_iff rfl).mp htake
      rw [record_bind rfl] at h
      obtain ⟨rfl, rfl⟩ := Prod.mk.inj
        ((Option.some.inj (pure_eq_ok_iff.mp h)).trans (hcomplete hreads))
      exact ⟨c, hc, hreads, rfl⟩
  · rintro ⟨c, hc, hreads, rfl⟩
    have htake : scanner.take? .literal .digit = some (_, after) :=
      (Scanner.take?_single_iff rfl).mpr ⟨c, hc, hreads, rfl⟩
    rw [htake]
    dsimp only
    rw [record_bind rfl]
    exact pure_eq_ok_iff.mpr (congrArg some (hcomplete hreads).symm)

theorem digit_eq_none_iff :
    digit scanner = .ok none ↔ Scanner.begins (Numeral.isDigit 10) scanner.rest = false := by
  have hnone : scanner.take? .literal .digit = none ↔ _ := Scanner.take?_single_eq_none_iff rfl
  rw [digit, ← hnone]
  split
  · next htake => exact iff_of_true rfl htake
  · next token last htake =>
    rw [record_bind rfl, htake]
    simp

/-- The loop of a number reads digits as long as they come. -/
theorem nextDigit_reads (frames : List Frame) :
    Step.ReadsEntries nextDigit digitEntries .unsignedInteger frames where
  more := by
    intro draft scanner extended behind hkind hframes
    have hroom : draft.kind.hasRoom draft.slots .digits = true :=
      Builder.hasRoom_of_many hkind rfl
    rw [nextDigit, bind_eq_ok_iff]
    constructor
    · rintro ⟨result, hdigit, h⟩
      cases result with
      | none => simp at h
      | some taken =>
          obtain ⟨node, last⟩ := taken
          obtain ⟨c, hc, hreads, rfl⟩ := digit_eq_some_iff.mp hdigit
          dsimp only at h
          rw [record_bind hroom] at h
          obtain ⟨rfl, rfl⟩ := Prod.mk.inj (Option.some.inj (pure_eq_ok_iff.mp h))
          exact ⟨⟨c, hc⟩, hreads, trivial, rfl⟩
    · rintro ⟨⟨c, hc⟩, hreads, -, rfl⟩
      refine ⟨_, digit_eq_some_iff.mpr ⟨c, hc, hreads, rfl⟩, ?_⟩
      dsimp only
      rw [record_bind hroom]
      rfl
  stop := by
    intro draft scanner hkind hframes
    have hroom : draft.kind.hasRoom draft.slots .digits = true :=
      Builder.hasRoom_of_many hkind rfl
    rw [nextDigit, bind_eq_ok_iff]
    constructor
    · rintro ⟨result, hdigit, h⟩
      cases result with
      | none => exact digit_eq_none_iff.mp hdigit
      | some taken =>
          obtain ⟨node, last⟩ := taken
          dsimp only at h
          rw [record_bind hroom] at h
          simp at h
    · intro hstop
      exact ⟨none, digit_eq_none_iff.mpr hstop, rfl⟩
  text_ne_nil := fun c => List.cons_ne_nil c.1 []

/-- Collecting digits takes all that come. -/
theorem collect_nextDigit_eq_ok_iff {draft filled : Builder}
    (hkind : draft.kind = .unsignedInteger) :
    collect nextDigit draft scanner = .ok (filled, after) ↔
      ∃ digits : List Char, digits.all (Numeral.isDigit 10) = true ∧
        scanner.Reads digits after ∧ Scanner.begins (Numeral.isDigit 10) after.rest = false ∧
        filled = draft.extend (Node.placeAll scanner.position (digitsProperties digits)) := by
  rw [collect_eq_ok_iff (nextDigit_reads scanner.frames) hkind rfl]
  simp only [textOf_digitEntries, propertiesOf_digitEntries, chain_digitEntries]
  constructor
  · rintro ⟨digits, hreads, hstop, hfilled⟩
    refine ⟨digits.map Subtype.val, ?_, hreads, hstop, hfilled⟩
    rw [List.all_map, List.all_eq_true]
    exact fun c _ => c.2
  · rintro ⟨digits, hall, hreads, hstop, hfilled⟩
    have hdigits : (digits.attach.map fun c =>
        (⟨c.1, List.all_eq_true.mp hall c.1 c.2⟩ : { c : Char // Numeral.isDigit 10 c = true })).map
          Subtype.val = digits := by
      rw [List.map_map]
      exact List.attach_map_subtype_val digits
    exact ⟨_, hdigits.symm ▸ hreads, hstop, hdigits.symm ▸ hfilled⟩

/-- A run of digits is read as a count just if it is one. -/
theorem count?_eq_some_iff {digits : List Char} {n : Nat} (hne : digits ≠ [])
    (hall : digits.all (Numeral.isDigit 10) = true) :
    Numeral.count? digits = some n ↔
      n = Numeral.value 10 digits ∧ Numeral.value 10 digits < UInt64.size := by
  have hpos : 0 < UInt64.size := by decide
  rw [Numeral.count?, Numeral.read?_eq_some_iff hne hall, Numeral.largestCount,
    Nat.le_sub_one_iff_lt hpos]

/-- What a number records. -/
theorem complete_digits {digits : List Char} (hreads : scanner.Reads digits after) :
    complete ((Builder.new .unsignedInteger scanner.position).extend
        (Node.placeAll scanner.position (digitsProperties digits))) after
      = ((Node.bare .unsignedInteger [] (digitsProperties digits)).place scanner.position, after) :=
  complete_eq _ (by simpa using hreads.position) (Builder.annotate_nil _).symm

/-- A draft that has recorded digits is empty just if there are none. -/
theorem isEmpty_extend_digits {start position : Nat} {digits : List Char} :
    ((Builder.new .unsignedInteger start).extend
      (Node.placeAll position (digitsProperties digits))).properties.isEmpty = true ↔
        digits = [] := by
  have hlength : ((Builder.new .unsignedInteger start).extend
      (Node.placeAll position (digitsProperties digits))).slots.length = digits.length := by
    simp [digitsProperties]
  rw [Array.isEmpty_iff_size_eq_zero, ← List.length_eq_zero_iff, ← hlength]
  simp [Builder.slots]

/-- A number is accepted just if all the digits that come make a count. -/
theorem unsignedInteger_eq_some_iff {value : Nat} :
    unsignedInteger scanner = .ok (some ((node, value), after)) ↔
      ∃ count : Count, scanner.Reads count.digits after ∧
        Scanner.begins (Numeral.isDigit 10) after.rest = false ∧
        node = count.tree.place scanner.position ∧ value = count.value := by
  rw [unsignedInteger, bind_eq_ok_iff]
  constructor
  · rintro ⟨⟨draft, last⟩, hcollect, h⟩
    obtain ⟨digits, hall, hreads, hstop, rfl⟩ := (collect_nextDigit_eq_ok_iff rfl).mp hcollect
    dsimp only at h
    split at h
    · simp at h
    · next hne =>
      rw [isEmpty_extend_digits] at hne
      rw [complete_digits hreads] at h
      dsimp only at h
      rw [Node.sourceText_place, Node.sourceText_bare, spell_digitsProperties] at h
      split at h
      · next number hnumber =>
        obtain ⟨rfl, hbounded⟩ := (count?_eq_some_iff hne hall).mp hnumber
        simp only [pure_eq_ok_iff, Option.some.injEq, Prod.mk.injEq] at h
        obtain ⟨⟨rfl, rfl⟩, rfl⟩ := h
        exact ⟨⟨digits, hne, hall, hbounded⟩, hreads, hstop, rfl, rfl⟩
      · simp at h
  · rintro ⟨count, hreads, hstop, rfl, rfl⟩
    refine ⟨_, (collect_nextDigit_eq_ok_iff rfl).mpr
      ⟨count.digits, count.decimal, hreads, hstop, rfl⟩, ?_⟩
    dsimp only
    rw [if_neg (by rw [isEmpty_extend_digits]; exact count.nonempty), complete_digits hreads]
    dsimp only
    rw [Node.sourceText_place, Node.sourceText_bare, spell_digitsProperties,
      (count?_eq_some_iff count.nonempty count.decimal).mpr ⟨rfl, count.bounded⟩]
    rfl

/-- No number is read just if no digit comes. -/
theorem unsignedInteger_eq_none_iff :
    unsignedInteger scanner = .ok none ↔
      Scanner.begins (Numeral.isDigit 10) scanner.rest = false := by
  rw [unsignedInteger, bind_eq_ok_iff]
  constructor
  · rintro ⟨⟨draft, last⟩, hcollect, h⟩
    obtain ⟨digits, hall, hreads, hstop, rfl⟩ := (collect_nextDigit_eq_ok_iff rfl).mp hcollect
    dsimp only at h
    split at h
    · next hempty =>
      obtain rfl := isEmpty_extend_digits.mp hempty
      rwa [hreads.rest]
    · split at h <;> simp at h
  · intro hstop
    refine ⟨_, (collect_nextDigit_eq_ok_iff rfl).mpr
      ⟨[], rfl, Scanner.reads_nil.mpr rfl, hstop, rfl⟩, ?_⟩
    rfl

/-! ## Bounds in braces -/

/-- What may stand between the lower bound and the closing brace: nothing, a comma, or a comma
and the upper bound. -/
inductive Upper where
  | none
  | unlimited
  | most (count : Count)

namespace Upper

def text : Upper → List Char
  | none => []
  | unlimited => [',']
  | most count => ',' :: count.digits

/-- The children that record it. -/
def properties : Upper → List Property
  | none => [(.separator, .null), (.max, .null)]
  | unlimited => [(.separator, .token (.bare .punctuator [','])), (.max, .null)]
  | most count => [(.separator, .token (.bare .punctuator [','])), (.max, .node count.tree)]

/-- The bounds that it makes with a lower bound. -/
def bounds (least : Nat) : Upper → Bounds
  | none => ⟨least, some least⟩
  | unlimited => ⟨least, Option.none⟩
  | most count => ⟨least, some count.value⟩

/-- It may stand before a text. -/
def Stops : Upper → List Char → Prop
  | none, rest => Scanner.begins (· == ',') rest = false
  | unlimited, rest => Scanner.begins (Numeral.isDigit 10) rest = false
  | most _, rest => Scanner.begins (Numeral.isDigit 10) rest = false

@[simp] theorem spell_properties (upper : Upper) : Node.spell upper.properties = upper.text := by
  cases upper <;> simp [properties, text]

/-- It may always stand before the closing brace. -/
theorem stops_brace (upper : Upper) (rest : List Char) : upper.Stops ('}' :: rest) := by
  cases upper <;> exact rfl

end Upper

/-- What stands between the lower bound and the closing brace is accepted whatever it is. -/
theorem upperBound_eq_ok_iff {least : Nat} {draft bounded : Builder} {bounds : Bounds}
    (hkind : draft.kind = .quantifier) (hslots : draft.slots = [.element, .openToken, .min]) :
    upperBound least draft scanner = .ok (bounds, bounded, after) ↔
      ∃ upper : Upper, scanner.Reads upper.text after ∧ upper.Stops after.rest ∧
        bounds = upper.bounds least ∧
        bounded = draft.extend (Node.placeAll scanner.position upper.properties) := by
  have hseparator : draft.kind.hasRoom draft.slots .separator = true :=
    Builder.hasRoom_of_eq hkind hslots rfl
  have hmax : ∀ child, (draft.extend [(.separator, child)]).kind.hasRoom
      (draft.extend [(.separator, child)]).slots .max = true := by
    intro child
    rw [Builder.extend_slots, Builder.extend_kind, hkind, hslots]
    rfl
  rw [upperBound]
  constructor
  · intro h
    split at h
    · next htake =>
      rw [record_bind hseparator, record_bind (hmax _), Builder.extend_extend] at h
      simp only [pure_eq_ok_iff, Prod.mk.injEq] at h
      obtain ⟨rfl, rfl, rfl⟩ := h
      exact ⟨.none, Scanner.reads_nil.mpr rfl, (Scanner.take?_single_eq_none_iff rfl).mp htake,
        rfl, rfl⟩
    · next comma behind htake =>
      obtain ⟨hcomma, rfl⟩ := Scanner.take?_char_iff.mp htake
      rw [record_bind hseparator, bind_eq_ok_iff] at h
      obtain ⟨result, hnumber, h⟩ := h
      cases result with
      | none =>
          dsimp only at h
          rw [record_bind (hmax _), Builder.extend_extend] at h
          simp only [pure_eq_ok_iff, Prod.mk.injEq] at h
          obtain ⟨rfl, rfl, rfl⟩ := h
          exact ⟨.unlimited, hcomma, unsignedInteger_eq_none_iff.mp hnumber, rfl, rfl⟩
      | some taken =>
          obtain ⟨⟨number, most⟩, last⟩ := taken
          obtain ⟨count, hcount, hstop, rfl, rfl⟩ := unsignedInteger_eq_some_iff.mp hnumber
          dsimp only at h
          rw [record_bind (hmax _), Builder.extend_extend] at h
          simp only [pure_eq_ok_iff, Prod.mk.injEq] at h
          obtain ⟨rfl, rfl, rfl⟩ := h
          refine ⟨.most count, hcomma.trans hcount, hstop, rfl, ?_⟩
          rw [hcomma.position]
          rfl
  · rintro ⟨upper, hreads, hstop, rfl, rfl⟩
    cases upper with
    | none =>
        obtain rfl := Scanner.reads_nil.mp hreads
        rw [(Scanner.take?_single_eq_none_iff rfl).mpr hstop]
        dsimp only
        rw [record_bind hseparator, record_bind (hmax _), Builder.extend_extend]
        rfl
    | unlimited =>
        rw [Scanner.take?_char_iff.mpr ⟨hreads, rfl⟩]
        dsimp only
        rw [record_bind hseparator, unsignedInteger_eq_none_iff.mpr hstop, ok_bind]
        dsimp only
        rw [record_bind (hmax _), Builder.extend_extend]
        rfl
    | most count =>
        obtain ⟨behind, hcomma, hcount⟩ := Scanner.reads_cons.mp hreads
        rw [Scanner.take?_char_iff.mpr ⟨hcomma, rfl⟩]
        dsimp only
        rw [record_bind hseparator,
          unsignedInteger_eq_some_iff.mpr ⟨count, hcount, hstop, rfl, rfl⟩, ok_bind]
        dsimp only
        rw [record_bind (hmax _), Builder.extend_extend, hcomma.position]
        rfl

/-- There is always room for the closing brace. -/
theorem hasRoom_bracedCloseToken {draft : Builder} {first second : Child Node} {start : Nat}
    {upper : Upper} (hkind : draft.kind = .quantifier) (hslots : draft.slots = [.element]) :
    (((draft.extend [(.openToken, first)]).extend [(.min, second)]).extend
        (Node.placeAll start upper.properties)).kind.hasRoom
      (((draft.extend [(.openToken, first)]).extend [(.min, second)]).extend
        (Node.placeAll start upper.properties)).slots .closeToken = true := by
  simp only [Builder.extend_slots, Builder.extend_kind, hkind, hslots, Node.map_fst_placeAll]
  cases upper <;> rfl

/-- What bounds in braces record, laid out where they are read. -/
theorem extend_bracedProperties {draft : Builder} {least : Count} {upper : Upper}
    {first second third : Scanner} (hopen : scanner.Reads ['{'] first)
    (hleast : first.Reads least.digits second) (hupper : second.Reads upper.text third) :
    (((draft.extend [(.openToken, .token ((Token.opening ['{'] '}' none).place
        scanner.position))]).extend [(.min, .node (least.tree.place first.position))]).extend
        (Node.placeAll second.position upper.properties)).extend
        [(.closeToken, .token ((Token.closing '}').place third.position))]
      = draft.extend
        (Node.placeAll scanner.position (bracedProperties least upper.properties)) := by
  have hfirst : scanner.Reads (Node.spell
      [(.openToken, .token (.opening ['{'] '}' none))]) first := by
    simpa using hopen
  have hsecond : scanner.Reads (Node.spell
      ([(.openToken, .token (.opening ['{'] '}' none))] ++ [(.min, .node least.tree)])) second := by
    simpa using hopen.trans hleast
  have hthird : scanner.Reads (Node.spell
      ([(.openToken, .token (.opening ['{'] '}' none))] ++ [(.min, .node least.tree)]
        ++ upper.properties)) third := by
    simpa using (hopen.trans hleast).trans hupper
  change (((draft.extend (Node.placeAll scanner.position
    [(.openToken, .token (.opening ['{'] '}' none))])).extend
      (Node.placeAll first.position [(.min, .node least.tree)])).extend
      (Node.placeAll second.position upper.properties)).extend
      (Node.placeAll third.position [(.closeToken, .token (.closing '}'))]) = _
  rw [extend_placeAll hfirst, extend_placeAll hsecond, extend_placeAll hthird]
  rfl

/-- Bounds in braces are accepted just if they are in order. -/
theorem bracedBounds_eq_ok_iff {draft closed : Builder} {bounds : Bounds}
    (hkind : draft.kind = .quantifier) (hslots : draft.slots = [.element]) :
    bracedBounds draft scanner = .ok (bounds, closed, after) ↔
      ∃ (least : Count) (upper : Upper),
        (upper.bounds least.value).most.any (· < least.value) = false ∧
        scanner.Reads ('{' :: (least.digits ++ (upper.text ++ ['}']))) after ∧
        bounds = upper.bounds least.value ∧
        closed = draft.extend
          (Node.placeAll scanner.position (bracedProperties least upper.properties)) := by
  have hopened : draft.kind.hasRoom draft.slots .openToken = true :=
    Builder.hasRoom_of_eq hkind hslots rfl
  have hbegun : ∀ child, (draft.extend [(.openToken, child)]).kind.hasRoom
      (draft.extend [(.openToken, child)]).slots .min = true := by
    intro child
    rw [Builder.extend_slots, Builder.extend_kind, hkind, hslots]
    rfl
  rw [bracedBounds]
  constructor
  · intro h
    split at h
    · simp at h
    · next opening inside hopening =>
      obtain ⟨first, hopen, rfl, rfl⟩ := (Scanner.open?_iff Scanner.take?_char_iff).mp hopening
      rw [record_bind hopened, bind_eq_ok_iff] at h
      obtain ⟨result, hnumber, h⟩ := h
      cases result with
      | none => simp at h
      | some taken =>
        obtain ⟨⟨number, value⟩, second⟩ := taken
        obtain ⟨least, hinside, -, rfl, rfl⟩ := unsignedInteger_eq_some_iff.mp hnumber
        obtain ⟨second, rfl, hleast⟩ := Scanner.reads_push.mp hinside
        dsimp only at h
        rw [record_bind (hbegun _), bind_eq_ok_iff] at h
        obtain ⟨⟨bounds, bounded, third⟩, hbounds, h⟩ := h
        obtain ⟨upper, hinside, -, rfl, rfl⟩ := (upperBound_eq_ok_iff
          (by simp [hkind]) (by simp [hslots])).mp hbounds
        obtain ⟨third, rfl, hupper⟩ := Scanner.reads_push.mp hinside
        dsimp only at h
        split at h
        · simp at h
        · next hordered =>
          split at h
          · simp at h
          · next closing last hclosing =>
            obtain ⟨hclose, rfl⟩ := Scanner.close?_push_iff.mp hclosing
            rw [Scanner.push_position, Scanner.push_position,
              record_bind (hasRoom_bracedCloseToken hkind hslots),
              extend_bracedProperties hopen hleast hupper] at h
            simp only [pure_eq_ok_iff, Prod.mk.injEq] at h
            obtain ⟨rfl, rfl, rfl⟩ := h
            exact ⟨least, upper, Bool.eq_false_iff.mpr hordered,
              hopen.trans (hleast.trans (hupper.trans hclose)), rfl, rfl⟩
  · rintro ⟨least, upper, hordered, hreads, rfl, rfl⟩
    obtain ⟨first, hopen, hinside⟩ := Scanner.reads_cons.mp hreads
    obtain ⟨second, hleast, hbehind⟩ := Scanner.reads_append.mp hinside
    obtain ⟨third, hupper, hclose⟩ := Scanner.reads_append.mp hbehind
    have hcomma : upper.Stops third.rest := by
      rw [hclose.rest]
      exact upper.stops_brace after.rest
    have hdigit : Scanner.begins (Numeral.isDigit 10) second.rest = false := by
      rw [hupper.rest, hclose.rest]
      cases upper <;> rfl
    rw [(Scanner.open?_iff Scanner.take?_char_iff).mpr ⟨first, hopen, rfl, rfl⟩]
    dsimp only
    rw [record_bind hopened, unsignedInteger_eq_some_iff.mpr
      ⟨least, Scanner.reads_push.mpr ⟨second, rfl, hleast⟩, hdigit, rfl, rfl⟩, ok_bind]
    dsimp only
    rw [record_bind (hbegun _), (upperBound_eq_ok_iff (by simp [hkind]) (by simp [hslots])).mpr
      ⟨upper, Scanner.reads_push.mpr ⟨third, rfl, hupper⟩, hcomma, rfl, rfl⟩, ok_bind]
    dsimp only
    rw [if_neg (Bool.eq_false_iff.mp hordered), Scanner.close?_push_iff.mpr ⟨hclose, rfl⟩]
    dsimp only
    rw [Scanner.push_position, Scanner.push_position,
      record_bind (hasRoom_bracedCloseToken hkind hslots),
      extend_bracedProperties hopen hleast hupper]
    rfl

/-! ## Quantifiers -/

/-- The bounds and children of a quantifier are accepted just if the grammar derives it. -/
theorem quantifierBounds_eq_ok_iff {draft filled : Builder} {bounds : Bounds}
    (hkind : draft.kind = .quantifier) (hslots : draft.slots = [.element]) :
    quantifierBounds draft scanner = .ok (bounds, filled, after) ↔
      ∃ q : Quantifier, scanner.Reads q.text after ∧ bounds = q.bounds ∧
        filled = draft.extend (Node.placeAll scanner.position q.properties) := by
  have hroom : draft.kind.hasRoom draft.slots .sigilToken = true :=
    Builder.hasRoom_of_eq hkind hslots rfl
  have hbraced : bracedBounds draft scanner = .ok (bounds, filled, after) ↔ _ :=
    bracedBounds_eq_ok_iff hkind hslots
  rw [quantifierBounds]
  constructor
  · intro h
    split at h
    · next sigil behind htake =>
      obtain ⟨c, hc, hreads, rfl⟩ := (Scanner.take?_single_iff rfl).mp htake
      rw [record_bind hroom] at h
      simp only [pure_eq_ok_iff, Prod.mk.injEq] at h
      obtain ⟨rfl, rfl, rfl⟩ := h
      exact ⟨.sigil c (List.contains_iff_mem.mp hc), hreads, rfl, rfl⟩
    · obtain ⟨least, upper, hordered, hreads, rfl, rfl⟩ := hbraced.mp h
      cases upper with
      | none => exact ⟨.exactly least, hreads, rfl, rfl⟩
      | unlimited => exact ⟨.atLeast least, hreads, rfl, rfl⟩
      | most count =>
          have hle : least.value ≤ count.value := by
            simpa [Upper.bounds] using hordered
          exact ⟨.between least count hle, by simpa [Upper.text, Quantifier.text] using hreads,
            rfl, rfl⟩
  · rintro ⟨q, hreads, rfl, rfl⟩
    have hnone : ∀ text, q.text = '{' :: text →
        scanner.take? .keyword (.oneOf quantifierSigils) = none := by
      intro text htext
      rw [Scanner.take?_single_eq_none_iff rfl, hreads.rest, htext]
      rfl
    cases q with
    | sigil c known =>
        have htake : scanner.take? .keyword (.oneOf quantifierSigils) = some (_, after) :=
          (Scanner.take?_single_iff rfl).mpr ⟨c, List.contains_iff_mem.mpr known, hreads, rfl⟩
        rw [htake]
        dsimp only
        rw [record_bind hroom]
        rfl
    | exactly count =>
        rw [hnone _ rfl]
        exact hbraced.mpr ⟨count, .none, by simp [Upper.bounds], hreads, rfl, rfl⟩
    | atLeast least =>
        rw [hnone _ rfl]
        exact hbraced.mpr ⟨least, .unlimited, rfl, hreads, rfl, rfl⟩
    | between least most ordered =>
        rw [hnone _ rfl]
        refine hbraced.mpr ⟨least, .most most, ?_, ?_, rfl, rfl⟩
        · simpa [Upper.bounds] using ordered
        · simpa [Upper.text, Quantifier.text] using hreads

/-- A quantifier of an element that has been read is accepted just if the grammar derives it. -/
theorem quantifier_eq_ok_iff {tree : Node} {start : Nat}
    (hstart : scanner.position = start + Text.byteLength tree.sourceText) :
    quantifier (tree.place start) scanner = .ok (node, after) ↔
      ∃ q : Quantifier, scanner.Reads q.text after ∧
        node = (quantifiedTree tree (some q)).place start := by
  have hcomplete : ∀ {q : Quantifier} {last : Scanner}, scanner.Reads q.text last →
      complete ((((Builder.new .quantifier start).extend
          [(.element, .node (tree.place start))]).extend
          (Node.placeAll scanner.position q.properties)).annotate q.bounds.attributes) last
        = ((quantifiedTree tree (some q)).place start, last) := by
    intro q last hreads
    refine complete_eq (quantifiedTree tree (some q)) ?_ ?_
    · rw [hreads.position, hstart]
      simp [quantifierText, Nat.add_assoc]
    · rw [Builder.extend_extend, hstart]
      rfl
  have hspan : (tree.place start).span.start = start := by simp
  have hnames : ∀ bounds : Bounds, ∀ entry ∈ bounds.attributes,
      entry.1 ∈ NodeKind.quantifier.attributeNames := by
    intro bounds entry hentry
    simp only [Bounds.attributes, List.mem_cons, List.not_mem_nil, or_false] at hentry
    rcases hentry with rfl | rfl <;> simp [NodeKind.attributeNames]
  rw [quantifier, hspan, record_bind rfl, bind_eq_ok_iff]
  constructor
  · rintro ⟨⟨bounds, filled, last⟩, hbounds, h⟩
    obtain ⟨q, hreads, rfl, rfl⟩ := (quantifierBounds_eq_ok_iff rfl rfl).mp hbounds
    dsimp only at h
    rw [noteAll_eq_ok_iff.mpr ⟨hnames q.bounds, rfl⟩, ok_bind] at h
    obtain ⟨rfl, rfl⟩ := Prod.mk.inj ((pure_eq_ok_iff.mp h).trans (hcomplete hreads))
    exact ⟨q, hreads, rfl⟩
  · rintro ⟨q, hreads, rfl⟩
    refine ⟨_, (quantifierBounds_eq_ok_iff rfl rfl).mpr ⟨q, hreads, rfl, rfl⟩, ?_⟩
    dsimp only
    rw [noteAll_eq_ok_iff.mpr ⟨hnames q.bounds, rfl⟩, ok_bind]
    exact pure_eq_ok_iff.mpr (hcomplete hreads).symm

end PatternTree.Production
