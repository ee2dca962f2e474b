import PatternTree.Production.Escape
import PatternTree.Proofs.Drafting
import PatternTree.Proofs.Grammar.Tree
import PatternTree.Proofs.Numeral

/-!
# Accepting escapes

Escapes and the codes in them are accepted just if the grammar derives them.  What is read is
their tree, laid out where the scanner stood.

* `codeDigits_eq_ok_iff` — the digits of a code, which must name a code point;
* `escapeCode_eq_ok_iff` — codes;
* `escapeBody_eq_ok_iff` — what may follow a backslash;
* `escapeSequence_eq_ok_iff` — escapes, in every region that has special characters.
-/

namespace PatternTree.Production

open Grammar

variable {scanner after : Scanner}

/-! ## Character codes -/

/-- The digits of a code without braces. -/
theorem blockDigits_eq_ok_iff {terminal : Terminal} {size : Nat} {draft filled : Builder}
    {digits : List Char} (hsize : Scanner.block? terminal = some size)
    (hkind : draft.kind = .escapeCode) (hslots : draft.slots = [.type]) :
    blockDigits terminal draft scanner = .ok (digits, filled, after) ↔
      digits.length = size ∧ digits.all (Numeral.isDigit 16) = true ∧
        scanner.Reads digits after ∧
        filled = draft.extend (Node.placeAll scanner.position
          [(.openToken, .null), (.value, .token (.bare .literal digits)),
            (.closeToken, .null)]) := by
  constructor
  · intro h
    unfold blockDigits at h
    split at h
    · simp at h
    · next token behind htake =>
      obtain ⟨taken, hlength, hall, hreads, rfl⟩ := (Scanner.take?_block_iff hsize).mp htake
      simp +decide only [record_bind, hkind, hslots, Builder.extend_kind, Builder.extend_slots,
        Builder.extend_extend, List.map_cons, List.map_nil, List.cons_append, List.nil_append,
        pure_eq_ok_iff, Prod.mk.injEq] at h
      obtain ⟨rfl, rfl, rfl⟩ := h
      exact ⟨hlength, hall, hreads, rfl⟩
  · rintro ⟨hlength, hall, hreads, rfl⟩
    have htake : scanner.take? .literal terminal = some (_, after) :=
      (Scanner.take?_block_iff hsize).mpr ⟨digits, hlength, hall, hreads, rfl⟩
    simp +decide only [blockDigits, htake, record_bind, hkind, hslots, Builder.extend_kind,
      Builder.extend_slots, Builder.extend_extend, List.map_cons, List.map_nil,
      List.cons_append, List.nil_append]
    rfl

/-- The digits of a code in braces, behind the opening brace. -/
theorem bracedDigits_eq_ok_iff {opening : Token} {draft filled : Builder} {digits : List Char}
    (hkind : draft.kind = .escapeCode) (hslots : draft.slots = [.type]) :
    bracedDigits opening draft scanner = .ok (digits, filled, after) ↔
      (1 ≤ digits.length ∧ digits.length ≤ 6) ∧ digits.all (Numeral.isDigit 16) = true ∧
        scanner.Reads (digits ++ ['}']) after ∧
        filled = draft.extend ((.openToken, .token opening) :: Node.placeAll scanner.position
          [(.value, .token (.bare .literal digits)),
            (.closeToken, .token (.bare .punctuator ['}']))]) := by
  constructor
  · intro h
    simp +decide only [bracedDigits, record_bind, hkind, hslots, Builder.extend_kind,
      Builder.extend_slots, Builder.extend_extend, List.map_cons, List.map_nil,
      List.cons_append, List.nil_append] at h
    split at h
    · simp at h
    · next token behind htake =>
      obtain ⟨taken, hne, hall, _, hdigits, rfl⟩ := Scanner.take?_hexRun_iff.mp htake
      split at h
      · simp at h
      · next hlength =>
        split at h
        · simp at h
        · next closing last hclose =>
          obtain ⟨hbrace, rfl⟩ := Scanner.take?_char_iff.mp hclose
          simp only [pure_eq_ok_iff, Prod.mk.injEq] at h
          obtain ⟨rfl, rfl, rfl⟩ := h
          refine ⟨⟨List.length_pos_iff.mpr hne, Nat.not_lt.mp hlength⟩, hall,
            hdigits.trans hbrace, ?_⟩
          rw [hdigits.position]
          rfl
  · rintro ⟨⟨hpos, hlength⟩, hall, hreads, rfl⟩
    obtain ⟨behind, hdigits, hbrace⟩ := Scanner.reads_append.mp hreads
    have hstop : Scanner.begins (Numeral.isDigit 16) behind.rest = false := by
      rw [hbrace.rest]
      rfl
    have htake : scanner.take? .literal .hexRun = some (_, behind) :=
      Scanner.take?_hexRun_iff.mpr
        ⟨digits, List.length_pos_iff.mp hpos, hall, hstop, hdigits, rfl⟩
    have hclose : behind.take? .punctuator (.char '}') = some (_, after) :=
      Scanner.take?_char_iff.mpr ⟨hbrace, rfl⟩
    have hshort : ¬ Escape.longestBracedCode < digits.length := Nat.not_lt.mpr hlength
    simp +decide only [bracedDigits, htake, hclose, record_bind, hkind, hslots,
      Builder.extend_kind, Builder.extend_slots, Builder.extend_extend, List.map_cons,
      List.map_nil, List.cons_append, List.nil_append, Token.place_text, Token.bare_text,
      if_neg hshort, hdigits.position]
    rfl

/-- A code without braces is short enough to name a code point. -/
theorem codePoint?_of_length_le {digits : List Char} {n : Nat} (hne : digits ≠ [])
    (hall : digits.all (Numeral.isDigit 16) = true) (hlength : digits.length ≤ 4) :
    Numeral.codePoint? digits = some n ↔ n = Numeral.value 16 digits := by
  have hlimit : Numeral.value 16 digits ≤ 0x10ffff := by
    have hlt : Numeral.value 16 digits < Nat.pow 16 4 :=
      Nat.lt_of_lt_of_le (Numeral.value_lt_pow hall) (Nat.pow_le_pow_right (by omega) hlength)
    exact Nat.le_of_lt (Nat.lt_trans hlt (by decide))
  rw [Numeral.codePoint?, Numeral.read?_eq_some_iff hne hall]
  exact and_iff_left hlimit

/-- The digits of a code that names a code point, behind its letter. -/
theorem codeDigits_eq_ok_iff {letter : Token} {c : Char} {draft filled : Builder}
    {digits : List Char} {value : Nat} (hletter : letter.text = [c])
    (hknown : c ∈ Escape.codeLetters) (hkind : draft.kind = .escapeCode)
    (hslots : draft.slots = [.type]) :
    (codeDigits letter draft scanner = .ok (digits, filled, after) ∧
        Numeral.codePoint? digits = some value) ↔
      ∃ code : Code, code.letter = c ∧ value = code.value ∧
        digits = code.digits ∧ (∃ text, code.text = c :: text ∧ scanner.Reads text after) ∧
        filled = draft.extend (Node.placeAll scanner.position code.digitProperties) := by
  constructor
  · rintro ⟨h, hvalue⟩
    unfold codeDigits at h
    split at h
    · next hu =>
      obtain rfl : c = 'u' := by simpa [hletter] using hu
      split at h
      · next opening inside hopen =>
        obtain ⟨hbrace, rfl⟩ := Scanner.take?_char_iff.mp hopen
        obtain ⟨hsize, hall, hreads, rfl⟩ := (bracedDigits_eq_ok_iff hkind hslots).mp h
        have hne : digits ≠ [] := List.length_pos_iff.mp hsize.1
        obtain ⟨rfl, hbounded⟩ := (Numeral.read?_eq_some_iff hne hall).mp hvalue
        refine ⟨.braced digits hall hsize hbounded, rfl, rfl, rfl,
          ⟨_, rfl, hbrace.trans hreads⟩, ?_⟩
        rw [hbrace.position]
        rfl
      · obtain ⟨hsize, hall, hreads, rfl⟩ := (blockDigits_eq_ok_iff rfl hkind hslots).mp h
        have hne : digits ≠ [] := (Code.quad digits hall hsize).digits_ne_nil
        obtain rfl := (codePoint?_of_length_le hne hall (Nat.le_of_eq hsize)).mp hvalue
        exact ⟨.quad digits hall hsize, rfl, rfl, rfl, ⟨_, rfl, hreads⟩, rfl⟩
    · next hu =>
      obtain rfl : c = 'x' := by
        have : c = 'u' ∨ c = 'x' := by simpa [Escape.codeLetters] using hknown
        rcases this with rfl | rfl
        · exact absurd hletter hu
        · rfl
      obtain ⟨hsize, hall, hreads, rfl⟩ := (blockDigits_eq_ok_iff rfl hkind hslots).mp h
      have hne : digits ≠ [] := (Code.byte digits hall hsize).digits_ne_nil
      obtain rfl := (codePoint?_of_length_le hne hall (by omega)).mp hvalue
      exact ⟨.byte digits hall hsize, rfl, rfl, rfl, ⟨_, rfl, hreads⟩, rfl⟩
  · rintro ⟨code, rfl, rfl, rfl, ⟨text, htext, hreads⟩, rfl⟩
    cases code with
    | byte digits hall hsize =>
        obtain rfl : digits = text := by simpa [Code.text, Code.letter] using htext
        have hne : digits ≠ [] := (Code.byte digits hall hsize).digits_ne_nil
        refine ⟨?_, (codePoint?_of_length_le hne hall (by omega)).mpr rfl⟩
        rw [codeDigits, if_neg (by simp [hletter, Code.letter])]
        exact (blockDigits_eq_ok_iff rfl hkind hslots).mpr ⟨hsize, hall, hreads, rfl⟩
    | quad digits hall hsize =>
        obtain rfl : digits = text := by simpa [Code.text, Code.letter] using htext
        have hne : digits ≠ [] := (Code.quad digits hall hsize).digits_ne_nil
        refine ⟨?_, (codePoint?_of_length_le hne hall (Nat.le_of_eq hsize)).mpr rfl⟩
        have hbrace : scanner.take? .punctuator (.char '{') = none := by
          rw [Scanner.take?_single_eq_none_iff rfl, hreads.rest]
          obtain ⟨c, rest, rfl⟩ := List.exists_cons_of_ne_nil hne
          have hc : Numeral.isDigit 16 c = true := List.all_eq_true.mp hall c List.mem_cons_self
          rw [List.cons_append, Scanner.begins_cons, beq_eq_false_iff_ne]
          rintro rfl
          exact absurd hc (by decide)
        rw [codeDigits, if_pos (by simp [hletter, Code.letter]), hbrace]
        exact (blockDigits_eq_ok_iff rfl hkind hslots).mpr ⟨hsize, hall, hreads, rfl⟩
    | braced digits hall hsize hbounded =>
        obtain rfl : '{' :: (digits ++ ['}']) = text := by
          simpa [Code.text, Code.letter] using htext
        obtain ⟨inside, hbrace, hdigits⟩ := Scanner.reads_cons.mp hreads
        have hne : digits ≠ [] := List.length_pos_iff.mp hsize.1
        refine ⟨?_, (Numeral.read?_eq_some_iff hne hall).mpr ⟨rfl, hbounded⟩⟩
        have htake : scanner.take? .punctuator (.char '{') = some (_, inside) :=
          Scanner.take?_char_iff.mpr ⟨hbrace, rfl⟩
        rw [codeDigits, if_pos (by simp [hletter, Code.letter]), htake]
        refine (bracedDigits_eq_ok_iff hkind hslots).mpr ⟨hsize, hall, hdigits, ?_⟩
        rw [hbrace.position]
        rfl

/-- A code is accepted just if it names a code point. -/
theorem escapeCode_eq_ok_iff {node : Node} {value : Nat} :
    escapeCode scanner = .ok ((node, value), after) ↔
      ∃ code : Code, scanner.Reads code.text after ∧
        node = code.tree.place scanner.position ∧ value = code.value := by
  have hcomplete : ∀ {code : Code} {text : List Char} {behind last : Scanner},
      code.text = code.letter :: text → scanner.Reads [code.letter] behind →
      behind.Reads text last →
      complete ((((Builder.new .escapeCode scanner.position).extend [(.type,
          .token ((Token.bare .keyword [code.letter]).place scanner.position))]).extend
        (Node.placeAll behind.position code.digitProperties)).annotate
          [(.cooked, .text (Numeral.decimal code.value))]) last
        = (code.tree.place scanner.position, last) := by
    intro code text behind last htext hletter hreads
    refine complete_eq code.tree ?_ ?_
    · rw [Code.sourceText_tree, htext]
      exact (hletter.trans hreads).position
    · rw [Builder.extend_extend, hletter.position]
      rfl
  constructor
  · intro h
    rw [escapeCode, bind_eq_ok_iff] at h
    obtain ⟨⟨letter, behind⟩, hexpect, h⟩ := h
    obtain ⟨c, hc, hletter, rfl⟩ :=
      (Scanner.take?_single_iff rfl).mp (expect_eq_ok_iff.mp hexpect)
    dsimp only at h
    rw [record_bind rfl, bind_eq_ok_iff] at h
    obtain ⟨⟨digits, spelled, last⟩, hdigits, h⟩ := h
    dsimp only at h
    split at h
    · simp at h
    · next number hvalue =>
      obtain ⟨code, rfl, rfl, rfl, ⟨text, htext, hreads⟩, rfl⟩ :=
        (codeDigits_eq_ok_iff rfl (by simpa using hc) rfl rfl).mp ⟨hdigits, hvalue⟩
      rw [note_bind rfl, hcomplete htext hletter hreads] at h
      simp only [pure_eq_ok_iff, Prod.mk.injEq] at h
      obtain ⟨⟨rfl, rfl⟩, rfl⟩ := h
      exact ⟨code, htext ▸ hletter.trans hreads, rfl, rfl⟩
  · rintro ⟨code, hreads, rfl, rfl⟩
    obtain ⟨text, htext⟩ := code.text_eq_cons
    obtain ⟨behind, hletter, hdigits⟩ := Scanner.reads_cons.mp (htext ▸ hreads)
    have htake : scanner.take? .keyword (.oneOf Escape.codeLetters) = some (_, behind) :=
      (Scanner.take?_single_iff rfl).mpr
        ⟨code.letter, by simpa using code.letter_mem, hletter, rfl⟩
    have hspelled : codeDigits ((Token.bare .keyword [code.letter]).place scanner.position)
          ((Builder.new .escapeCode scanner.position).extend
            [(.type, .token ((Token.bare .keyword [code.letter]).place scanner.position))]) behind
        = .ok (code.digits, _, after) ∧ Numeral.codePoint? code.digits = some code.value :=
      (codeDigits_eq_ok_iff rfl code.letter_mem rfl rfl).mpr
        ⟨code, rfl, rfl, rfl, ⟨text, htext, hdigits⟩, rfl⟩
    rw [escapeCode, bind_eq_ok_iff]
    refine ⟨_, expect_eq_ok_iff.mpr htake, ?_⟩
    dsimp only
    rw [record_bind rfl, bind_eq_ok_iff]
    refine ⟨_, hspelled.1, ?_⟩
    dsimp only
    rw [hspelled.2]
    dsimp only
    rw [note_bind rfl, hcomplete htext hletter hdigits]
    rfl

/-! ## Escapes -/

/-- The fixed escapes are those with a letter in the list. -/
theorem isSome_fixed? (c : Char) : (Escape.fixed? c).isSome = true ↔ c ∈ fixedLetters := by
  unfold Escape.fixed?
  split <;> simp_all [fixedLetters]

/-- Every region that escapes may stand in has special characters. -/
theorem specials?_eq {region : Region} (h : region ≠ .escape) :
    region.specials? = some (specials region) := by
  cases region with
  | pattern => rfl
  | characterClass => rfl
  | escape => exact absurd rfl h

/-- The letter of a code is neither a fixed escape nor special. -/
theorem codeLetter_free (region : Region) {c : Char} (h : c ∈ Escape.codeLetters) :
    Escape.fixed? c = none ∧ c ∉ specials region := by
  have hcases : c = 'u' ∨ c = 'x' := by simpa [Escape.codeLetters] using h
  rcases hcases with rfl | rfl <;> cases region <;> decide

/-- The escape of a single character, inside the region of the escape. -/
theorem singleEscape_eq_ok_iff {start : Nat} {c cooked : Char} {draft coded : Builder}
    {text : List Char} (hkind : draft.kind = .escapeSequence) (hslots : draft.slots = [.escape]) :
    singleEscape start c cooked draft (scanner.push (.region .escape)) = .ok (text, coded, after) ↔
      scanner.Reads [c] after ∧ text = [cooked] ∧
        coded = draft.extend (Node.placeAll scanner.position
          [(.code, .token { Token.bare .keyword [c] with closeRegion := some .escape })]) := by
  have hroom : draft.kind.hasRoom draft.slots .code = true :=
    Builder.hasRoom_of_eq hkind hslots rfl
  rw [singleEscape]
  constructor
  · intro h
    split at h
    · simp at h
    · next token behind htake =>
      obtain ⟨hreads, rfl⟩ := Scanner.leave?_push_iff.mp htake
      rw [record_bind hroom] at h
      simp only [pure_eq_ok_iff, Prod.mk.injEq] at h
      obtain ⟨rfl, rfl, rfl⟩ := h
      exact ⟨hreads, rfl, rfl⟩
  · rintro ⟨hreads, rfl, rfl⟩
    rw [Scanner.leave?_push_iff.mpr ⟨hreads, rfl⟩]
    dsimp only
    rw [record_bind hroom]
    rfl

/-- What may follow the backslash of an escape, inside the region of the escape. -/
theorem escapeBody_eq_ok_iff {start : Nat} {region : Region} {draft coded : Builder}
    {text : List Char} (hregion : region ≠ .escape) (hkind : draft.kind = .escapeSequence)
    (hslots : draft.slots = [.escape]) :
    escapeBody start region draft (scanner.push (.region .escape)) = .ok (text, coded, after) ↔
      ∃ inner : Grammar.Escape region, scanner.Reads inner.body after ∧ text = inner.cooked ∧
        coded = draft.extend (Node.placeAll scanner.position [(.code, inner.child)]) := by
  have hroom : draft.kind.hasRoom draft.slots .code = true :=
    Builder.hasRoom_of_eq hkind hslots rfl
  constructor
  · intro h
    rw [escapeBody, specials?_eq hregion] at h
    split at h
    · next c cooked hfixed =>
      obtain ⟨d, _, hd⟩ := Option.bind_eq_some_iff.mp hfixed
      obtain ⟨e, he, heq⟩ := Option.map_eq_some_iff.mp hd
      obtain ⟨rfl, rfl⟩ := Prod.mk.inj heq
      obtain ⟨hreads, rfl, rfl⟩ := (singleEscape_eq_ok_iff hkind hslots).mp h
      have hknown : d ∈ fixedLetters := (isSome_fixed? d).mp (by rw [he]; rfl)
      exact ⟨.single d (.inl hknown), hreads, by simp [Grammar.Escape.cooked, he], rfl⟩
    · next hfixed =>
      dsimp only at h
      split at h
      · simp at h
      · next c hnext =>
        have hnone : Escape.fixed? c = none := by
          simpa [hnext] using hfixed
        split at h
        · next hspecial =>
          obtain ⟨hreads, rfl, rfl⟩ := (singleEscape_eq_ok_iff hkind hslots).mp h
          exact ⟨.single c (.inr hspecial), hreads, by simp [Grammar.Escape.cooked, hnone], rfl⟩
        · split at h
          · rw [bind_eq_ok_iff] at h
            obtain ⟨⟨⟨node, value⟩, last⟩, hcode, h⟩ := h
            obtain ⟨code, hreads, rfl, rfl⟩ := escapeCode_eq_ok_iff.mp hcode
            obtain ⟨behind, rfl, hinner⟩ := Scanner.reads_push.mp hreads
            dsimp only at h
            rw [record_bind hroom, Scanner.leave_push] at h
            simp only [pure_eq_ok_iff, Prod.mk.injEq] at h
            obtain ⟨rfl, rfl, rfl⟩ := h
            exact ⟨.coded code, hinner, rfl, rfl⟩
          · simp at h
  · rintro ⟨inner, hreads, rfl, rfl⟩
    rw [escapeBody, specials?_eq hregion]
    cases inner with
    | single c known =>
        have hnext : (scanner.push (.region .escape)).next? = some c := by
          rw [Scanner.next?, Scanner.push_rest, hreads.rest]
          rfl
        rw [hnext, Option.bind_some]
        cases hfixed : Escape.fixed? c with
        | some cooked =>
            refine (singleEscape_eq_ok_iff hkind hslots).mpr ⟨hreads, ?_, rfl⟩
            simp [Grammar.Escape.cooked, hfixed]
        | none =>
            have hspecial : c ∈ specials region := by
              refine known.resolve_left fun hmem => ?_
              rw [← isSome_fixed?, hfixed] at hmem
              simp at hmem
            simp only [Option.map_none, if_pos hspecial]
            refine (singleEscape_eq_ok_iff hkind hslots).mpr ⟨hreads, ?_, rfl⟩
            simp [Grammar.Escape.cooked, hfixed]
    | coded code =>
        obtain ⟨text, htext⟩ := code.text_eq_cons
        have hnext : (scanner.push (.region .escape)).next? = some code.letter := by
          rw [Scanner.next?, Scanner.push_rest, hreads.rest, Grammar.Escape.body, htext]
          rfl
        obtain ⟨hfixed, hspecial⟩ := codeLetter_free region code.letter_mem
        have hcode : escapeCode (scanner.push (.region .escape))
            = .ok ((code.tree.place scanner.position, code.value),
              after.push (.region .escape)) :=
          escapeCode_eq_ok_iff.mpr ⟨code, Scanner.reads_push.mpr ⟨after, rfl, hreads⟩, rfl, rfl⟩
        rw [hnext, Option.bind_some, hfixed]
        simp only [Option.map_none, if_neg hspecial, if_pos code.letter_mem]
        rw [hcode, ok_bind]
        dsimp only
        rw [record_bind hroom, Scanner.leave_push]
        rfl

/-- An escape is accepted in a region just if the grammar of the region derives it. -/
theorem escapeSequence_eq_ok_iff {region : Region} {node : Node}
    (hregion : scanner.region = region) (hescape : region ≠ .escape) :
    escapeSequence scanner = .ok (node, after) ↔
      ∃ inner : Grammar.Escape region, scanner.Reads inner.text after ∧
        node = inner.tree.place scanner.position := by
  have hcomplete : ∀ (inner : Grammar.Escape region) {inside last : Scanner},
      scanner.Reads ['\\'] inside → inside.Reads inner.body last →
      complete ((((Builder.new .escapeSequence scanner.position).extend [(.escape,
          .token ({ Token.bare .punctuator ['\\'] with openRegion := some .escape }.place
            scanner.position))]).extend
        (Node.placeAll inside.position [(.code, inner.child)])).annotate
          [(.cooked, .text inner.cooked)]) last
        = (inner.tree.place scanner.position, last) := by
    intro inner inside last hslash hbody
    refine complete_eq inner.tree ?_ ?_
    · rw [Grammar.Escape.sourceText_tree]
      exact (hslash.trans hbody).position
    · rw [Builder.extend_extend, hslash.position]
      rfl
  rw [escapeSequence, hregion]
  constructor
  · intro h
    split at h
    · simp at h
    · next backslash inside henter =>
      obtain ⟨first, hslash, rfl, rfl⟩ := Scanner.enter?_char_iff.mp henter
      rw [record_bind rfl, bind_eq_ok_iff] at h
      obtain ⟨⟨cooked, coded, behind⟩, hbody, h⟩ := h
      obtain ⟨inner, hreads, rfl, rfl⟩ := (escapeBody_eq_ok_iff hescape rfl rfl).mp hbody
      dsimp only at h
      rw [note_bind rfl] at h
      obtain ⟨rfl, rfl⟩ := Prod.mk.inj
        ((pure_eq_ok_iff.mp h).trans (hcomplete inner hslash hreads))
      exact ⟨inner, hslash.trans hreads, rfl⟩
  · rintro ⟨inner, hreads, rfl⟩
    obtain ⟨inside, hslash, hbody⟩ := Scanner.reads_cons.mp hreads
    have hinner : escapeBody scanner.position region
          ((Builder.new .escapeSequence scanner.position).extend [(.escape,
            .token ({ Token.bare .punctuator ['\\'] with openRegion := some .escape }.place
              scanner.position))]) (inside.push (.region .escape))
        = .ok (inner.cooked, _, after) :=
      (escapeBody_eq_ok_iff hescape rfl rfl).mpr ⟨inner, hbody, rfl, rfl⟩
    rw [Scanner.enter?_char_iff.mpr ⟨inside, hslash, rfl, rfl⟩]
    dsimp only
    rw [record_bind rfl, bind_eq_ok_iff]
    refine ⟨_, hinner, ?_⟩
    dsimp only
    rw [note_bind rfl]
    exact pure_eq_ok_iff.mpr (hcomplete inner hslash hbody).symm

end PatternTree.Production
