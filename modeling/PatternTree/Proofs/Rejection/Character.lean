import PatternTree.Proofs.Acceptance.Character
import PatternTree.Proofs.Rejection.Basic

/-!
# Rejecting characters

Where a character has to come, an error is found either at its first character, which any other
one can replace, or in the code of an escape, whose digits can be completed.

* `bracedDigits_blames` — the only digits that nothing completes are too many or too large;
* `escapeCode_blames` — a code of four or two digits is never beyond the last code point, so one
  that is has braces and six digits (`namesNoCodePoint_of_codeDigits`);
* `character_blames` — characters;
* `escapedKeyword_blames`, `sigil_blames` — keywords and sigils that have been seen are never
  rejected.
-/

namespace PatternTree.Production

open Grammar

variable {scanner after : Scanner} {region : Region} {report : Report}

/-- The texts of the characters of a region. -/
def CharacterText (region : Region) (text : List Char) : Prop :=
  ∃ inner : Character region, inner.text = text

/-- A letter stands for itself in every region. -/
theorem characterText_letter : CharacterText region ['a'] :=
  ⟨.plain 'a' (by cases region <;> decide), rfl⟩

theorem characterText_single {c : Char} (known : c ∈ fixedLetters) :
    CharacterText region ['\\', c] :=
  ⟨.escape (.single c (.inl known)), rfl⟩

theorem characterText_code (code : Code) : CharacterText region ('\\' :: code.text) :=
  ⟨.escape (.coded code), rfl⟩

/-! ## Character codes -/

/-- Digits without braces are rejected only in front of the first one. -/
theorem blockDigits_blames {letter : Char} {terminal : Terminal} {draft : Builder}
    {zeros : List Char} (hknown : letter ∈ PatternTree.Escape.codeLetters)
    (hzeros : CharacterText region ('\\' :: letter :: zeros)) :
    Blames scanner (fun front => Diagnosed none (CharacterText region) ('\\' :: letter :: front))
      (blockDigits terminal draft scanner) := by
  unfold blockDigits
  split
  · exact blames_here ⟨⟨[], letter, [], rfl, hknown, .inl rfl⟩,
      .inr ⟨zeros, completes_of_ne (by decide), hzeros⟩⟩
  · exact blames_record.bind fun _ _ => blames_record.bind fun _ _ =>
      blames_record.bind fun _ _ => blames_pure _

/-- The digits of a code in braces can be completed, wherever they are rejected, unless there are
too many of them or they are beyond the last code point. -/
theorem bracedDigits_blames {opening : Token} {draft : Builder} :
    Blames scanner
      (fun front => Diagnosed none (CharacterText region) ('\\' :: 'u' :: '{' :: front))
      (bracedDigits opening draft scanner) := by
  have hapt : ∀ (digits back : List Char), digits.all (Numeral.isDigit 16) = true →
      Apt ('\\' :: 'u' :: '{' :: digits) back .invalidHex :=
    fun digits _ hall => ⟨[], 'u', '{' :: digits, rfl, by decide, .inr ⟨rfl, digits, hall, rfl⟩⟩
  unfold bracedDigits
  refine blames_record.bind fun opened _ => ?_
  split
  · refine blames_here ⟨hapt [] _ rfl, .inr ⟨['0', '}'], completes_of_ne (by decide), ?_⟩⟩
    exact characterText_code (.braced ['0'] (by decide) (by decide) (by decide))
  · next token behind htake =>
    obtain ⟨digits, hne, hall, hstop, hreads, rfl⟩ := Scanner.take?_hexRun_iff.mp htake
    split
    · next hlong =>
      exact blames_reject hreads
        ⟨hapt digits _ hall, .inl ⟨[], digits, rfl, hall, hstop, .inl hlong⟩⟩
    · next hshort =>
      split
      · refine blames_reject hreads ⟨hapt digits _ hall, ?_⟩
        by_cases hbounded : Numeral.value 16 digits ≤ 0x10ffff
        · refine .inr ⟨['}'], completes_of_ne (by decide), ?_⟩
          exact characterText_code (.braced digits hall
            ⟨List.length_pos_iff.mpr hne, Nat.not_lt.mp hshort⟩ hbounded)
        · exact .inl ⟨[], digits, rfl, hall, hstop, .inr (Nat.lt_of_not_le hbounded)⟩
      · exact blames_record.bind fun _ _ => blames_record.bind fun _ _ => blames_pure _

/-- The digits of a code, behind its backslash and its letter. -/
theorem codeDigits_blames {letter : Token} {c : Char} {draft : Builder}
    (hletter : letter.text = [c]) (hknown : c ∈ PatternTree.Escape.codeLetters) :
    Blames scanner (fun front => Diagnosed none (CharacterText region) ('\\' :: c :: front))
      (codeDigits letter draft scanner) := by
  unfold codeDigits
  split
  · next hu =>
    obtain rfl : c = 'u' := by simpa [hletter] using hu
    split
    · next opening inside htake =>
      obtain ⟨hbrace, -⟩ := Scanner.take?_char_iff.mp htake
      exact Blames.behind hbrace bracedDigits_blames
    · exact blockDigits_blames hknown
        (characterText_code (.quad ['0', '0', '0', '0'] (by decide) rfl))
  · next hu =>
    obtain rfl : c = 'x' := by
      have hcases : c = 'u' ∨ c = 'x' := by simpa [PatternTree.Escape.codeLetters] using hknown
      exact hcases.resolve_left fun heq => hu (heq ▸ hletter)
    exact blockDigits_blames hknown (characterText_code (.byte ['0', '0'] (by decide) rfl))

/-- Only a code in braces with six digits can be beyond the last code point. -/
theorem namesNoCodePoint_of_codeDigits {letter : Token} {c : Char} {draft filled : Builder}
    {digits : List Char} (hletter : letter.text = [c])
    (hknown : c ∈ PatternTree.Escape.codeLetters) (hkind : draft.kind = .escapeCode)
    (hslots : draft.slots = [.type])
    (h : codeDigits letter draft scanner = .ok (digits, filled, after))
    (hnone : Numeral.codePoint? digits = none) : NamesNoCodePoint (c :: scanner.rest) := by
  have hblock : ∀ {terminal : Terminal} {size : Nat}, Scanner.block? terminal = some size →
      1 ≤ size → size ≤ 4 → blockDigits terminal draft scanner ≠ .ok (digits, filled, after) := by
    intro terminal size hsize hpos hle hok
    obtain ⟨rfl, hall, -⟩ := (blockDigits_eq_ok_iff hsize hkind hslots).mp hok
    have hsome := (codePoint?_of_length_le (List.length_pos_iff.mp hpos) hall hle).mpr rfl
    rw [hnone] at hsome
    cases hsome
  unfold codeDigits at h
  split at h
  · next hu =>
    obtain rfl : c = 'u' := by simpa [hletter] using hu
    split at h
    · next opening inside htake =>
      obtain ⟨hbrace, -⟩ := Scanner.take?_char_iff.mp htake
      obtain ⟨⟨hpos, hle⟩, hall, hreads, -⟩ := (bracedDigits_eq_ok_iff hkind hslots).mp h
      have hlarge : 0x10ffff < Numeral.value 16 digits := by
        refine Nat.lt_of_not_le fun hbounded => ?_
        have hsome := (Numeral.read?_eq_some_iff (List.length_pos_iff.mp hpos) hall).mpr
          ⟨rfl, hbounded⟩
        rw [Numeral.codePoint?, Numeral.largestCodePoint, hsome] at hnone
        cases hnone
      have hsix : digits.length = 6 := by
        refine Nat.le_antisymm hle (Nat.le_of_not_lt fun hfew => ?_)
        have hfive : Numeral.value 16 digits < Nat.pow 16 5 :=
          Nat.lt_of_lt_of_le (Numeral.value_lt_pow hall)
            (Nat.pow_le_pow_right (by decide) (Nat.le_of_lt_succ hfew))
        exact absurd (Nat.lt_trans hlarge hfive) (by decide)
      refine ⟨digits, after.rest, ?_, hsix, hall, hlarge⟩
      rw [hbrace.rest, hreads.rest, List.append_assoc]
      rfl
    · exact absurd h (hblock rfl (by decide) (by decide))
  · exact absurd h (hblock rfl (by decide) (by decide))

/-- A code, behind its backslash. -/
theorem escapeCode_blames {c : Char} {rest : List Char} (hrest : scanner.rest = c :: rest)
    (hknown : c ∈ PatternTree.Escape.codeLetters) :
    Blames scanner (fun front => Diagnosed none (CharacterText region) ('\\' :: front))
      (escapeCode scanner) := by
  have hsees : scanner.sees (.oneOf PatternTree.Escape.codeLetters) = true := by
    rw [Scanner.sees_single rfl, hrest, Scanner.begins_cons]
    exact List.contains_iff_mem.mpr hknown
  unfold escapeCode
  refine (blames_expect hsees).bind fun taken hexpect => ?_
  obtain ⟨letter, behind⟩ := taken
  obtain ⟨d, hd, hletter, rfl⟩ :=
    (Scanner.take?_single_iff rfl).mp (expect_eq_ok_iff.mp hexpect)
  rw [List.contains_iff_mem] at hd
  refine blames_record.bind fun begun hbegun => ?_
  obtain ⟨-, rfl⟩ := record_eq_ok_iff.mp hbegun
  refine Blames.bind (Blames.behind hletter (codeDigits_blames rfl hd)) fun taken hdigits => ?_
  obtain ⟨digits, spelled, last⟩ := taken
  dsimp only
  split
  · next hnone =>
    have hlarge := namesNoCodePoint_of_codeDigits rfl hd rfl rfl hdigits hnone
    refine blames_here ⟨⟨⟨[], rfl⟩, ?_⟩, .inr ⟨['n'], completes_of_ne (by decide), ?_⟩⟩
    · rw [hletter.rest]
      exact hlarge
    · exact characterText_single (by decide)
  · exact blames_note.bind fun _ _ => blames_pure _

/-! ## Escapes -/

/-- An escape without a meaning is reported at its backslash. -/
theorem diagnosed_unrecognized {inside : Scanner} (frame : Frame)
    (hslash : scanner.Reads ['\\'] inside) :
    Diagnosed none (CharacterText region) [] scanner.rest (unrecognized (inside.push frame)) where
  apt := ⟨inside.rest, hslash.rest, rfl⟩
  viable := .inr ⟨['a'], completes_of_ne (by simp [unrecognized]), characterText_letter⟩

/-- What may follow a backslash, inside the region of the escape. -/
theorem escapeBody_blames {inside : Scanner} {draft : Builder} (hescape : region ≠ .escape)
    (hslash : scanner.Reads ['\\'] inside) :
    Blames scanner (Diagnosed none (CharacterText region))
      (escapeBody scanner.position region draft (inside.push (.region .escape))) := by
  have hsingle : ∀ c cooked, Blames scanner (Diagnosed none (CharacterText region))
      (singleEscape scanner.position c cooked draft (inside.push (.region .escape))) := by
    intro c cooked
    unfold singleEscape
    split
    · exact blames_here (diagnosed_unrecognized _ hslash)
    · exact blames_record.bind fun _ _ => blames_pure _
  rw [escapeBody, specials?_eq hescape]
  split
  · exact hsingle _ _
  · dsimp only
    split
    · exact blames_here (diagnosed_unrecognized _ hslash)
    · next c hnext =>
      split
      · exact hsingle c c
      · split
        · next hcode =>
          obtain ⟨rest, hrest⟩ := List.head?_eq_some_iff.mp hnext
          have hinside : Blames inside
              (fun front => Diagnosed none (CharacterText region) ('\\' :: front))
              (escapeCode (inside.push (.region .escape))) :=
            Blames.of_push (.region .escape) (escapeCode_blames hrest hcode)
          refine Blames.bind (Blames.behind hslash hinside) fun taken _ => ?_
          exact blames_record.bind fun _ _ => blames_pure _
        · exact blames_here (diagnosed_unrecognized _ hslash)

/-- An escape that has been seen. -/
theorem escapeSequence_blames (hregion : scanner.region = region) (hescape : region ≠ .escape)
    (hsees : scanner.sees (.char '\\') = true) :
    Blames scanner (Diagnosed none (CharacterText region)) (escapeSequence scanner) := by
  rw [escapeSequence, hregion]
  split
  · next hnone => exact absurd hnone (enter?_ne_none hsees)
  · next backslash pushed henter =>
    obtain ⟨inside, hslash, rfl, -⟩ := Scanner.enter?_char_iff.mp henter
    refine blames_record.bind fun begun _ => ?_
    refine (escapeBody_blames hescape hslash).bind fun taken _ => ?_
    exact blames_note.bind fun _ _ => blames_pure _

/-! ## Characters and keywords -/

/-- A character, where the text does not end. -/
theorem character_blames (hregion : scanner.region = region) (hescape : region ≠ .escape)
    (hne : scanner.rest ≠ []) :
    Blames scanner (Diagnosed none (CharacterText region)) (character scanner) := by
  unfold character
  split
  · next hsees =>
    refine (escapeSequence_blames hregion hescape hsees).bind fun taken _ => ?_
    exact blames_record.bind fun _ _ => blames_pure _
  · split
    · exact blames_record.bind fun _ _ => blames_pure _
    · next htake =>
      have hplain : Scanner.begins Terminal.isPlain scanner.rest = false :=
        (Scanner.take?_single_eq_none_iff rfl).mp htake
      split
      · next c hnext =>
        obtain ⟨rest, hrest⟩ := List.head?_eq_some_iff.mp hnext
        have hc : c ∈ ['\r', '\n', '\t'] := by
          rw [hrest, Scanner.begins_cons] at hplain
          simp only [Terminal.isPlain, Bool.and_eq_false_iff, bne_eq_false_iff_eq] at hplain
          rcases hplain with (rfl | rfl) | rfl <;> decide
        refine blames_here ⟨⟨c, hnext, hc, rfl⟩, .inr ⟨['a'], ?_, characterText_letter⟩⟩
        exact completes_of_ne (by simp [ErrorKind.unexpected])
      · next hnext => exact absurd (List.head?_eq_none_iff.mp hnext) hne

/-- A character that may stand for itself is not rejected. -/
theorem character_blames_plain {c : Char} {rest : List Char} (hrest : scanner.rest = c :: rest)
    (hplain : Terminal.isPlain c = true) (hbackslash : c ≠ '\\') :
    Blames scanner report (character scanner) := by
  have hsees : scanner.sees (.char '\\') = false := by
    rw [Scanner.sees_single rfl, hrest]
    simpa using hbackslash
  unfold character
  rw [hsees]
  split
  · next hslash => exact nomatch hslash
  · split
    · exact blames_record.bind fun _ _ => blames_pure _
    · next htake =>
      have hnone : Scanner.begins Terminal.isPlain scanner.rest = false :=
        (Scanner.take?_single_eq_none_iff rfl).mp htake
      rw [hrest, Scanner.begins_cons, hplain] at hnone
      exact nomatch hnone

/-- A keyword that has been seen is not rejected. -/
theorem escapedKeyword_blames {kind : NodeKind} {letters : List Char}
    (hsees : seesEscaped letters scanner = true) :
    Blames scanner report (escapedKeyword kind letters scanner) := by
  obtain ⟨c, hc, rest, hrest⟩ := seesEscaped_iff.mp hsees
  have hslash : scanner.sees (.char '\\') = true := by
    rw [Scanner.sees_single rfl, hrest]
    rfl
  unfold escapedKeyword
  refine (blames_expect hslash).bind fun taken hexpect => ?_
  obtain ⟨backslash, inside⟩ := taken
  obtain ⟨hreads, -⟩ := Scanner.take?_char_iff.mp (expect_eq_ok_iff.mp hexpect)
  have hinside : inside.rest = c :: rest := (List.cons.inj (hreads.rest.symm.trans hrest)).2
  have hletter : inside.sees (.oneOf letters) = true := by
    rw [Scanner.sees_single rfl, hinside, Scanner.begins_cons]
    exact List.contains_iff_mem.mpr hc
  refine blames_record.bind fun begun _ => Blames.behind hreads ?_
  refine (blames_expect hletter).bind fun taken _ => ?_
  dsimp only
  split
  · exact blames_note.bind fun _ _ => blames_record.bind fun _ _ => blames_pure _
  · exact blames_record.bind fun _ _ => blames_pure _

/-- A character set that has been seen is not rejected. -/
theorem escapedSet_blames (hsees : seesEscaped setLetters scanner = true) :
    Blames scanner report (escapedSet scanner) := by
  unfold escapedSet
  split
  · next hdigit => exact escapedKeyword_blames hdigit
  · next hdigit =>
    split
    · next hspace => exact escapedKeyword_blames hspace
    · next hspace =>
      refine escapedKeyword_blames ?_
      obtain ⟨c, hc, rest, hrest⟩ := seesEscaped_iff.mp hsees
      rw [seesEscaped_of_rest hrest, List.contains_iff_mem] at hdigit hspace ⊢
      have hletters : setLetters = digitLetters ++ spaceLetters ++ wordLetters := rfl
      rw [hletters, List.mem_append, List.mem_append] at hc
      exact hc.resolve_left fun hmem => hmem.elim hdigit hspace

/-- A sigil that has been seen is not rejected. -/
theorem sigil_blames {kind : NodeKind} {terminal : Terminal} {what : String}
    (hsees : scanner.sees terminal = true) :
    Blames scanner report (sigil kind terminal what scanner) := by
  unfold sigil
  refine (blames_expect hsees).bind fun taken _ => ?_
  exact blames_record.bind fun _ _ => blames_pure _

end PatternTree.Production
