import PatternTree.Production.Character
import PatternTree.Proofs.Acceptance.Escape

/-!
# Accepting characters and keywords

The productions that patterns and bracket expressions share accept just the texts that the
grammar derives, and give their trees.

* `character_eq_ok_iff` — characters, where no reserved one comes;
* `escapedKeyword_eq_ok_iff` — letters with a meaning behind a backslash;
* `escapedSet_eq_ok_iff` — the letters of character sets;
* `sigil_eq_ok_iff` — single characters with a meaning of their own.

What comes behind a backslash decides which of them is tried: a letter with a meaning of its
own never begins an escape (`Escape.exists_body_eq_cons`).
-/

namespace PatternTree

namespace Grammar

/-- What stands behind the backslash of an escape does not begin like a keyword. -/
theorem Escape.exists_body_eq_cons {region : Region} (inner : Escape region) :
    ∃ c rest, inner.body = c :: rest ∧ c ∉ keywordLetters region := by
  cases inner with
  | single c known =>
      refine ⟨c, [], rfl, ?_⟩
      intro hkeyword
      cases region <;>
        simp [keywordLetters, specials, Region.specials?, fixedLetters] at hkeyword known <;>
        rcases hkeyword with rfl | rfl | rfl | rfl | rfl | rfl | rfl | rfl | rfl <;>
        simp at known
  | coded code =>
      obtain ⟨text, htext⟩ := code.text_eq_cons
      refine ⟨code.letter, text, htext, ?_⟩
      have hletter : code.letter = 'u' ∨ code.letter = 'x' := by
        simpa [PatternTree.Escape.codeLetters] using code.letter_mem
      rcases hletter with hu | hx
      · rw [hu]
        cases region <;> decide
      · rw [hx]
        cases region <;> decide

end Grammar

namespace Production

open Grammar

variable {scanner after : Scanner} {node : Node}

/-! ## Looking behind a backslash -/

theorem seesEscaped_iff {letters : List Char} {scanner : Scanner} :
    seesEscaped letters scanner = true ↔
      ∃ c ∈ letters, ∃ rest, scanner.rest = '\\' :: c :: rest := by
  unfold seesEscaped
  split
  · next c rest hrest => simp [hrest]
  · next hrest =>
    simp only [Bool.false_eq_true, false_iff, not_exists, not_and]
    exact fun c _ rest heq => hrest c rest heq

theorem seesEscaped_of_rest {letters : List Char} {c : Char} {rest : List Char}
    (h : scanner.rest = '\\' :: c :: rest) : seesEscaped letters scanner = letters.contains c := by
  simp [seesEscaped, h]

theorem seesEscaped_of_begins {letters : List Char}
    (h : Scanner.begins (· == '\\') scanner.rest = false) :
    seesEscaped letters scanner = false := by
  unfold seesEscaped
  split
  · next hrest => simp [hrest] at h
  · rfl

/-- No letter with a meaning of its own is seen where a character comes. -/
theorem seesEscaped_of_character {region : Region} {inner : Character region}
    {letters : List Char} (hreads : scanner.Reads inner.text after)
    (hletters : ∀ c ∈ letters, c ∈ keywordLetters region) :
    seesEscaped letters scanner = false := by
  cases inner with
  | plain c free =>
      apply seesEscaped_of_begins
      rw [hreads.rest]
      have hbackslash : c ≠ '\\' := by
        rintro rfl
        simp at free
      simpa using hbackslash
  | escape inner =>
      obtain ⟨c, body, hbody, hkeyword⟩ := inner.exists_body_eq_cons
      have hrest : scanner.rest = '\\' :: c :: (body ++ after.rest) := by
        rw [hreads.rest, Character.text_escape, Grammar.Escape.text, hbody]
        rfl
      rw [seesEscaped_of_rest hrest, ← Bool.not_eq_true, List.contains_iff_mem]
      exact fun hc => hkeyword (hletters c hc)

/-! ## Keywords -/

/-- The mark of a negated kind of node is recorded where the kind of node has one. -/
theorem noteNegation_bind {β : Type} {kind : NodeKind} {start : Nat} {properties : List Property}
    {mark : Attribute} {next : Builder → Attempt β} :
    (if AttributeName.negate ∈ kind.attributeNames then
        note ((Builder.new kind start).extend properties) .negate mark >>= next
      else pure ((Builder.new kind start).extend properties) >>= next)
      = next (((Builder.new kind start).extend properties).annotate
        (if AttributeName.negate ∈ kind.attributeNames then [(.negate, mark)] else [])) := by
  split
  · next hknown => exact note_bind (List.contains_iff_mem.mpr hknown)
  · rw [Builder.annotate_nil]
    rfl

/-- An escaped letter is accepted as a kind of node just if it is one of the letters of the
kind. -/
theorem escapedKeyword_eq_ok_iff {kind : NodeKind} {letters : List Char}
    (hkind : ∀ c ∈ letters, keywordKind c = kind)
    (hfirst : kind.hasRoom [] .escapeToken = true)
    (hsecond : kind.hasRoom [.escapeToken] .value = true) :
    escapedKeyword kind letters scanner = .ok (node, after) ↔
      ∃ c ∈ letters, scanner.Reads ['\\', c] after ∧
        node = (keywordTree c).place scanner.position := by
  have hcomplete : ∀ {c : Char} {inside last : Scanner}, c ∈ letters →
      scanner.Reads ['\\'] inside → inside.Reads [c] last →
      complete ((((Builder.new kind scanner.position).extend
          [(.escapeToken, .token ((Token.bare .punctuator ['\\']).place
            scanner.position))]).annotate
          (if AttributeName.negate ∈ kind.attributeNames then
            [(.negate, .bool ([c].all Char.isUpper))] else [])).extend
          [(.value, .token ((Token.bare .keyword [c]).place inside.position))]) last
        = ((keywordTree c).place scanner.position, last) := by
    intro c inside last hc hslash hletter
    refine complete_eq (keywordTree c) ?_ ?_
    · rw [sourceText_keywordTree]
      exact (hslash.trans hletter).position
    · rw [Builder.extend_annotate, Builder.extend_extend, hslash.position, keywordTree, hkind c hc,
        List.all_cons, List.all_nil, Bool.and_true]
      rfl
  constructor
  · intro h
    rw [escapedKeyword, bind_eq_ok_iff] at h
    obtain ⟨⟨backslash, inside⟩, hexpect, h⟩ := h
    obtain ⟨hslash, rfl⟩ := Scanner.take?_char_iff.mp (expect_eq_ok_iff.mp hexpect)
    dsimp only at h
    rw [record_bind hfirst, bind_eq_ok_iff] at h
    obtain ⟨⟨letter, last⟩, hexpect, h⟩ := h
    obtain ⟨c, hc, hletter, rfl⟩ :=
      (Scanner.take?_single_iff rfl).mp (expect_eq_ok_iff.mp hexpect)
    rw [List.contains_iff_mem] at hc
    dsimp only at h
    rw [noteNegation_bind, record_bind hsecond] at h
    obtain ⟨rfl, rfl⟩ := Prod.mk.inj ((pure_eq_ok_iff.mp h).trans (hcomplete hc hslash hletter))
    exact ⟨c, hc, hslash.trans hletter, rfl⟩
  · rintro ⟨c, hc, hreads, rfl⟩
    obtain ⟨inside, hslash, hletter⟩ := Scanner.reads_cons.mp hreads
    rw [escapedKeyword, bind_eq_ok_iff]
    refine ⟨_, expect_eq_ok_iff.mpr (Scanner.take?_char_iff.mpr ⟨hslash, rfl⟩), ?_⟩
    dsimp only
    rw [record_bind hfirst, bind_eq_ok_iff]
    refine ⟨_, expect_eq_ok_iff.mpr ((Scanner.take?_single_iff rfl).mpr
      ⟨c, List.contains_iff_mem.mpr hc, hletter, rfl⟩), ?_⟩
    dsimp only
    rw [noteNegation_bind, record_bind hsecond]
    exact pure_eq_ok_iff.mpr (hcomplete hc hslash hletter).symm

/-- A character set is accepted just if its letter comes behind a backslash. -/
theorem escapedSet_eq_ok_iff :
    escapedSet scanner = .ok (node, after) ↔
      ∃ c ∈ setLetters, scanner.Reads ['\\', c] after ∧
        node = (keywordTree c).place scanner.position := by
  have hsplit : ∀ c, c ∈ setLetters ↔ c ∈ digitLetters ∨ c ∈ spaceLetters ∨ c ∈ wordLetters := by
    intro c
    simp [setLetters]
  have hdigit : escapedKeyword .digitCharacterSet digitLetters scanner = .ok (node, after) ↔ _ :=
    escapedKeyword_eq_ok_iff (by simp [digitLetters, keywordKind]) rfl rfl
  have hspace : escapedKeyword .spaceCharacterSet spaceLetters scanner = .ok (node, after) ↔ _ :=
    escapedKeyword_eq_ok_iff (by simp [spaceLetters, keywordKind]) rfl rfl
  have hword : escapedKeyword .wordCharacterSet wordLetters scanner = .ok (node, after) ↔ _ :=
    escapedKeyword_eq_ok_iff (by simp [wordLetters, keywordKind]) rfl rfl
  rw [escapedSet]
  constructor
  · intro h
    split at h
    · obtain ⟨c, hc, hresult⟩ := hdigit.mp h
      exact ⟨c, (hsplit c).mpr (.inl hc), hresult⟩
    · split at h
      · obtain ⟨c, hc, hresult⟩ := hspace.mp h
        exact ⟨c, (hsplit c).mpr (.inr (.inl hc)), hresult⟩
      · obtain ⟨c, hc, hresult⟩ := hword.mp h
        exact ⟨c, (hsplit c).mpr (.inr (.inr hc)), hresult⟩
  · rintro ⟨c, hc, hreads, rfl⟩
    have hsees : ∀ letters, seesEscaped letters scanner = letters.contains c :=
      fun letters => seesEscaped_of_rest hreads.rest
    simp only [hsees, List.contains_iff_mem]
    split
    · next hmem => exact hdigit.mpr ⟨c, hmem, hreads, rfl⟩
    · next hdigits =>
      split
      · next hmem => exact hspace.mpr ⟨c, hmem, hreads, rfl⟩
      · next hspaces =>
        have hmem := (((hsplit c).mp hc).resolve_left hdigits).resolve_left hspaces
        exact hword.mpr ⟨c, hmem, hreads, rfl⟩

/-! ## Single characters -/

/-- A sigil is accepted just if its character comes. -/
theorem sigil_eq_ok_iff {kind : NodeKind} {c : Char} {what : String}
    (hroom : kind.hasRoom [] .sigilToken = true) :
    sigil kind (.char c) what scanner = .ok (node, after) ↔
      scanner.Reads [c] after ∧
        node = (Node.bare kind [] [(.sigilToken, .token (.bare .keyword [c]))]).place
          scanner.position := by
  have hcomplete : ∀ {last : Scanner}, scanner.Reads [c] last →
      complete ((Builder.new kind scanner.position).extend
          [(.sigilToken, .token ((Token.bare .keyword [c]).place scanner.position))]) last
        = ((Node.bare kind [] [(.sigilToken, .token (.bare .keyword [c]))]).place
            scanner.position, last) := by
    intro last hreads
    exact complete_eq _ (by simpa using hreads.position) (Builder.annotate_nil _).symm
  constructor
  · intro h
    rw [sigil, bind_eq_ok_iff] at h
    obtain ⟨⟨token, last⟩, hexpect, h⟩ := h
    obtain ⟨hreads, rfl⟩ := Scanner.take?_char_iff.mp (expect_eq_ok_iff.mp hexpect)
    dsimp only at h
    rw [record_bind hroom] at h
    obtain ⟨rfl, rfl⟩ := Prod.mk.inj ((pure_eq_ok_iff.mp h).trans (hcomplete hreads))
    exact ⟨hreads, rfl⟩
  · rintro ⟨hreads, rfl⟩
    rw [sigil, bind_eq_ok_iff]
    refine ⟨_, expect_eq_ok_iff.mpr (Scanner.take?_char_iff.mpr ⟨hreads, rfl⟩), ?_⟩
    dsimp only
    rw [record_bind hroom]
    exact pure_eq_ok_iff.mpr (hcomplete hreads).symm

/-- Where no reserved character comes, a character is accepted just if the grammar of the
region derives it. -/
theorem character_eq_ok_iff {region : Region} (hregion : scanner.region = region)
    (hescape : region ≠ .escape)
    (hfree : Scanner.begins (reserved region).contains scanner.rest = false) :
    character scanner = .ok (node, after) ↔
      ∃ inner : Character region, scanner.Reads inner.text after ∧
        node = inner.tree.place scanner.position := by
  have hcomplete : ∀ (tree : Node) {slot : Slot} {child : Child Node} {last : Scanner},
      tree.kind = .character → tree.attributes = [] →
      Node.placeAll scanner.position tree.properties = [(slot, child)] →
      scanner.Reads tree.sourceText last →
      complete ((Builder.new .character scanner.position).extend [(slot, child)]) last
        = (tree.place scanner.position, last) := by
    intro tree slot child last hkind hattributes hproperties hreads
    refine complete_eq tree hreads.position ?_
    rw [hkind, hattributes, hproperties, Builder.annotate_nil]
  have hslash : scanner.sees (.char '\\') = Scanner.begins (· == '\\') scanner.rest :=
    Scanner.sees_single rfl
  constructor
  · intro h
    rw [character] at h
    split at h
    · rw [bind_eq_ok_iff] at h
      obtain ⟨⟨escape, last⟩, hsequence, h⟩ := h
      obtain ⟨inner, hreads, rfl⟩ := (escapeSequence_eq_ok_iff hregion hescape).mp hsequence
      dsimp only at h
      rw [record_bind rfl] at h
      obtain ⟨rfl, rfl⟩ := Prod.mk.inj ((pure_eq_ok_iff.mp h).trans
        (hcomplete (Character.escape inner).tree rfl rfl rfl (by simpa using hreads)))
      exact ⟨.escape inner, hreads, rfl⟩
    · next hsees =>
      split at h
      · next value last htake =>
        obtain ⟨c, hc, hreads, rfl⟩ := (Scanner.take?_single_iff rfl).mp htake
        have hplain : c ∉ ['\r', '\n', '\t', '\\'] ∧ c ∉ reserved region := by
          rw [hslash] at hsees
          rw [hreads.rest] at hsees hfree
          simp only [List.singleton_append, Scanner.begins_cons] at hsees hfree
          obtain ⟨⟨hfeed, hreturn⟩, htab⟩ : (c ≠ '\n' ∧ c ≠ '\r') ∧ c ≠ '\t' := by
            simpa [Terminal.isPlain] using hc
          have hbackslash : c ≠ '\\' := by simpa using hsees
          exact ⟨by simp [hreturn, hfeed, htab, hbackslash], by simpa using hfree⟩
        rw [record_bind rfl] at h
        obtain ⟨rfl, rfl⟩ := Prod.mk.inj ((pure_eq_ok_iff.mp h).trans
          (hcomplete (Character.plain c hplain).tree rfl rfl rfl
            (by simpa using hreads)))
        exact ⟨.plain c hplain, hreads, rfl⟩
      · split at h <;> simp at h
  · rintro ⟨inner, hreads, rfl⟩
    cases inner with
    | plain c free =>
        obtain ⟨hreturn, hfeed, htab, hbackslash⟩ :
            c ≠ '\r' ∧ c ≠ '\n' ∧ c ≠ '\t' ∧ c ≠ '\\' := by
          simpa using free.1
        have hsees : scanner.sees (.char '\\') = false := by
          rw [hslash, hreads.rest]
          simpa using hbackslash
        have hc : Terminal.isPlain c = true := by
          simp [Terminal.isPlain, hreturn, hfeed, htab]
        have htake : scanner.take? .literal .plain = some (_, after) :=
          (Scanner.take?_single_iff rfl).mpr ⟨c, hc, hreads, rfl⟩
        rw [character, hsees, htake]
        simp only [Bool.false_eq_true, if_false]
        rw [record_bind rfl]
        exact pure_eq_ok_iff.mpr (hcomplete (Character.plain c free).tree rfl rfl rfl
          (by simpa using hreads)).symm
    | escape inner =>
        have hsees : scanner.sees (.char '\\') = true := by
          rw [hslash, hreads.rest]
          rfl
        rw [character, hsees,
          (escapeSequence_eq_ok_iff hregion hescape).mpr ⟨inner, hreads, rfl⟩]
        simp only [if_true, ok_bind]
        rw [record_bind rfl]
        exact pure_eq_ok_iff.mpr (hcomplete (Character.escape inner).tree rfl rfl rfl
          (by simpa using hreads)).symm

end Production

end PatternTree
