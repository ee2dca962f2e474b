import Mathlib.Data.List.Induction
import Mathlib.Data.List.Nodup
import PatternTree.Parse
import PatternTree.Proofs.Acceptance.Alternation

/-!
# Accepting literals

What is read as a pattern literal, and as flags alone, is what the grammar derives; the tree that
is given is that of the derivation, laid out from the beginning.

* `Marks` — which flags have been seen behind some letters;
* `parse_eq_ok_iff` — the trees of pattern literals;
* `parseFlags_eq_ok_iff` — the trees of flags;
* `parse_accepts_iff` — the texts that are accepted at all.

Everything that holds of the trees of derivations therefore holds of all trees that are given.
-/

namespace PatternTree

namespace Production

open Grammar

variable {scanner after : Scanner} {node : Node}

/-! ## Flags -/

/-- Among the letters there is one that comes again, and this is the first place where that
happens: the letters in front are different. -/
structure Repeats (letters front : List Char) (c : Char) : Prop where
  splits : ∃ back, letters = front ++ c :: back
  distinct : front.Nodup
  before : c ∈ front

/-- Letters are all different unless there is one that comes again. -/
theorem exists_repeats {letters : List Char} (h : ¬ letters.Nodup) :
    ∃ front c, Repeats letters front c := by
  -- From the end, since the front that the last letter repeats has to be all that precedes it.
  induction letters using List.reverseRecOn with
  | nil => exact absurd List.nodup_nil h
  | append_singleton letters c ih =>
      by_cases hdistinct : letters.Nodup
      · have hbefore : c ∈ letters := by
          apply Decidable.byContradiction
          intro hnew
          have happended : (letters ++ [c]).Nodup := List.nodup_middle.mpr
            (List.nodup_cons.mpr ⟨by rwa [List.append_nil], by rwa [List.append_nil]⟩)
          exact h happended
        exact ⟨letters, c, ⟨[], rfl⟩, hdistinct, hbefore⟩
      · obtain ⟨front, d, ⟨back, hsplit⟩, hfront, hbefore⟩ := ih hdistinct
        exact ⟨front, d, ⟨back ++ [c], by rw [hsplit]; simp⟩, hfront, hbefore⟩

/-- The places that have been seen are those of the flags of the letters. -/
def Marks (seen : List Nat) (letters : List Char) : Prop :=
  ∀ index flag, Flag.all[index]? = some flag → (index ∈ seen ↔ flag.letter ∈ letters)

/-- One more letter marks the place of its flag. -/
theorem Marks.cons {seen : List Nat} {letters : List Char} {index : Nat} {flag : Flag}
    (h : Marks seen letters) (hflag : Flag.all[index]? = some flag) :
    Marks (index :: seen) (flag.letter :: letters) := by
  intro other otherFlag hother
  rw [List.mem_cons, List.mem_cons, h other otherFlag hother]
  refine or_congr_left ⟨?_, ?_⟩
  · intro hindex
    subst hindex
    rw [Option.some.inj (hother.symm.trans hflag)]
  · intro hletter
    have hfound := Flag.index?_letter hother
    rw [hletter, Flag.index?_letter hflag] at hfound
    exact (Option.some.inj hfound).symm

/-- The attributes that are recorded for the places of letters are those that the letters set. -/
theorem flagAttributes_eq {seen : List Nat} {letters : List Char} (h : Marks seen letters) :
    flagAttributes seen = flagSettings letters := by
  have hall : Flag.all = Flag.all.zipIdx.map Prod.fst := by decide
  rw [flagAttributes, flagSettings]
  conv_rhs => rw [hall]
  rw [List.map_map]
  refine List.map_congr_left fun entry hentry => ?_
  have hmarks := h entry.2 entry.1 (List.mem_zipIdx_iff_getElem?.mp hentry)
  have hcontains : seen.contains entry.2 = letters.contains entry.1.letter := by
    rw [Bool.eq_iff_iff, List.contains_iff_mem, List.contains_iff_mem]
    exact hmarks
  exact congrArg (fun value => (AttributeName.flag entry.1, Attribute.bool value)) hcontains

/-- Letters that are different and have not come before are passed, and their places are marked. -/
theorem seeFlags_of_distinct {letters before : List Char} {seen : List Nat} (position : Nat)
    (hmarks : Marks seen before) (hknown : ∀ c ∈ letters, c ∈ Flag.letters)
    (hdistinct : (letters ++ before).Nodup) :
    ∃ marked, seeFlags position seen letters = .ok marked ∧ Marks marked (letters ++ before) := by
  -- `before` grows by each letter that is seen, so that `seen` always marks just what came before.
  induction letters generalizing before seen position with
  | nil => exact ⟨seen, rfl, hmarks⟩
  | cons c letters ih =>
      obtain ⟨index, flag, hflag, rfl⟩ := Flag.exists_index (hknown c List.mem_cons_self)
      have hnew : index ∉ seen := by
        intro hseen
        have hbefore := (hmarks index flag hflag).mp hseen
        exact (List.nodup_cons.mp hdistinct).1 (List.mem_append_right letters hbefore)
      obtain ⟨marked, hok, hmarked⟩ := ih (position + flag.letter.utf8Size) (hmarks.cons hflag)
        (fun d hd => hknown d (List.mem_cons_of_mem _ hd)) (List.nodup_middle.mpr hdistinct)
      refine ⟨marked, ?_, ?_⟩
      · rw [seeFlags, Flag.index?_letter hflag]
        dsimp only
        rw [if_neg hnew, hok]
      · intro other otherFlag hother
        rw [hmarked other otherFlag hother]
        exact List.perm_middle.mem_iff

/-- Letters are seen one part after the other. -/
theorem seeFlags_append {front : List Char} {seen marked : List Nat} {position : Nat}
    (h : seeFlags position seen front = .ok marked) (back : List Char) :
    seeFlags position seen (front ++ back)
      = seeFlags (position + Text.byteLength front) marked back := by
  induction front generalizing seen position with
  | nil =>
      obtain rfl : seen = marked := Except.ok.inj h
      rfl
  | cons c front ih =>
      rw [List.cons_append, Text.byteLength_cons, ← Nat.add_assoc]
      rw [seeFlags] at h ⊢
      cases hindex : Flag.index? c with
      | none =>
          rw [hindex] at h
          exact ih h
      | some index =>
          rw [hindex] at h
          dsimp only at h ⊢
          by_cases hseen : index ∈ seen
          · rw [if_pos hseen] at h
            exact nomatch h
          · rw [if_neg hseen] at h ⊢
            exact ih h

/-- Different letters are passed, and just their flags have been seen then. -/
theorem seeFlags_eq_ok {letters : List Char} (hknown : ∀ c ∈ letters, c ∈ Flag.letters)
    (hdistinct : letters.Nodup) (position : Nat) :
    ∃ seen, seeFlags position [] letters = .ok seen ∧ Marks seen letters := by
  have hnone : Marks [] [] := by simp [Marks]
  rw [← List.append_nil letters] at hdistinct
  obtain ⟨seen, hok, hmarks⟩ := seeFlags_of_distinct position hnone hknown hdistinct
  rw [List.append_nil] at hmarks
  exact ⟨seen, hok, hmarks⟩

/-- The first letter that comes again is rejected. -/
theorem seeFlags_eq_reject {letters front : List Char} {c : Char} (h : Repeats letters front c)
    (hknown : ∀ d ∈ letters, d ∈ Flag.letters) (position : Nat) :
    seeFlags position [] letters
      = reject (position + Text.byteLength front) (.duplicateFlag c) := by
  obtain ⟨⟨back, rfl⟩, hdistinct, hbefore⟩ := h
  have hfront : ∀ d ∈ front, d ∈ Flag.letters := fun d hd => hknown d (List.mem_append_left _ hd)
  obtain ⟨seen, hok, hmarks⟩ := seeFlags_eq_ok hfront hdistinct position
  obtain ⟨index, flag, hflag, rfl⟩ := Flag.exists_index (hfront c hbefore)
  rw [seeFlags_append hok, seeFlags, Flag.index?_letter hflag]
  dsimp only
  rw [if_pos ((hmarks index flag hflag).mpr hbefore)]

/-- The flags that come are all flag letters up to the first other character. -/
theorem matched?_flagRun_iff {letters : List Char} :
    (scanner.matched? .flagRun).getD [] = letters ↔
      ∃ rest, scanner.rest = letters ++ rest ∧ letters.all Flag.letters.contains = true ∧
        Scanner.begins Flag.letters.contains rest = false := by
  have hmatched : scanner.matched? .flagRun
      = (Terminal.splitRun? Flag.letters.contains scanner.rest).map Prod.fst := rfl
  rw [hmatched]
  cases hsplit : Terminal.splitRun? Flag.letters.contains scanner.rest with
  | none =>
      have hstop := Scanner.splitRun?_eq_none_iff.mp hsplit
      constructor
      · rintro rfl
        exact ⟨scanner.rest, rfl, rfl, hstop⟩
      · rintro ⟨rest, hrest, hall, -⟩
        cases letters with
        | nil => rfl
        | cons c letters =>
            rw [hrest, List.cons_append, Scanner.begins_cons] at hstop
            exact absurd (List.all_eq_true.mp hall c List.mem_cons_self)
              (by rw [hstop]; decide)
  | some split =>
      obtain ⟨run, rest⟩ := split
      obtain ⟨hne, hall, hstop, hrest⟩ := Scanner.splitRun?_eq_some_iff.mp hsplit
      constructor
      · rintro rfl
        exact ⟨rest, hrest, hall, hstop⟩
      · rintro ⟨rest', hrest', hall', hstop'⟩
        cases letters with
        | nil =>
            rw [← List.nil_append rest', ← hrest', hrest] at hstop'
            obtain ⟨c, run, rfl⟩ := List.exists_cons_of_ne_nil hne
            rw [List.cons_append, Scanner.begins_cons] at hstop'
            exact absurd (List.all_eq_true.mp hall c List.mem_cons_self)
              (by rw [hstop']; decide)
        | cons c letters =>
            have hsplit' := Scanner.splitRun?_eq_some_iff.mpr
              ⟨List.cons_ne_nil c letters, hall', hstop', hrest'⟩
            rw [hsplit] at hsplit'
            exact congrArg Prod.fst (Option.some.inj hsplit')

/-- The children that record flag letters. -/
def flagProperties (letters : List Char) : List Property :=
  letters.map fun c => (.tokens, .token (.bare .keyword [c]))

/-- Given letters are accepted just if they come. -/
theorem flagTokens_eq_ok_iff {letters : List Char} {draft filled : Builder}
    (hkind : draft.kind = .flags) :
    flagTokens letters draft scanner = .ok (filled, after) ↔
      scanner.Reads letters after ∧
        filled = draft.extend (Node.placeAll scanner.position (flagProperties letters)) := by
  induction letters generalizing draft scanner with
  | nil =>
      rw [flagTokens, Scanner.reads_nil]
      simp [flagProperties, Node.placeAll, eq_comm, and_comm]
  | cons c letters ih =>
      have hroom : draft.kind.hasRoom draft.slots .tokens = true :=
        Builder.hasRoom_of_many hkind rfl
      have hkinds : ∀ properties, (draft.extend properties).kind = .flags := fun _ => hkind
      have hlaid : ∀ {behind : Scanner}, scanner.Reads [c] behind →
          (draft.extend
              [(.tokens, .token ((Token.bare .keyword [c]).place scanner.position))]).extend
            (Node.placeAll behind.position (flagProperties letters))
          = draft.extend (Node.placeAll scanner.position (flagProperties (c :: letters))) := by
        intro behind hreads
        rw [Builder.extend_extend, hreads.position]
        rfl
      rw [flagTokens, bind_eq_ok_iff]
      constructor
      · rintro ⟨⟨token, behind⟩, hexpect, h⟩
        obtain ⟨hreads, rfl⟩ := Scanner.take?_char_iff.mp (expect_eq_ok_iff.mp hexpect)
        dsimp only at h
        rw [record_bind hroom] at h
        obtain ⟨hletters, rfl⟩ := (ih (hkinds _)).mp h
        exact ⟨hreads.trans hletters, hlaid hreads⟩
      · rintro ⟨hreads, rfl⟩
        obtain ⟨behind, hfirst, hletters⟩ := Scanner.reads_cons.mp hreads
        refine ⟨_, expect_eq_ok_iff.mpr (Scanner.take?_char_iff.mpr ⟨hfirst, rfl⟩), ?_⟩
        dsimp only
        rw [record_bind hroom]
        exact (ih (hkinds _)).mpr ⟨hletters, (hlaid hfirst).symm⟩

/-- Flags are accepted just if none of the letters that come is repeated. -/
theorem flags_eq_ok_iff :
    flags scanner = .ok (node, after) ↔
      ∃ letters : List Char, (∀ c ∈ letters, c ∈ Flag.letters) ∧ letters.Nodup ∧
        Scanner.begins Flag.letters.contains after.rest = false ∧
        scanner.Reads letters after ∧ node = (flagsTree letters).place scanner.position := by
  have hcomplete : ∀ {letters : List Char} {last : Scanner}, scanner.Reads letters last →
      complete (((Builder.new .flags scanner.position).annotate (flagSettings letters)).extend
          (Node.placeAll scanner.position (flagProperties letters))) last
        = ((flagsTree letters).place scanner.position, last) := by
    intro letters last hreads
    refine complete_eq _ (by simpa using hreads.position) ?_
    rw [Builder.extend_annotate]
    rfl
  have hcontains : ∀ letters : List Char,
      letters.all Flag.letters.contains = true ↔ ∀ c ∈ letters, c ∈ Flag.letters := by
    intro letters
    simp
  constructor
  · intro h
    obtain ⟨letters, hletters⟩ : ∃ letters, (scanner.matched? .flagRun).getD [] = letters :=
      ⟨_, rfl⟩
    obtain ⟨rest, hrest, hall, hstop⟩ := matched?_flagRun_iff.mp hletters
    have hknown := (hcontains letters).mp hall
    rw [flags, hletters] at h
    by_cases hdistinct : letters.Nodup
    · obtain ⟨seen, hseen, hmarks⟩ := seeFlags_eq_ok hknown hdistinct scanner.position
      rw [hseen, ok_bind, noteAll_eq_ok_iff.mpr ⟨name_mem_of_mem_flagAttributes, rfl⟩,
        flagAttributes_eq hmarks, ok_bind, bind_eq_ok_iff] at h
      obtain ⟨⟨filled, last⟩, htokens, h⟩ := h
      obtain ⟨hreads, rfl⟩ := (flagTokens_eq_ok_iff rfl).mp htokens
      obtain ⟨rfl, rfl⟩ := Prod.mk.inj ((pure_eq_ok_iff.mp h).trans (hcomplete hreads))
      have hsame : rest = after.rest := List.append_cancel_left (hrest.symm.trans hreads.rest)
      exact ⟨letters, hknown, hdistinct, hsame ▸ hstop, hreads, rfl⟩
    · obtain ⟨front, c, hrepeats⟩ := exists_repeats hdistinct
      rw [seeFlags_eq_reject hrepeats hknown] at h
      exact nomatch h
  · rintro ⟨letters, hknown, hdistinct, hstop, hreads, rfl⟩
    have hletters : (scanner.matched? .flagRun).getD [] = letters :=
      matched?_flagRun_iff.mpr ⟨after.rest, hreads.rest, (hcontains letters).mpr hknown, hstop⟩
    obtain ⟨seen, hseen, hmarks⟩ := seeFlags_eq_ok hknown hdistinct scanner.position
    rw [flags, hletters, hseen, ok_bind,
      noteAll_eq_ok_iff.mpr ⟨name_mem_of_mem_flagAttributes, rfl⟩,
      flagAttributes_eq hmarks, ok_bind,
      (flagTokens_eq_ok_iff rfl).mpr ⟨hreads, rfl⟩, ok_bind]
    exact pure_eq_ok_iff.mpr (hcomplete hreads).symm

/-! ## Pattern literals -/

/-- What a literal records, laid out where it is read. -/
theorem complete_literalTree (literal : Literal) {inside behind outside last : Scanner}
    (hopen : scanner.Reads ['/'] inside)
    (hbody : inside.Reads (alternativeText literal.first ++ othersText literal.others) behind)
    (hclose : behind.Reads ['/'] outside) (hflags : outside.Reads literal.flags last) :
    complete (((((Builder.new .pattern scanner.position).extend
        (Node.placeAll scanner.position
          [(.openToken, .token (.opening ['/'] '/' (some .pattern)))])).extend
        (Node.placeAll inside.position (bodyProperties literal.first literal.others))).extend
        (Node.placeAll behind.position [(.closeToken, .token (.closing '/'))])).extend
        (Node.placeAll outside.position [(.flags, .node (flagsTree literal.flags))])) last
      = (literal.tree.place scanner.position, last) := by
  refine complete_eq _ ?_ ?_
  · rw [Literal.sourceText_tree, Literal.text]
    have hreads := ((hopen.trans hbody).trans hclose).trans hflags
    simpa using hreads.position
  · have hfirst : scanner.Reads (Node.spell
        [(.openToken, .token (.opening ['/'] '/' (some .pattern)))]) inside := by
      simpa using hopen
    have hsecond : scanner.Reads (Node.spell
        ([(.openToken, .token (.opening ['/'] '/' (some .pattern)))]
          ++ bodyProperties literal.first literal.others)) behind := by
      simpa using hopen.trans hbody
    have hthird : scanner.Reads (Node.spell
        ([(.openToken, .token (.opening ['/'] '/' (some .pattern)))]
          ++ bodyProperties literal.first literal.others
          ++ [(.closeToken, .token (.closing '/'))])) outside := by
      simpa using (hopen.trans hbody).trans hclose
    have htree : literal.tree = .bare .pattern []
        ([(.openToken, .token (.opening ['/'] '/' (some .pattern)))]
          ++ bodyProperties literal.first literal.others ++ [(.closeToken, .token (.closing '/'))]
          ++ [(.flags, .node (flagsTree literal.flags))]) := by
      simp [Literal.tree]
    rw [extend_placeAll hfirst, extend_placeAll hsecond, extend_placeAll hthird, htree]
    exact (Builder.annotate_nil _).symm

/-- Behind any body there is room for the closing slash and the flags. -/
theorem hasRoom_patternTail {start : Nat} {draft : Builder} {first : List Item}
    {others : List (List Item)} (closing : Child Node) (hkind : draft.kind = .pattern)
    (hslots : draft.slots = [.openToken]) :
    (draft.extend (Node.placeAll start (bodyProperties first others))).kind.hasRoom
        (draft.extend (Node.placeAll start (bodyProperties first others))).slots .closeToken
        = true ∧
      ((draft.extend (Node.placeAll start (bodyProperties first others))).extend
          [(.closeToken, closing)]).kind.hasRoom
        ((draft.extend (Node.placeAll start (bodyProperties first others))).extend
          [(.closeToken, closing)]).slots .flags = true := by
  simp only [Builder.extend_kind, Builder.extend_slots, Node.map_fst_placeAll, hkind, hslots,
    bodyProperties, otherProperties_eq]
  constructor
  · exact NodeKind.hasRoom_of_not_mem rfl (by simp)
  · exact NodeKind.hasRoom_of_not_mem rfl (by simp)

/-- Behind the slash that opens a literal one is inside. -/
theorem inside_of_opening {inside : Scanner} (hframes : scanner.frames = [])
    (hopen : scanner.Reads ['/'] inside) :
    Inside (inside.push (.delimiter '/' (some .pattern))).frames := by
  refine ⟨0, ?_⟩
  rw [Scanner.push_frames, hopen.frames, hframes]
  rfl

/-- Reading a literal passes behind its first slash, its body and its second slash. -/
theorem reads_literal {literal : Literal} (h : scanner.Reads literal.text after) :
    ∃ inside behind outside, scanner.Reads ['/'] inside ∧
      inside.Reads (alternativeText literal.first ++ othersText literal.others) behind ∧
      behind.Reads ['/'] outside ∧ outside.Reads literal.flags after := by
  have htext : literal.text = ['/'] ++ ((alternativeText literal.first
      ++ othersText literal.others) ++ (['/'] ++ literal.flags)) := by
    simp [Literal.text]
  rw [htext] at h
  obtain ⟨inside, hopen, hrest⟩ := Scanner.reads_append.mp h
  obtain ⟨behind, hbody, htail⟩ := Scanner.reads_append.mp hrest
  obtain ⟨outside, hclose, hflags⟩ := Scanner.reads_append.mp htail
  exact ⟨inside, behind, outside, hopen, hbody, hclose, hflags⟩

/-- A pattern literal is accepted just if the grammar derives it. -/
theorem pattern_eq_ok_iff (hframes : scanner.frames = []) :
    pattern scanner = .ok (node, after) ↔
      ∃ literal : Literal, literal.Admissible ∧
        Scanner.begins Flag.letters.contains after.rest = false ∧
        scanner.Reads literal.text after ∧ node = literal.tree.place scanner.position := by
  have hholds : ∀ properties : List Property,
      HoldsBody ((Builder.new .pattern scanner.position).extend properties).kind :=
    fun _ => ⟨rfl, rfl⟩
  have haccepts : AlternationReader.Accepts (alternation deepestNesting) 64 :=
    alternation_accepts 64
  rw [pattern]
  constructor
  · intro h
    split at h
    · simp at h
    · next opening pushed hopening =>
      obtain ⟨inside, hopen, rfl, rfl⟩ := (Scanner.open?_iff Scanner.take?_char_iff).mp hopening
      rw [record_bind rfl, bind_eq_ok_iff] at h
      obtain ⟨⟨filled, pushed⟩, hreader, h⟩ := h
      obtain ⟨first, others, hadmissible, hpushed, -, rfl⟩ :=
        (haccepts (hholds _) (inside_of_opening hframes hopen)).mp hreader
      obtain ⟨behind, rfl, hbody⟩ := Scanner.reads_push.mp hpushed
      dsimp only at h
      rw [bind_eq_ok_iff] at h
      obtain ⟨⟨closing, outside⟩, hclosing, h⟩ := h
      obtain ⟨hclose, rfl⟩ := Scanner.close?_push_iff.mp (expectClosing_eq_ok_iff.mp hclosing)
      dsimp only at h
      rw [record_bind (hasRoom_patternTail .null rfl rfl).1, bind_eq_ok_iff] at h
      obtain ⟨⟨flagsNode, last⟩, hflags, h⟩ := h
      obtain ⟨letters, hknown, hdistinct, hstop, hletters, rfl⟩ := flags_eq_ok_iff.mp hflags
      dsimp only at h
      rw [record_bind (hasRoom_patternTail _ rfl rfl).2] at h
      have hcomplete := complete_literalTree ⟨first, others, letters, hknown, hdistinct⟩ hopen
        hbody hclose hletters
      obtain ⟨rfl, rfl⟩ := Prod.mk.inj ((pure_eq_ok_iff.mp h).trans hcomplete)
      refine ⟨⟨first, others, letters, hknown, hdistinct⟩, hadmissible, hstop, ?_, rfl⟩
      have hreads := ((hopen.trans hbody).trans hclose).trans hletters
      simpa [Literal.text] using hreads
  · rintro ⟨literal, hadmissible, hstop, hreads, rfl⟩
    obtain ⟨inside, behind, outside, hopen, hbody, hclose, hletters⟩ := reads_literal hreads
    have hcloses : Closes behind.rest := by
      rw [hclose.rest]
      simp [Closes]
    rw [(Scanner.open?_iff Scanner.take?_char_iff).mpr ⟨inside, hopen, rfl, rfl⟩]
    dsimp only
    rw [record_bind rfl, (haccepts (hholds _) (inside_of_opening hframes hopen)).mpr
      ⟨literal.first, literal.others, hadmissible, Scanner.reads_push.mpr ⟨behind, rfl, hbody⟩,
        hcloses, rfl⟩, ok_bind]
    dsimp only
    rw [expectClosing_eq_ok_iff.mpr (Scanner.close?_push_iff.mpr ⟨hclose, rfl⟩), ok_bind]
    dsimp only
    rw [record_bind (hasRoom_patternTail .null rfl rfl).1,
      flags_eq_ok_iff.mpr ⟨literal.flags, literal.known, literal.distinct, hstop, hletters, rfl⟩,
      ok_bind]
    dsimp only
    rw [record_bind (hasRoom_patternTail _ rfl rfl).2]
    have hcomplete := complete_literalTree literal hopen hbody hclose hletters
    exact pure_eq_ok_iff.mpr hcomplete.symm

/-- A whole text is read just if nothing is left of it. -/
theorem whole_eq_ok_iff {production : Scanner → Attempt (Node × Scanner)} {text : List Char} :
    whole production text = .ok node ↔
      ∃ last, production (.new text) = .ok (node, last) ∧ last.rest = [] := by
  rw [whole, bind_eq_ok_iff]
  constructor
  · rintro ⟨⟨tree, last⟩, hproduction, h⟩
    dsimp only at h
    split at h
    · next hend =>
      obtain rfl := pure_eq_ok_iff.mp h
      exact ⟨last, hproduction, List.isEmpty_iff.mp hend⟩
    · simp at h
  · rintro ⟨last, hproduction, hend⟩
    refine ⟨_, hproduction, ?_⟩
    dsimp only
    rw [if_pos (by rw [Scanner.atEnd, hend]; rfl)]
    rfl

end Production

open Grammar

/-- The trees of pattern literals are the trees of the admissible derivations, laid out from the
beginning. -/
theorem parse_eq_ok_iff {text : List Char} {tree : Node} :
    parse text = .ok tree ↔
      ∃ literal : Literal, literal.Admissible ∧ literal.text = text ∧
        tree = literal.tree.place 0 := by
  rw [parse, Production.whole_eq_ok_iff]
  constructor
  · rintro ⟨last, hpattern, hend⟩
    obtain ⟨literal, hadmissible, -, hreads, rfl⟩ := (Production.pattern_eq_ok_iff rfl).mp hpattern
    refine ⟨literal, hadmissible, ?_, rfl⟩
    have hrest := hreads.rest
    rw [hend, List.append_nil] at hrest
    exact hrest.symm
  · rintro ⟨literal, hadmissible, rfl, rfl⟩
    exact ⟨_, (Production.pattern_eq_ok_iff rfl).mpr
      ⟨literal, hadmissible, rfl, Scanner.reads_new literal.text, rfl⟩, rfl⟩

/-- The trees of flags are those of letters without repetition. -/
theorem parseFlags_eq_ok_iff {text : List Char} {tree : Node} :
    parseFlags text = .ok tree ↔
      (∀ c ∈ text, c ∈ Flag.letters) ∧ text.Nodup ∧ tree = (flagsTree text).place 0 := by
  rw [parseFlags, Production.whole_eq_ok_iff]
  constructor
  · rintro ⟨last, hflags, hend⟩
    obtain ⟨letters, hknown, hdistinct, -, hreads, rfl⟩ := Production.flags_eq_ok_iff.mp hflags
    have hrest := hreads.rest
    rw [hend, List.append_nil] at hrest
    obtain rfl : text = letters := hrest
    exact ⟨hknown, hdistinct, rfl⟩
  · rintro ⟨hknown, hdistinct, rfl⟩
    exact ⟨_, Production.flags_eq_ok_iff.mpr
      ⟨text, hknown, hdistinct, rfl, Scanner.reads_new text, rfl⟩, rfl⟩

/-- **A text is accepted just if the grammar derives it.** -/
theorem parse_accepts_iff (text : List Char) :
    (∃ tree, parse text = .ok tree) ↔
      ∃ literal : Literal, literal.Admissible ∧ literal.text = text := by
  constructor
  · rintro ⟨tree, htree⟩
    obtain ⟨literal, hadmissible, htext, -⟩ := parse_eq_ok_iff.mp htree
    exact ⟨literal, hadmissible, htext⟩
  · rintro ⟨literal, hadmissible, htext⟩
    exact ⟨literal.tree.place 0, parse_eq_ok_iff.mpr ⟨literal, hadmissible, htext, rfl⟩⟩

end PatternTree
