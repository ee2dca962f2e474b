import PatternTree.Proofs.Acceptance.CharacterClass
import PatternTree.Proofs.Rejection.Character

/-!
# Rejecting bracket expressions

The units that were read in front of an error may be followed by any others, so it is enough to
complete the last one and to close the bracket.  That a hyphen is looked at before it is known
whether it makes a range does no harm: read as a range or not, it is a unit.

* `classElement_blames` — elements, where the bracket expression does not end;
* `characterClass_blames` — bracket expressions, which stay open only where the text ends.
-/

namespace PatternTree.Production

open Grammar

variable {scanner : Scanner} {report : Report}

/-! ## Listings -/

/-- The texts that may be listed in a bracket expression. -/
def Listing (text : List Char) : Prop :=
  ∃ units : List ClassUnit, units.flatMap ClassUnit.text = text

theorem listing_unit (unit : ClassUnit) : Listing unit.text :=
  ⟨[unit], List.append_nil _⟩

theorem listing_of_characterText {text : List Char} (h : CharacterText .characterClass text) :
    Listing text := by
  obtain ⟨inner, rfl⟩ := h
  exact listing_unit (.character inner)

theorem listing_hyphen : Listing ['-'] :=
  listing_unit (.character (.plain '-' (by decide)))

theorem Listing.append {front back : List Char} (hfront : Listing front) (hback : Listing back) :
    Listing (front ++ back) := by
  obtain ⟨units, rfl⟩ := hfront
  obtain ⟨others, rfl⟩ := hback
  exact ⟨units ++ others, List.flatMap_append⟩

theorem listing_elements (elements : List ClassElement) :
    Listing (classEntries.textOf elements) := by
  have helement : ∀ element : ClassElement, Listing element.text := by
    intro element
    cases element with
    | unit inner => exact listing_unit inner
    | range lower upper =>
        have hlower := listing_of_characterText ⟨lower, rfl⟩
        have hupper := listing_of_characterText ⟨upper, rfl⟩
        exact hlower.append (listing_hyphen.append hupper)
  induction elements with
  | nil => exact ⟨[], rfl⟩
  | cons element elements ih => exact (helement element).append ih

/-! ## Elements -/

/-- A unit, where the text does not end. -/
theorem classAtom_blames (hregion : scanner.region = .characterClass) (hne : scanner.rest ≠ []) :
    Blames scanner (Diagnosed none Listing) (classAtom scanner) := by
  unfold classAtom
  split
  · next hset => exact escapedSet_blames hset
  · split
    · next hgap => exact escapedKeyword_blames hgap
    · refine (character_blames hregion (by decide) hne).mono fun front back kind _ hreport => ?_
      exact hreport.mono fun text htext => listing_of_characterText htext

/-- What makes a range of a character that has been read. -/
theorem classRange_blames {lower : Node} (hregion : scanner.region = .characterClass)
    (hrange : seesRange scanner = true) :
    Blames scanner (Diagnosed none Listing) (classRange lower scanner) := by
  obtain ⟨rest, hrest, hne⟩ : ∃ rest, scanner.rest = '-' :: rest ∧ rest ≠ [] := by
    unfold seesRange at hrange
    split at hrange
    · next c rest heq => exact ⟨_, heq, List.cons_ne_nil _ _⟩
    · next c rest _ heq => exact ⟨_, heq, List.cons_ne_nil _ _⟩
    · exact nomatch hrange
  have hsees : scanner.sees (.char '-') = true := by
    rw [Scanner.sees_single rfl, hrest]
    rfl
  unfold classRange
  refine blames_record.bind fun begun _ => ?_
  refine (blames_expect hsees).bind fun taken hexpect => ?_
  obtain ⟨hyphen, behind⟩ := taken
  obtain ⟨hhyphen, -⟩ := Scanner.take?_char_iff.mp (expect_eq_ok_iff.mp hexpect)
  have hbehind : behind.rest ≠ [] := by
    have hsame : behind.rest = rest := (List.cons.inj (hhyphen.rest.symm.trans hrest)).2
    rwa [hsame]
  refine blames_record.bind fun joined _ => Blames.behind hhyphen ?_
  have hupper := character_blames (hhyphen.region.trans hregion) (by decide) hbehind
  refine Blames.bind (hupper.mono fun front back kind _ hreport => ?_) fun taken _ => ?_
  · exact hreport.append fun rest htext =>
      listing_hyphen.append (listing_of_characterText htext)
  · exact blames_record.bind fun _ _ => blames_pure _

/-- An element, where a bracket expression does not end. -/
theorem classElement_blames (hregion : scanner.region = .characterClass)
    (hbracket : Scanner.begins (reserved .characterClass).contains scanner.rest = false)
    (hne : scanner.rest ≠ []) :
    Blames scanner (Diagnosed none Listing) (classElement scanner) := by
  unfold classElement
  refine (classAtom_blames hregion hne).bind fun taken hatom => ?_
  obtain ⟨node, behind⟩ := taken
  obtain ⟨unit, hreads, rfl⟩ := (classAtom_eq_ok_iff hregion hbracket).mp hatom
  dsimp only
  split
  · next hrange =>
    have hupper : Blames behind (Diagnosed none Listing)
        (classRange (unit.tree.place scanner.position) behind) :=
      classRange_blames (hreads.region.trans hregion) hrange.2
    refine Blames.behind hreads (hupper.mono fun front back kind _ hreport => ?_)
    exact hreport.append fun rest htext => (listing_unit unit).append htext
  · exact blames_pure _

/-- The next element, inside the brackets. -/
theorem nextClassElement_blames {draft : Builder} {outer : List Frame}
    (hframes : scanner.frames = .delimiter ']' (some .characterClass) :: outer) :
    Blames scanner (Diagnosed none Listing) (nextClassElement draft scanner) := by
  have hregion : scanner.region = .characterClass := by
    rw [Scanner.region, hframes]
    rfl
  unfold nextClassElement
  split
  · exact blames_ok none
  · next hmore =>
    have hne : scanner.rest ≠ [] := by
      intro hnil
      rw [classEnds_iff, hnil] at hmore
      simp at hmore
    refine (classElement_blames hregion (begins_of_not_classEnds hmore) hne).bind fun taken _ => ?_
    exact blames_record.bind fun _ _ => blames_pure _

/-- Elements, one after the other, inside the brackets. -/
theorem classElements_blames {draft : Builder} {outer : List Frame}
    (hkind : draft.kind = .characterClass)
    (hframes : scanner.frames = .delimiter ']' (some .characterClass) :: outer) :
    Blames scanner (Diagnosed none Listing) (collect nextClassElement draft scanner) := by
  refine (collect_blames (nextClassElement_reads outer)
    (fun _ hinside => nextClassElement_blames hinside) hkind hframes).mono
    fun front back kind _ hreport => ?_
  obtain ⟨elements, last, rfl, -, hlast⟩ := hreport
  exact hlast.append fun rest hlisting => (listing_elements elements).append hlisting

/-! ## Bracket expressions -/

/-- The texts of bracket expressions. -/
def BracketText (text : List Char) : Prop :=
  ∃ negated units, classText negated units = text

/-- A listing between brackets is a bracket expression, whether it is negated or not. -/
theorem bracketText_listing (negated : Bool) {text : List Char} (h : Listing text) :
    BracketText ('[' :: caretText negated ++ text ++ [']']) := by
  obtain ⟨units, rfl⟩ := h
  exact ⟨negated, units, rfl⟩

/-- A bracket expression that has been seen. -/
theorem characterClass_blames (hsees : scanner.sees (.char '[') = true) :
    Blames scanner (Diagnosed none BracketText) (characterClass scanner) := by
  unfold characterClass
  split
  · next hnone => exact absurd hnone (open?_ne_none hsees)
  · next opening pushed hopening =>
    obtain ⟨inside, hopen, rfl, -⟩ := (Scanner.open?_iff Scanner.take?_char_iff).mp hopening
    refine Blames.behind hopen (Blames.of_push (.delimiter ']' (some .characterClass)) ?_)
    refine blames_record.bind fun opened hopened => ?_
    obtain ⟨-, rfl⟩ := record_eq_ok_iff.mp hopened
    obtain ⟨mark, listed, hnegation⟩ : ∃ mark listed,
        negation (inside.push (.delimiter ']' (some .characterClass))) = (mark, listed) :=
      ⟨_, _, rfl⟩
    obtain ⟨negated, hcaret, -⟩ := negation_eq_iff.mp hnegation
    rw [hnegation]
    dsimp only
    refine blames_note.bind fun noted hnoted => blames_record.bind fun marked hmarked => ?_
    obtain ⟨-, rfl⟩ := note_eq_ok_iff.mp hnoted
    obtain ⟨-, rfl⟩ := record_eq_ok_iff.mp hmarked
    refine Blames.behind hcaret (Blames.bind ?_ fun taken hcollect => ?_)
    · refine (classElements_blames rfl hcaret.frames).mono fun front back kind _ hreport => ?_
      have hcompleted :
          Diagnosed none BracketText ('[' :: caretText negated ++ front) back kind :=
        hreport.within _ [']'] (fun _ hleaf => hleaf.leaf) fun rest hlisting =>
          bracketText_listing negated hlisting
      exact hcompleted
    · obtain ⟨filled, behind⟩ := taken
      obtain ⟨elements, helements, hchain, -⟩ :=
        (collect_eq_ok_iff (nextClassElement_reads inside.frames) rfl hcaret.frames).mp hcollect
      obtain ⟨listed, rfl, -⟩ := Scanner.reads_push.mp hcaret
      obtain ⟨behind, rfl, -⟩ := Scanner.reads_push.mp helements
      refine Blames.behind helements ?_
      refine (blames_expectClosing fun hmissing => ?_).bind fun taken _ => ?_
      · have hend : behind.rest = [] := by
          have hstops := hchain.stops
          rw [Scanner.push_rest] at hstops
          cases hrest : behind.rest with
          | nil => rfl
          | cons c rest =>
              rw [hrest] at hstops hmissing
              obtain rfl : c = ']' := hstops c rfl
              exact nomatch hmissing
        refine ⟨.inl ⟨rfl, hend⟩, .inr ⟨[']'], completes_of_ne (by decide), ?_⟩⟩
        have hbracket := bracketText_listing negated (listing_elements elements)
        simpa using hbracket
      · exact blames_record.bind fun _ _ => blames_pure _

end PatternTree.Production
