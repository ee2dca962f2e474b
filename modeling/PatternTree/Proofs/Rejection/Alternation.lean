import PatternTree.Proofs.Rejection.Atom

/-!
# Rejecting alternations

An alternation that is rejected is rejected in its last item, behind items and alternatives that
may stand where they do whatever follows.  The item in question is given up or completed, and with
it the alternative and the body.

* `alternative_blames` — alternatives;
* `alternation_faults` — bodies, by induction on the levels.
-/

namespace PatternTree.Production

open Grammar

variable {scanner : Scanner} {inner : Option AlternationReader} {levels : Nat}

/-! ## Alternatives -/

/-- The texts of alternatives. -/
def AlternativeText (levels : Nat) (text : List Char) : Prop :=
  ∃ items, AdmissibleAlternative levels items ∧ alternativeText items = text

/-- Items that lead up to a text make an alternative with what takes its place. -/
theorem alternativeText_of_leads {items : List Item} {ahead text : List Char}
    (hleads : (itemEntries levels).Leads items ahead) (h : Continues levels ahead text) :
    AlternativeText levels ((itemEntries levels).textOf items ++ text) := by
  induction items with
  | nil =>
      rcases h.item with rfl | ⟨item, hadmissible, rfl⟩
      · exact ⟨[], ⟨trivial, fun item hitem => nomatch hitem⟩, by rw [alternativeText]; rfl⟩
      · refine ⟨[item], admissible_singleton hadmissible, ?_⟩
        rw [alternativeText_eq]
        exact List.append_nil _
  | cons item items ih =>
      obtain ⟨⟨hatom, hjoins⟩, hrest⟩ := hleads
      obtain ⟨others, ⟨hseamless, hothers⟩, htext⟩ := ih hrest
      refine ⟨item :: others, ⟨⟨?_, hseamless⟩, List.forall_mem_cons.mpr ⟨hatom, hothers⟩⟩, ?_⟩
      · rw [htext]
        exact h.joins item _ hjoins
      · rw [alternativeText_eq, List.flatMap_cons, ← alternativeText_eq, htext]
        exact (List.append_assoc ..).symm

theorem nextElement_blames {draft : Builder} (hunderstands : Understands inner levels)
    (hinside : Inside scanner.frames) :
    Blames scanner (ItemReport levels) (nextElement inner draft scanner) := by
  unfold nextElement
  split
  · exact blames_ok none
  · next hmore =>
    rw [hinside.alternativeEnds_iff] at hmore
    refine (element_blames hunderstands hinside hmore).bind fun taken _ => ?_
    exact blames_record.bind fun _ _ => blames_pure _

/-- An alternative is rejected at a place where it can be completed. -/
theorem alternative_blames (hunderstands : Understands inner levels)
    (hinside : Inside scanner.frames) :
    Blames scanner (Diagnosed (some levels) (AlternativeText levels))
      (alternative inner scanner) := by
  have hreads := nextElement_reads hunderstands.agrees hinside
  have hitems : Blames scanner ((itemEntries levels).Interrupted (ItemReport levels))
      (collect (nextElement inner) (.new .alternative scanner.position) scanner) := by
    refine collect_blames hreads (fun _ hframes => ?_) rfl rfl
    exact nextElement_blames hunderstands (hframes ▸ hinside)
  unfold alternative
  refine Blames.bind (hitems.mono fun front back kind _ hreport => ?_) fun taken _ => blames_pure _
  obtain ⟨items, last, rfl, hleads, hlast⟩ := hreport
  exact Diagnosed.append hlast fun rest hcontinues => alternativeText_of_leads hleads hcontinues

/-! ## Bodies -/

/-- The texts of alternatives behind a bar. -/
def OtherText (levels : Nat) (text : List Char) : Prop :=
  ∃ items, AdmissibleAlternative levels items ∧ '|' :: alternativeText items = text

theorem nextAlternative_blames {draft : Builder} (hunderstands : Understands inner levels)
    (hinside : Inside scanner.frames) :
    Blames scanner (Diagnosed (some levels) (OtherText levels))
      (nextAlternative inner draft scanner) := by
  unfold nextAlternative
  split
  · exact blames_ok none
  · next bar behind htake =>
    obtain ⟨hbar, -⟩ := Scanner.take?_char_iff.mp htake
    have hitems := alternative_blames hunderstands (hinside.of_reads hbar)
    refine blames_record.bind fun separated _ => Blames.behind hbar ?_
    refine Blames.bind (hitems.mono fun front back kind _ hreport => ?_) fun taken _ => ?_
    · refine hreport.append fun rest hitems => ?_
      obtain ⟨items, hadmissible, htext⟩ := hitems
      exact ⟨items, hadmissible, congrArg ('|' :: ·) htext⟩
    · exact blames_record.bind fun _ _ => blames_pure _

/-- Alternatives that lead up to a further one make a body with it. -/
theorem bodyText_of_leads {first : List Item} {others : List (List Item)} {ahead text : List Char}
    (hfirst : AdmissibleAlternative levels first)
    (hleads : (otherEntries levels).Leads others ahead) (h : OtherText levels text) :
    BodyText levels (alternativeText first ++ ((otherEntries levels).textOf others ++ text)) := by
  have hothers : ∀ items ∈ others, AdmissibleAlternative levels items := by
    induction others with
    | nil => exact fun items hitems => nomatch hitems
    | cons items others ih => exact List.forall_mem_cons.mpr ⟨hleads.1.1, ih hleads.2⟩
  obtain ⟨last, hlast, rfl⟩ := h
  refine ⟨first, others ++ [last], ?_, ?_⟩
  · refine List.forall_mem_cons.mpr ⟨hfirst, fun items hitems => ?_⟩
    rcases List.mem_append.mp hitems with hmem | hmem
    · exact hothers items hmem
    · rwa [List.mem_singleton.mp hmem]
  · rw [othersText_eq, List.flatMap_append, ← othersText_eq, textOf_otherEntries]
    simp

/-- How bodies are rejected follows from how the groups in them are. -/
theorem alternatives_faults (hunderstands : Understands inner levels) :
    (alternatives inner).Faults levels := by
  intro draft scanner hholds hinside
  unfold alternatives
  refine Blames.bind ?_ fun taken halternative => ?_
  · refine (alternative_blames hunderstands hinside).mono fun front back kind _ hreport => ?_
    refine hreport.mono fun text htext => ?_
    obtain ⟨items, hadmissible, rfl⟩ := htext
    refine ⟨items, [], List.forall_mem_cons.mpr ⟨hadmissible, fun _ hitems => nomatch hitems⟩, ?_⟩
    rw [othersText, List.append_nil]
  · obtain ⟨node, behind⟩ := taken
    obtain ⟨first, hadmissible, hreads, -, rfl⟩ :=
      (alternative_eq_ok_iff hunderstands.agrees hinside).mp halternative
    have hbehind := hinside.of_reads hreads
    have hothers : ∀ {begun : Builder}, begun.kind = draft.kind →
        Blames behind ((otherEntries levels).Interrupted
          (Diagnosed (some levels) (OtherText levels)))
          (collect (nextAlternative inner) begun behind) := by
      intro begun hkind
      refine collect_blames (nextAlternative_reads hunderstands.agrees hbehind hholds)
        (fun _ hframes => ?_) hkind rfl
      exact nextAlternative_blames hunderstands (hframes ▸ hbehind)
    refine blames_record.bind fun begun hbegun => ?_
    obtain ⟨-, rfl⟩ := record_eq_ok_iff.mp hbegun
    refine Blames.behind hreads ((hothers (Builder.extend_kind draft _)).mono
      fun front back kind _ hreport => ?_)
    obtain ⟨others, last, rfl, hleads, hlast⟩ := hreport
    rw [← List.append_assoc]
    refine hlast.append fun rest hother => ?_
    rw [List.append_assoc]
    exact bodyText_of_leads hadmissible hleads hother

/-- A body is rejected at a place where it can be completed, except for the two errors that are
found too late. -/
theorem alternation_faults (levels : Nat) : (alternation levels).Faults levels := by
  induction levels with
  | zero => exact @alternatives_faults none 0 rfl
  | succ levels ih =>
      exact @alternatives_faults (some (alternation levels)) (levels + 1)
        ⟨levels, rfl, alternation_accepts levels, ih⟩

end PatternTree.Production
