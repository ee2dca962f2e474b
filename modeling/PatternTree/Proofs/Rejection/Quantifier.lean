import PatternTree.Proofs.Acceptance.Quantifier
import PatternTree.Proofs.Rejection.Basic

/-!
# Rejecting quantifiers

A sigil is never rejected once it has been seen, and bounds in braces are rejected at a place where
they can still be completed, with one exception: that the upper bound is below the lower one is
found only when all its digits have been read.

* `unsignedInteger_blames` — numbers, which are rejected in front of their first digit;
* `bracedBounds_blames` — bounds in braces;
* `quantifier_blames` — quantifiers, of which something has been read when they are rejected.
-/

namespace PatternTree.Production

open Grammar

variable {scanner : Scanner} {report : Report}

/-- The texts of quantifiers. -/
def QuantifierText (text : List Char) : Prop :=
  ∃ quantifier : Quantifier, quantifier.text = text

/-- What is rejected while a quantifier is read: something of it has been read, and that can be
completed. -/
def QuantifierReport : Report := fun front back kind =>
  front ≠ [] ∧ Diagnosed none QuantifierText front back kind

/-! ## Numbers -/

theorem digit_blames : Blames scanner report (digit scanner) := by
  unfold digit
  split
  · exact blames_ok none
  · exact blames_record.bind fun _ _ => blames_pure _

theorem nextDigit_blames {draft : Builder} : Blames scanner report (nextDigit draft scanner) := by
  unfold nextDigit
  refine digit_blames.bind fun result _ => ?_
  cases result with
  | none => exact blames_pure none
  | some taken => exact blames_record.bind fun _ _ => blames_pure _

/-- A number that is too large is rejected in front of its first digit. -/
theorem unsignedInteger_blames (h : report [] scanner.rest .malformedQuantifier) :
    Blames scanner report (unsignedInteger scanner) := by
  have hdigits : Blames scanner report
      (collect nextDigit (.new .unsignedInteger scanner.position) scanner) := by
    refine (collect_blames (nextDigit_reads scanner.frames)
      (fun _ _ => @nextDigit_blames _ (fun _ _ _ => False) _) rfl rfl).mono
      fun front back kind _ hreport => ?_
    obtain ⟨digits, last, -, -, never⟩ := hreport
    exact never.elim
  unfold unsignedInteger
  refine hdigits.bind fun taken _ => ?_
  dsimp only
  split
  · exact blames_pure none
  · split
    · exact blames_pure _
    · exact blames_here h

/-! ## Bounds in braces -/

/-- Anything may stand between the lower bound and the closing brace as long as the upper bound is
not below the lower one. -/
theorem quantifierText_braced (least : Count) (upper : Upper)
    (hordered : (upper.bounds least.value).most.any (· < least.value) = false) :
    QuantifierText ('{' :: (least.digits ++ (upper.text ++ ['}']))) := by
  cases upper with
  | none => exact ⟨.exactly least, rfl⟩
  | unlimited => exact ⟨.atLeast least, rfl⟩
  | most count =>
      have hle : least.value ≤ count.value := by
        simpa [Upper.bounds] using hordered
      exact ⟨.between least count hle, rfl⟩

/-- Behind the lower bound, a comma and the digits of the upper bound have been read, if
anything. -/
theorem boundsBegun_upper (least : Count) (upper : Upper) :
    BoundsBegun (least.digits ++ upper.text) := by
  refine ⟨least.digits, least.decimal, ?_⟩
  cases upper with
  | none => exact .inl (List.append_nil _)
  | unlimited => exact .inr ⟨least.nonempty, [], rfl, rfl⟩
  | most count => exact .inr ⟨least.nonempty, count.digits, count.decimal, rfl⟩

/-- Whatever is wrong with bounds in braces is found behind the opening brace and what has been
read of the bounds. -/
theorem apt_bounds {bounds : List Char} (h : BoundsBegun bounds) (back : List Char) :
    Apt ('{' :: bounds) back .malformedQuantifier :=
  .inr (.inr ⟨[], bounds, rfl, h⟩)

/-- What stands between the lower bound and the closing brace. -/
theorem upperBound_blames {least : Count} {draft : Builder} :
    Blames scanner (fun front => Diagnosed none QuantifierText ('{' :: (least.digits ++ front)))
      (upperBound least.value draft scanner) := by
  unfold upperBound
  split
  · exact blames_record.bind fun _ _ => blames_record.bind fun _ _ => blames_pure _
  · next comma behind htake =>
    obtain ⟨hcomma, -⟩ := Scanner.take?_char_iff.mp htake
    refine blames_record.bind fun separated _ => Blames.behind hcomma ?_
    refine (unsignedInteger_blames ?_).bind fun result _ => ?_
    · refine ⟨apt_bounds (boundsBegun_upper least .unlimited) _,
        .inr ⟨['}'], completes_of_ne (by decide), ?_⟩⟩
      have hcompleted := quantifierText_braced least .unlimited rfl
      simpa [Upper.text] using hcompleted
    · cases result with
      | none => exact blames_record.bind fun _ _ => blames_pure _
      | some taken => exact blames_record.bind fun _ _ => blames_pure _

/-- Only an upper bound that is below the lower one is found too late. -/
theorem tooLate_of_disordered {least : Count} {upper : Upper} {back : List Char}
    (hstops : upper.Stops back)
    (hdisordered : (upper.bounds least.value).most.any (· < least.value) = true) :
    TooLate ('{' :: (least.digits ++ upper.text)) back .malformedQuantifier := by
  cases upper with
  | none => simp [Upper.bounds] at hdisordered
  | unlimited => simp [Upper.bounds] at hdisordered
  | most count =>
      have hlt : count.value < least.value := by
        simpa [Upper.bounds] using hdisordered
      exact ⟨[], least, count, rfl, hstops, hlt⟩

/-- What may stand behind the opening brace. -/
theorem diagnosed_brace (back : List Char) :
    Diagnosed none QuantifierText ['{'] back .malformedQuantifier := by
  have hzero : QuantifierText ['{', '0', '}'] :=
    quantifierText_braced ⟨['0'], by decide, by decide, by decide⟩ .none (by decide)
  have hnone : BoundsBegun [] := ⟨[], rfl, .inl rfl⟩
  exact ⟨apt_bounds hnone back, .inr ⟨['0', '}'], completes_of_ne (by decide), hzero⟩⟩

/-- Bounds whose opening brace has been seen are rejected only behind it. -/
theorem bracedBounds_blames {draft : Builder} (hkind : draft.kind = .quantifier)
    (hslots : draft.slots = [.element]) (hsees : scanner.sees (.char '{') = true) :
    Blames scanner QuantifierReport (bracedBounds draft scanner) := by
  unfold bracedBounds
  split
  · next hnone => exact absurd hnone (open?_ne_none hsees)
  · next opening pushed hopening =>
    obtain ⟨inside, hopen, rfl, -⟩ := (Scanner.open?_iff Scanner.take?_char_iff).mp hopening
    refine Blames.behind hopen (Blames.of_push (.delimiter '}' none) (Blames.mono ?_
      fun front back kind _ hreport => ⟨List.cons_ne_nil '{' front, hreport⟩))
    refine blames_record.bind fun opened hopened => ?_
    obtain ⟨-, rfl⟩ := record_eq_ok_iff.mp hopened
    refine (unsignedInteger_blames (diagnosed_brace _)).bind fun result hnumber => ?_
    cases result with
    | none => exact blames_here (diagnosed_brace _)
    | some taken =>
        obtain ⟨⟨number, value⟩, behind⟩ := taken
        obtain ⟨least, hleast, -, rfl, rfl⟩ := unsignedInteger_eq_some_iff.mp hnumber
        refine Blames.behind hleast (blames_record.bind fun begun hbegun => ?_)
        obtain ⟨-, rfl⟩ := record_eq_ok_iff.mp hbegun
        refine upperBound_blames.bind fun taken hbounds => ?_
        obtain ⟨bounds, bounded, last⟩ := taken
        obtain ⟨upper, hupper, hstops, rfl, -⟩ :=
          (upperBound_eq_ok_iff (by simp [hkind]) (by simp [hslots])).mp hbounds
        dsimp only
        split
        · next hdisordered =>
          exact blames_reject hupper
            ⟨apt_bounds (boundsBegun_upper least upper) _,
              .inl (tooLate_of_disordered hstops hdisordered)⟩
        · next hordered =>
          split
          · refine blames_reject hupper
              ⟨apt_bounds (boundsBegun_upper least upper) _, .inr ⟨['}'], ?_, ?_⟩⟩
            · exact completes_of_ne (by decide)
            · have hcompleted := quantifierText_braced least upper (Bool.eq_false_iff.mpr hordered)
              simpa using hcompleted
          · exact blames_record.bind fun _ _ => blames_pure _

/-! ## Quantifiers -/

/-- A quantifier that has been seen is rejected only behind its first character. -/
theorem quantifier_blames {element : Node}
    (hsees : scanner.sees (.oneOf quantifierStarts) = true) :
    Blames scanner QuantifierReport (quantifier element scanner) := by
  unfold quantifier
  refine blames_record.bind fun begun hbegun => ?_
  obtain ⟨-, rfl⟩ := record_eq_ok_iff.mp hbegun
  refine Blames.bind ?_ fun taken _ => blames_noteAll.bind fun _ _ => blames_pure _
  unfold quantifierBounds
  split
  · exact blames_record.bind fun _ _ => blames_pure _
  · next htake =>
    refine bracedBounds_blames rfl rfl ?_
    have hsigils : Scanner.begins quantifierSigils.contains scanner.rest = false :=
      (Scanner.take?_single_eq_none_iff rfl).mp htake
    rw [Scanner.sees_single rfl] at hsees ⊢
    cases hrest : scanner.rest with
    | nil => simp [hrest] at hsees
    | cons c rest =>
        rw [hrest, Scanner.begins_cons] at hsees hsigils
        have hmem : c ∈ quantifierSigils ++ ['{'] := List.contains_iff_mem.mp hsees
        have hnot : c ∉ quantifierSigils := by
          rwa [← List.contains_iff_mem, Bool.not_eq_true]
        have hbrace : c ∈ ['{'] := (List.mem_append.mp hmem).resolve_left hnot
        simpa using hbrace

end PatternTree.Production
