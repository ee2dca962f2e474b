import PatternTree.Proofs.Calls.Visits

/-!
# The frames of a run

Every call finds the frames that the productions above it have opened for their calls
(`Visits.frames_eq`).  Which of them are open at once is decided by which productions call which: no
group, bracket expression or pair of braces begins inside brackets or braces, and nothing but digits
is called for inside the code of an escape (`Rule.mem_zone`).  So the frames are in a fixed order,
from the literal over groups to brackets or braces and the region of an escape
(`Rule.filterMap_opens`).

* `parse_frames` — the frames and the number of open groups, at every production that is called.
-/

namespace PatternTree

open Production Script

/-! ## Which productions are called under which -/

namespace Rule

/-- Each production is called by the next one, and the last ones are the alternatives of a pattern
literal. -/
def IsCalled : Rule → List Rule → Prop
  | rule, [] => rule = alternatives
  | rule, caller :: callers => rule ∈ caller.callees ∧ caller.IsCalled callers

/-- The productions that are called inside bracket expressions. -/
def classZone : List Rule :=
  [repeated .classElements, classElement, classRange, escapedSet, escapedKeyword, character,
    escapeSequence, escapeCode, blockDigits]

/-- The productions that are called inside braces. -/
def braceZone : List Rule :=
  [unsignedInteger, repeated .digits, digit]

/-- The productions that are called inside the code of an escape. -/
def codeZone : List Rule :=
  [blockDigits]

variable {rule caller opener : Rule} {callers zone : List Rule}

/-- What is called under a production belongs to every set of productions that contains its callees
and theirs. -/
theorem mem_zone (hcallees : ∀ callee ∈ opener.callees, callee ∈ zone)
    (hclosed : ∀ member ∈ zone, ∀ callee ∈ member.callees, callee ∈ zone)
    (hcalled : rule.IsCalled callers) (hopener : opener ∈ callers) : rule ∈ zone := by
  induction callers generalizing rule with
  | nil => cases hopener
  | cons caller callers ih =>
      obtain ⟨hlisted, hrest⟩ := hcalled
      rcases List.mem_cons.mp hopener with rfl | hfurther
      · exact hcallees rule hlisted
      · exact hclosed caller (ih hrest hfurther) rule hlisted

theorem mem_classZone (hcalled : rule.IsCalled callers) (h : characterClass ∈ callers) :
    rule ∈ classZone :=
  mem_zone (by decide) (by decide) hcalled h

theorem mem_braceZone (hcalled : rule.IsCalled callers) (h : bracedBounds ∈ callers) :
    rule ∈ braceZone :=
  mem_zone (by decide) (by decide) hcalled h

theorem mem_codeZone (hcalled : rule.IsCalled callers) (h : escapeCode ∈ callers) :
    rule ∈ codeZone :=
  mem_zone (by decide) (by decide) hcalled h

/-- Brackets and braces are not open at once. -/
theorem not_brackets_and_braces (hcalled : rule.IsCalled callers) :
    ¬ (characterClass ∈ callers ∧ bracedBounds ∈ callers) := by
  rintro ⟨hclass, hbraces⟩
  have hneither : ∀ rule ∈ classZone, rule ∉ braceZone := by decide
  exact hneither rule (mem_classZone hcalled hclass) (mem_braceZone hcalled hbraces)

/-! ## The order of frames -/

/-- The frames above those of groups, the innermost first, where a production is called under the
given ones. -/
def innerFrames (rule : Rule) (callers : List Rule) : List Frame :=
  (if rule = escapeCode ∨ escapeCode ∈ callers then [.region .escape] else []) ++
    (if characterClass ∈ callers then [.delimiter ']' (some .characterClass)] else []) ++
    (if bracedBounds ∈ callers then [.delimiter '}' none] else [])

/-- Where no code, brackets or braces are possible, no frames are open above those of groups. -/
theorem innerFrames_eq_nil (hcalled : rule.IsCalled callers)
    (h : rule ≠ escapeCode ∧ rule ∉ classZone ∧ rule ∉ braceZone ∧ rule ∉ codeZone) :
    rule.innerFrames callers = [] := by
  obtain ⟨hcode, hclass, hbrace, hdigits⟩ := h
  have hnoclass : characterClass ∉ callers := hclass ∘ mem_classZone hcalled
  have hnobrace : bracedBounds ∉ callers := hbrace ∘ mem_braceZone hcalled
  have hnocode : escapeCode ∉ callers := hdigits ∘ mem_codeZone hcalled
  simp [innerFrames, hcode, hnoclass, hnobrace, hnocode]

/-- An escape is called for inside brackets or outside of all but groups. -/
theorem innerFrames_escapeSequence (hcalled : escapeSequence.IsCalled callers) :
    escapeSequence.innerFrames callers
      = if characterClass ∈ callers then [.delimiter ']' (some .characterClass)] else [] := by
  have hnocode : escapeCode ∉ callers := fun h => absurd (mem_codeZone hcalled h) (by decide)
  have hnobraces : bracedBounds ∉ callers := fun h => absurd (mem_braceZone hcalled h) (by decide)
  simp [innerFrames, hnocode, hnobraces]

/-- The frame of a group. -/
abbrev groupFrame : Frame := .delimiter ')' none

/-- A production that opens no frame is called under the frames that its callees find. -/
theorem innerFrames_cons_of_plain (hlisted : rule ∈ caller.callees) (hplain : caller.opens = none) :
    rule.innerFrames (caller :: callers) = caller.innerFrames callers := by
  have hcode : rule ≠ escapeCode := by
    rintro rfl
    cases caller with
    | repeated loop => cases loop <;> simp at hlisted
    | _ => simp at hlisted hplain
  have hclass : characterClass ≠ caller := by
    rintro rfl
    simp at hplain
  have hbraces : bracedBounds ≠ caller := by
    rintro rfl
    simp at hplain
  simp only [innerFrames, List.mem_cons, hcode, hclass, hbraces, false_or, eq_comm]

/-- A production that opens a frame opens it above those that it finds. -/
theorem innerFrames_cons (hlisted : rule ∈ caller.callees) (hcalled : caller.IsCalled callers) :
    rule.innerFrames (caller :: callers) ++
        List.replicate ((caller :: callers).count group) groupFrame
      = caller.opens.toList ++
        (caller.innerFrames callers ++ List.replicate (callers.count group) groupFrame) := by
  have hinside : rule.IsCalled (caller :: callers) := ⟨hlisted, hcalled⟩
  cases caller with
  | group =>
      obtain rfl : rule = alternatives := by simpa using hlisted
      rw [innerFrames_eq_nil hinside (by decide), innerFrames_eq_nil hcalled (by decide)]
      simp [List.replicate_succ]
  | characterClass =>
      obtain rfl : rule = repeated .classElements := by simpa using hlisted
      have hnocode : escapeCode ∉ callers := fun h => absurd (mem_codeZone hcalled h) (by decide)
      have hnobraces : bracedBounds ∉ callers :=
        fun h => absurd (mem_braceZone hcalled h) (by decide)
      rw [innerFrames_eq_nil hcalled (by decide)]
      simp [innerFrames, hnocode, hnobraces]
  | bracedBounds =>
      obtain rfl : rule = unsignedInteger := by simpa using hlisted
      have hnocode : escapeCode ∉ callers := fun h => absurd (mem_codeZone hcalled h) (by decide)
      have hnoclass : characterClass ∉ callers :=
        fun h => absurd (mem_classZone hcalled h) (by decide)
      rw [innerFrames_eq_nil hcalled (by decide)]
      simp [innerFrames, hnocode, hnoclass]
  | escapeSequence =>
      obtain rfl : rule = escapeCode := by simpa using hlisted
      have hnocode : escapeCode ∉ callers := fun h => absurd (mem_codeZone hcalled h) (by decide)
      simp [innerFrames, hnocode]
  | repeated loop =>
      rw [innerFrames_cons_of_plain hlisted rfl]
      simp
  | _ =>
      rw [innerFrames_cons_of_plain hlisted rfl]
      simp

/-- Frames are opened in a fixed order. -/
theorem filterMap_opens (hcalled : rule.IsCalled callers) :
    callers.filterMap opens
      = rule.innerFrames callers ++ List.replicate (callers.count group) groupFrame := by
  induction callers generalizing rule with
  | nil =>
      rw [IsCalled] at hcalled
      subst hcalled
      rfl
  | cons caller callers ih =>
      obtain ⟨hlisted, hrest⟩ := hcalled
      rw [innerFrames_cons hlisted hrest, ← ih hrest]
      cases hopens : caller.opens with
      | none => rw [List.filterMap_cons_none hopens]; rfl
      | some frame => rw [List.filterMap_cons_some hopens]; rfl

end Rule

/-! ## Visited productions -/

theorem Scanner.Reaches.frames_eq {scanner after : Scanner} (h : scanner.Reaches after) :
    after.frames = scanner.frames := by
  obtain ⟨_, hreads⟩ := h
  exact hreads.frames

namespace Task

variable {caller callee : Task} {start place : Place}

/-- Flags call nothing. -/
theorem Permits.caller_ne_flags (h : caller.Permits start callee place) : caller.rule ≠ .flags := by
  intro hrule
  have hlisted := h.listed
  rw [hrule] at hlisted
  cases hlisted

/-- A call is made with the frame open that its production opens. -/
theorem Permits.frames_eq (h : caller.Permits start callee place) :
    place.scanner.frames = caller.rule.opens.toList ++ start.scanner.frames := by
  obtain ⟨-, -, -, behind, hbehind, hreached⟩ := h
  have hframes : behind.frames = start.scanner.frames :=
    hreached.elim (·.reaches.frames_eq) (·.1.frames_eq)
  rw [hbehind, Scanner.under_frames, hframes]

/-- Only groups count up, and only up to the limit. -/
theorem Permits.depth_le (h : caller.Permits start callee place)
    (hstart : start.depth ≤ deepestNesting) : place.depth ≤ deepestNesting := by
  have hdepth := h.depth
  have hone : caller.rule.deepens ≤ 1 := by
    cases caller <;> simp
  have hroom := h.room
  omega

end Task

variable {text : List Char} {callers : List Rule} {task : Task} {place : Place}

/-- Apart from flags, whatever is visited is called under the alternatives of the literal. -/
theorem Visits.isCalled (h : Visits (parseScript text) callers task place)
    (hflags : task.rule ≠ .flags) : task.rule.IsCalled callers := by
  induction h with
  | first asked =>
      cases (realizes_parse text).sound.asks asked with
      | alternatives => rfl
      | flags => exact absurd rfl hflags
  | next _ asked ih =>
      have hpermits := Task.permits_of_asks asked
      exact ⟨hpermits.listed, ih hpermits.caller_ne_flags⟩

/-- The frames are those that the productions above have opened, inside that of the literal. -/
theorem Visits.frames_eq (h : Visits (parseScript text) callers task place)
    (hflags : task.rule ≠ .flags) :
    place.scanner.frames = callers.filterMap Rule.opens ++ [literalFrame] := by
  induction h with
  | first asked =>
      cases (realizes_parse text).sound.asks asked with
      | alternatives advances => exact congrArg (literalFrame :: ·) advances.reaches.frames_eq
      | flags => exact absurd rfl hflags
  | @next _ caller _ _ _ _ asked ih =>
      have hpermits := Task.permits_of_asks asked
      rw [hpermits.frames_eq, ih hpermits.caller_ne_flags]
      cases hopens : caller.rule.opens with
      | none => rw [List.filterMap_cons_none hopens]; rfl
      | some frame => rw [List.filterMap_cons_some hopens]; rfl

/-- As many groups are open as productions above have opened one, and no more than allowed. -/
theorem Visits.depth_eq (h : Visits (parseScript text) callers task place) :
    place.depth = callers.count .group ∧ place.depth ≤ deepestNesting := by
  induction h with
  | first asked =>
      cases (realizes_parse text).sound.asks asked with
      | alternatives => exact ⟨rfl, Nat.zero_le _⟩
      | flags => exact ⟨rfl, Nat.zero_le _⟩
  | @next _ caller _ _ _ _ asked ih =>
      have hpermits := Task.permits_of_asks asked
      refine ⟨?_, hpermits.depth_le ih.2⟩
      have hdeepens : caller.rule.deepens = if caller.rule = .group then 1 else 0 := by
        cases caller <;> simp
      rw [hpermits.depth, ih.1, hdeepens, List.count_cons]
      simp only [beq_iff_eq]

/-- Where an escape is called, the innermost region is that of brackets or of the pattern. -/
theorem region_of_frames {depth : Nat} {scanner : Scanner}
    (hcalled : Rule.escapeSequence.IsCalled callers)
    (hframes : scanner.frames = Rule.escapeSequence.innerFrames callers ++
      List.replicate depth Rule.groupFrame ++ [literalFrame]) :
    scanner.region = .pattern ∨ scanner.region = .characterClass := by
  rw [Scanner.region, hframes, Rule.innerFrames_escapeSequence hcalled]
  by_cases hclass : .characterClass ∈ callers
  · rw [if_pos hclass]
    exact .inr rfl
  · rw [if_neg hclass]
    left
    simp [Frame.region?, List.findSome?_replicate]

/-- Under groups alone nothing is awaited but a parenthesis and the slash of the literal. -/
theorem closer_of_frames {depth : Nat} {scanner : Scanner} {c : Char}
    (hframes : scanner.frames = List.replicate depth Rule.groupFrame ++ [literalFrame])
    (hawaits : scanner.awaits c = true) : c = '/' ∨ c = ')' := by
  rw [Scanner.awaits, hframes] at hawaits
  obtain ⟨-, rfl⟩ | rfl : (depth ≠ 0 ∧ ')' = c) ∨ '/' = c := by
    simpa [Frame.closer?] using hawaits
  · exact .inr rfl
  · exact .inl rfl

/-- The frames at a production that is called under the given ones. -/
structure WellFramed (callers : List Rule) (task : Task) (place : Place) : Prop where
  /-- Innermost are the region of an escape, brackets and braces, as far as the production is called
  inside of them; then come groups, and the literal is outermost. -/
  frames : place.scanner.frames = task.rule.innerFrames callers ++
    List.replicate place.depth Rule.groupFrame ++ [literalFrame]
  /-- Brackets and braces are not open at once. -/
  single : ¬ (.characterClass ∈ callers ∧ .bracedBounds ∈ callers)
  /-- Every group above has been counted, so there is something to count down behind it. -/
  depth : place.depth = callers.count .group
  positive : .group ∈ callers → 0 < place.depth
  limit : place.depth ≤ deepestNesting
  /-- What has been opened has been closed again in the end. -/
  exits : ∀ result after, (task.script place).answer Task.perform = .ok (result, after) →
    after.scanner.frames = place.scanner.frames ∧ after.depth = place.depth
  region : task.rule = .escapeSequence →
    place.scanner.region = .pattern ∨ place.scanner.region = .characterClass
  closers : task.rule = .alternative ∨ task.rule = .repeated .elements →
    ∀ c, place.scanner.awaits c = true → c = '/' ∨ c = ')'

/-- In every run on a text, every production but flags finds the frames in their fixed order, with
as many groups open as are counted, and leaves them as they were.  So an escape is read in the
region of the pattern or of a bracket expression, and inside an alternative no closers are awaited
but slashes and parentheses. -/
theorem parse_frames {text : List Char} {callers : List Rule} {task : Task} {place : Place}
    (hvisits : Visits (parseScript text) callers task place) (hflags : task.rule ≠ .flags) :
    WellFramed callers task place := by
  obtain ⟨hdepth, hlimit⟩ := hvisits.depth_eq
  have hcalled := hvisits.isCalled hflags
  have hframes : place.scanner.frames = task.rule.innerFrames callers ++
      List.replicate place.depth Rule.groupFrame ++ [literalFrame] := by
    rw [hvisits.frames_eq hflags, Rule.filterMap_opens hcalled, hdepth]
  refine ⟨hframes, Rule.not_brackets_and_braces hcalled, hdepth, ?_, hlimit, ?_, ?_, ?_⟩
  · intro hgroup
    rw [hdepth]
    exact List.count_pos_iff.mpr hgroup
  · intro result after hanswer
    rw [Task.answer_script] at hanswer
    obtain ⟨hexit, hsame⟩ := Task.exit_of_perform hanswer
    exact ⟨hexit.reaches.frames_eq, hsame⟩
  · intro hrule
    rw [hrule] at hcalled hframes
    exact region_of_frames hcalled hframes
  · intro hrule c hawaits
    have hnone : task.rule.innerFrames callers = [] := by
      refine Rule.innerFrames_eq_nil hcalled ?_
      rcases hrule with hrule | hrule <;> rw [hrule] <;> decide
    rw [hnone] at hframes
    exact closer_of_frames hframes hawaits

/-- The code of an escape inside brackets inside a group. -/
theorem parse_frames_example :
    let text := ['/', '(', '[', '\\', 'x', '4', '1', ']', ')', '/']
    let callers : List Rule := [.escapeSequence, .character, .classElement,
      .repeated .classElements, .characterClass, .atom, .element, .repeated .elements, .alternative,
      .alternatives, .group, .atom, .element, .repeated .elements, .alternative, .alternatives]
    let place : Place := ⟨⟨4, ['x', '4', '1', ']', ')', '/'], [.region .escape,
      .delimiter ']' (some .characterClass), .delimiter ')' none, literalFrame]⟩, 1⟩
    Visits (parseScript text) callers .escapeCode place ∧ Task.escapeCode.rule ≠ .flags ∧
      WellFramed callers .escapeCode place := by
  intro text callers place
  have hvisits : Visits (parseScript text) callers .escapeCode place := by
    let outer : Place := ⟨⟨1, text.drop 1, [literalFrame]⟩, 0⟩
    let group : Place := ⟨⟨2, text.drop 2, [.delimiter ')' none, literalFrame]⟩, 1⟩
    let brackets : Place :=
      ⟨⟨3, text.drop 3, .delimiter ']' (some .characterClass) :: group.scanner.frames⟩, 1⟩
    obtain ⟨draft, h⟩ : ∃ draft, Visits (parseScript text) [] (.alternatives draft) outer :=
      ⟨_, .first .here⟩
    have h : Visits (parseScript text) _ .alternative outer := h.next .here
    have h : Visits (parseScript text) _ (.repeated .elements (.new .alternative 1)) outer :=
      h.next .here
    have h : Visits (parseScript text) _ .element outer := h.next .here
    have h : Visits (parseScript text) _ .atom outer := h.next .here
    have h : Visits (parseScript text) _ (.group .capturingGroup "(") outer := h.next .here
    obtain ⟨draft, h⟩ : ∃ draft, Visits (parseScript text) _ (.alternatives draft) group :=
      ⟨_, h.next .here⟩
    have h : Visits (parseScript text) _ .alternative group := h.next .here
    have h : Visits (parseScript text) _ (.repeated .elements (.new .alternative 2)) group :=
      h.next .here
    have h : Visits (parseScript text) _ .element group := h.next .here
    have h : Visits (parseScript text) _ .atom group := h.next .here
    have h : Visits (parseScript text) _ .characterClass group := h.next .here
    obtain ⟨draft, h⟩ : ∃ draft,
        Visits (parseScript text) _ (.repeated .classElements draft) brackets :=
      ⟨_, h.next .here⟩
    have h : Visits (parseScript text) _ .classElement brackets := h.next .here
    have h : Visits (parseScript text) _ .character brackets := h.next .here
    have h : Visits (parseScript text) _ .escapeSequence brackets := h.next .here
    exact h.next .here
  exact ⟨hvisits, by decide, parse_frames hvisits (by decide)⟩

end PatternTree
