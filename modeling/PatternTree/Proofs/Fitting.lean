import PatternTree.Parse
import PatternTree.Proofs.Drafting

/-!
# Parts always fit

A draft refuses children and attributes that the schema does not know or that have been recorded
before.  No production ever meets with a refusal, whatever text it is given and wherever it
stops.

* `Builder.Within` — what is known of a draft: its kind and the slots that may be filled;
* `Yields` — what an attempt yields, provided that the text is not rejected; a misfit never;
* `yields_record`, `yields_note`, `yields_collect` — what recording and repeating yield;
* `parse_fits`, `parseFlags_fits` — reading yields a node.
-/

namespace PatternTree

/-! ## Drafts -/

/-- The draft is of the given kind and has filled no other slots than the given ones. -/
structure Builder.Within (draft : Builder) (kind : NodeKind) (filled : List Slot) : Prop where
  kind : draft.kind = kind
  slots : ∀ slot ∈ draft.slots, slot ∈ filled

/-- More slots may be filled than are. -/
theorem Builder.Within.mono {draft : Builder} {kind : NodeKind} {filled more : List Slot}
    (h : draft.Within kind filled) (hsub : filled ⊆ more) : draft.Within kind more :=
  ⟨h.kind, fun slot hslot => hsub (h.slots slot hslot)⟩

theorem Builder.within_new (kind : NodeKind) (start : Nat) :
    (Builder.new kind start).Within kind [] :=
  ⟨rfl, fun _ hslot => nomatch hslot⟩

/-- What has room beside more slots has room beside fewer of them. -/
theorem NodeKind.hasRoom_anti {kind : NodeKind} {filled more : List Slot} {slot : Slot}
    (h : kind.hasRoom more slot = true) (hsub : filled ⊆ more) :
    kind.hasRoom filled slot = true := by
  unfold hasRoom at h ⊢
  split at h
  · exact h
  · rfl
  · have hfree : slot ∉ more := by simpa using h
    have hfree' : slot ∉ filled := fun hslot => hfree (hsub hslot)
    simpa using hfree'

namespace Production

variable {α β : Type}

/-! ## What an attempt yields -/

/-- The attempt does not end with a misfit, and what it yields has the given property. -/
def Yields (attempt : Attempt α) (post : α → Prop) : Prop :=
  match attempt with
  | .ok result => post result
  | .error (.rejected _) => True
  | .error (.misfit _) => False

/-- The attempt does not end with a misfit. -/
abbrev Fits (attempt : Attempt α) : Prop :=
  Yields attempt fun _ => True

/-- An attempt fits just if no misfit is its outcome. -/
theorem fits_iff {attempt : Attempt α} :
    Fits attempt ↔ ∀ cause, attempt ≠ .error (.misfit cause) := by
  cases attempt with
  | ok result => simp [Fits, Yields]
  | error failure => cases failure <;> simp [Fits, Yields]

theorem yields_ok {post : α → Prop} {result : α} (h : post result) :
    Yields (.ok result : Attempt α) post := h

theorem yields_reject {post : α → Prop} (position : Nat) (kind : ErrorKind) :
    Yields (reject position kind : Attempt α) post := trivial

theorem Yields.mono {attempt : Attempt α} {pre post : α → Prop} (h : Yields attempt pre)
    (himp : ∀ result, pre result → post result) : Yields attempt post := by
  cases attempt with
  | ok result => exact himp result h
  | error failure => cases failure <;> exact h

/-- An attempt that goes on with what another one yields. -/
theorem Yields.bind {attempt : Attempt α} {next : α → Attempt β} {mid : α → Prop}
    {post : β → Prop} (h : Yields attempt mid) (hnext : ∀ a, mid a → Yields (next a) post) :
    Yields (attempt >>= next) post := by
  cases attempt with
  | ok a => exact hnext a h
  | error failure => cases failure <;> exact h

/-- Recording a child in a slot that has room. -/
theorem yields_record {draft : Builder} {kind : NodeKind} {filled : List Slot} {slot : Slot}
    (child : Child Node) (h : draft.Within kind filled) (room : kind.hasRoom filled slot = true) :
    Yields (record draft slot child) fun next => next.Within kind (slot :: filled) := by
  have hfree : draft.isFree slot = true := by
    rw [Builder.isFree_eq, h.kind]
    exact NodeKind.hasRoom_anti room h.slots
  rw [record_eq_ok_iff.mpr ⟨hfree, rfl⟩]
  refine yields_ok ⟨h.kind, fun other hother => ?_⟩
  rw [Builder.extend_slots, List.mem_append] at hother
  rcases hother with hother | hother
  · exact List.mem_cons_of_mem slot (h.slots other hother)
  · rw [List.mem_singleton.mp hother]
    exact List.mem_cons_self

/-- Recording attributes that the kind of node has. -/
theorem yields_noteAll {draft : Builder} {kind : NodeKind} {filled : List Slot}
    {attributes : List (AttributeName × Attribute)} (h : draft.Within kind filled)
    (known : ∀ entry ∈ attributes, entry.1 ∈ kind.attributeNames) :
    Yields (noteAll draft attributes) fun next => next.Within kind filled := by
  rw [← h.kind] at known
  rw [noteAll_eq_ok_iff.mpr ⟨known, rfl⟩]
  exact yields_ok ⟨h.kind, h.slots⟩

/-- Recording an attribute that the kind of node has. -/
theorem yields_note {draft : Builder} {kind : NodeKind} {filled : List Slot}
    {name : AttributeName} (value : Attribute) (h : draft.Within kind filled)
    (known : name ∈ kind.attributeNames) :
    Yields (note draft name value) fun next => next.Within kind filled := by
  rw [← h.kind] at known
  rw [note_eq_ok_iff.mpr ⟨known, rfl⟩]
  exact yields_ok ⟨h.kind, h.slots⟩

theorem fits_expect (kind : Token.Kind) (terminal : Terminal) (what : String)
    (scanner : Scanner) : Fits (expect kind terminal what scanner) := by
  unfold expect
  split
  · trivial
  · exact yields_reject _ _

theorem fits_expectClosing (closer : Char) (scanner : Scanner) :
    Fits (expectClosing closer scanner) := by
  unfold expectClosing
  split
  · trivial
  · exact yields_reject _ _

/-! ## Repetition -/

/-- A step that records children in a slot that holds many of them. -/
def Step.Keeps (step : Step) (kind : NodeKind) (filled : List Slot) : Prop :=
  ∀ draft scanner, draft.Within kind filled →
    Yields (step draft scanner) fun result =>
      ∀ taken ∈ result, taken.1.Within kind filled

/-- Repeating a step leaves what the step leaves. -/
theorem yields_collect {step : Step} {kind : NodeKind} {filled : List Slot}
    (keeps : step.Keeps kind filled) {draft : Builder} (scanner : Scanner)
    (h : draft.Within kind filled) :
    Yields (collect step draft scanner) fun result => result.1.Within kind filled := by
  have hbounded : ∀ bound draft scanner, draft.Within kind filled →
      Yields (collectUpTo step bound draft scanner) fun result => result.1.Within kind filled := by
    intro bound
    induction bound with
    | zero => exact fun draft scanner h => yields_ok h
    | succ bound ih =>
        intro draft scanner h
        rw [collectUpTo]
        refine (keeps draft scanner h).bind fun result hresult => ?_
        cases result with
        | none => exact yields_ok h
        | some taken => exact ih taken.1 taken.2 (hresult taken rfl)
  exact hbounded _ draft scanner h

/-! ## Escapes and characters -/

/-- What is left of the draft of a code when its digits have been read. -/
abbrev codeSlots : List Slot :=
  [.closeToken, .value, .openToken, .type]

theorem yields_blockDigits (terminal : Terminal) {draft : Builder} (scanner : Scanner)
    (h : draft.Within .escapeCode [.type]) :
    Yields (blockDigits terminal draft scanner) fun result =>
      result.2.1.Within .escapeCode codeSlots := by
  unfold blockDigits
  split
  · exact yields_reject _ _
  · refine (yields_record _ h rfl).bind fun opened hopened => ?_
    refine (yields_record _ hopened rfl).bind fun filled hfilled => ?_
    refine (yields_record _ hfilled rfl).bind fun closed hclosed => ?_
    exact yields_ok hclosed

theorem yields_bracedDigits (opening : Token) {draft : Builder} (scanner : Scanner)
    (h : draft.Within .escapeCode [.type]) :
    Yields (bracedDigits opening draft scanner) fun result =>
      result.2.1.Within .escapeCode codeSlots := by
  unfold bracedDigits
  refine (yields_record _ h rfl).bind fun opened hopened => ?_
  split
  · exact yields_reject _ _
  · split
    · exact yields_reject _ _
    · split
      · exact yields_reject _ _
      · refine (yields_record _ hopened rfl).bind fun filled hfilled => ?_
        refine (yields_record _ hfilled rfl).bind fun closed hclosed => ?_
        exact yields_ok hclosed

theorem yields_codeDigits (letter : Token) {draft : Builder} (scanner : Scanner)
    (h : draft.Within .escapeCode [.type]) :
    Yields (codeDigits letter draft scanner) fun result =>
      result.2.1.Within .escapeCode codeSlots := by
  unfold codeDigits
  split
  · split
    · exact yields_bracedDigits _ _ h
    · exact yields_blockDigits _ _ h
  · exact yields_blockDigits _ _ h

theorem fits_escapeCode (scanner : Scanner) : Fits (escapeCode scanner) := by
  unfold escapeCode
  refine (fits_expect _ _ _ scanner).bind fun letter _ => ?_
  refine (yields_record _ (Builder.within_new .escapeCode _) rfl).bind fun begun hbegun => ?_
  refine (yields_codeDigits _ _ hbegun).bind fun digits hdigits => ?_
  dsimp only
  split
  · exact yields_reject _ _
  · refine (yields_note _ hdigits (by decide)).bind fun noted _ => ?_
    trivial

theorem yields_singleEscape (start : Nat) (c cooked : Char) {draft : Builder}
    (scanner : Scanner) (h : draft.Within .escapeSequence [.escape]) :
    Yields (singleEscape start c cooked draft scanner) fun result =>
      result.2.1.Within .escapeSequence [.code, .escape] := by
  unfold singleEscape
  split
  · exact yields_reject _ _
  · refine (yields_record _ h rfl).bind fun coded hcoded => ?_
    exact yields_ok hcoded

theorem yields_escapeBody (start : Nat) (region : Region) {draft : Builder} (scanner : Scanner)
    (h : draft.Within .escapeSequence [.escape]) :
    Yields (escapeBody start region draft scanner) fun result =>
      result.2.1.Within .escapeSequence [.code, .escape] := by
  unfold escapeBody
  split
  · exact yields_singleEscape _ _ _ _ h
  · split
    · exact yields_reject _ _
    · split
      · exact yields_reject _ _
      · split
        · exact yields_singleEscape _ _ _ _ h
        · split
          · refine (fits_escapeCode scanner).bind fun code _ => ?_
            refine (yields_record _ h rfl).bind fun coded hcoded => ?_
            exact yields_ok hcoded
          · exact yields_reject _ _

theorem fits_escapeSequence (scanner : Scanner) : Fits (escapeSequence scanner) := by
  unfold escapeSequence
  split
  · exact yields_reject _ _
  · refine (yields_record _ (Builder.within_new .escapeSequence _) rfl).bind fun begun hbegun => ?_
    refine (yields_escapeBody _ _ _ hbegun).bind fun body hbody => ?_
    refine (yields_note _ hbody (by decide)).bind fun noted _ => ?_
    trivial

/-- A keyword fits in every kind of node that has slots for its backslash and its letter. -/
theorem fits_escapedKeyword {kind : NodeKind} (letters : List Char) (scanner : Scanner)
    (escapeToken : kind.multiplicity? .escapeToken = some .one)
    (value : kind.multiplicity? .value = some .one) :
    Fits (escapedKeyword kind letters scanner) := by
  have hescape : kind.hasRoom [] .escapeToken = true := by
    rw [NodeKind.hasRoom, escapeToken]
    rfl
  have hvalue : kind.hasRoom [.escapeToken] .value = true := by
    rw [NodeKind.hasRoom, value]
    rfl
  unfold escapedKeyword
  refine (fits_expect _ _ _ scanner).bind fun backslash _ => ?_
  refine (yields_record _ (Builder.within_new kind _) hescape).bind fun begun hbegun => ?_
  refine (fits_expect _ _ _ _).bind fun letter _ => ?_
  dsimp only
  have hfilled : ∀ noted : Builder, noted.Within kind [.escapeToken] →
      Fits (record noted .value (.token letter.1) >>= fun filled =>
        pure (complete filled letter.2)) :=
    fun noted hnoted => (yields_record _ hnoted hvalue).bind fun filled _ => trivial
  split
  · next hknown => exact (yields_note _ hbegun hknown).bind hfilled
  · exact hfilled begun hbegun

/-- A sigil fits in every kind of node that has a slot for it. -/
theorem fits_sigil {kind : NodeKind} (terminal : Terminal) (what : String) (scanner : Scanner)
    (sigilToken : kind.multiplicity? .sigilToken = some .one) :
    Fits (sigil kind terminal what scanner) := by
  have hroom : kind.hasRoom [] .sigilToken = true := by
    rw [NodeKind.hasRoom, sigilToken]
    rfl
  unfold sigil
  refine (fits_expect _ _ _ scanner).bind fun token _ => ?_
  exact (yields_record _ (Builder.within_new kind _) hroom).bind fun filled _ => trivial

theorem fits_escapedSet (scanner : Scanner) : Fits (escapedSet scanner) := by
  unfold escapedSet
  repeat' split
  all_goals exact fits_escapedKeyword _ scanner rfl rfl

theorem fits_character (scanner : Scanner) : Fits (character scanner) := by
  have hnew := Builder.within_new .character scanner.position
  unfold character
  split
  · refine (fits_escapeSequence scanner).bind fun escape _ => ?_
    exact (yields_record _ hnew rfl).bind fun filled _ => trivial
  · split
    · exact (yields_record _ hnew rfl).bind fun filled _ => trivial
    · split <;> exact yields_reject _ _

/-! ## Bracket expressions -/

theorem fits_classRange (lower : Node) (scanner : Scanner) : Fits (classRange lower scanner) := by
  unfold classRange
  refine (yields_record _ (Builder.within_new .characterClassRange _) rfl).bind
    fun begun hbegun => ?_
  refine (fits_expect _ _ _ scanner).bind fun hyphen _ => ?_
  refine (yields_record _ hbegun rfl).bind fun joined hjoined => ?_
  refine (fits_character _).bind fun upper _ => ?_
  exact (yields_record _ hjoined rfl).bind fun filled _ => trivial

theorem fits_classElement (scanner : Scanner) : Fits (classElement scanner) := by
  have hatom : Fits (classAtom scanner) := by
    unfold classAtom
    split
    · exact fits_escapedSet scanner
    · split
      · exact fits_escapedKeyword _ scanner rfl rfl
      · exact fits_character scanner
  unfold classElement
  refine hatom.bind fun atom _ => ?_
  dsimp only
  split
  · exact fits_classRange _ _
  · trivial

/-- What may be filled in the draft of a bracket expression before its closer. -/
abbrev classSlots : List Slot :=
  [.elements, .negateToken, .openToken]

theorem nextClassElement_keeps : nextClassElement.Keeps .characterClass classSlots := by
  intro draft scanner h
  unfold nextClassElement
  split
  · exact yields_ok fun taken htaken => nomatch htaken
  · refine (fits_classElement scanner).bind fun element _ => ?_
    refine (yields_record _ h rfl).bind fun extended hextended => ?_
    refine yields_ok fun taken htaken => ?_
    obtain rfl := Option.some.inj htaken
    exact hextended.mono (by decide)

theorem fits_characterClass (scanner : Scanner) : Fits (characterClass scanner) := by
  unfold characterClass
  split
  · exact yields_reject _ _
  · refine (yields_record _ (Builder.within_new .characterClass _) rfl).bind
      fun opened hopened => ?_
    dsimp only
    refine (yields_note _ hopened (by decide)).bind fun noted hnoted => ?_
    refine (yields_record _ hnoted rfl).bind fun marked hmarked => ?_
    refine (yields_collect nextClassElement_keeps _ (hmarked.mono (by decide))).bind
      fun listed hlisted => ?_
    refine (fits_expectClosing _ _).bind fun closing _ => ?_
    exact (yields_record _ hlisted rfl).bind fun closed _ => trivial

/-! ## Quantifiers -/

theorem fits_digit (scanner : Scanner) : Fits (digit scanner) := by
  unfold digit
  split
  · trivial
  · exact (yields_record _ (Builder.within_new .digit _) rfl).bind fun filled _ => trivial

theorem nextDigit_keeps : nextDigit.Keeps .unsignedInteger [.digits] := by
  intro draft scanner h
  unfold nextDigit
  refine (fits_digit scanner).bind fun taken _ => ?_
  cases taken with
  | none => exact yields_ok fun taken htaken => nomatch htaken
  | some taken =>
      refine (yields_record _ h rfl).bind fun extended hextended => ?_
      refine yields_ok fun taken htaken => ?_
      obtain rfl := Option.some.inj htaken
      exact hextended.mono (by decide)

theorem fits_unsignedInteger (scanner : Scanner) : Fits (unsignedInteger scanner) := by
  have hnew := (Builder.within_new .unsignedInteger scanner.position).mono
    (List.nil_subset [Slot.digits])
  unfold unsignedInteger
  refine (yields_collect nextDigit_keeps scanner hnew).bind fun collected _ => ?_
  dsimp only
  repeat' split
  · trivial
  · trivial
  · exact yields_reject _ _

/-- What may be filled in the draft of a quantifier with bounds in braces before its closer. -/
abbrev boundSlots : List Slot :=
  [.max, .separator, .min, .openToken, .element]

theorem yields_upperBound (least : Nat) {draft : Builder} (scanner : Scanner)
    (h : draft.Within .quantifier [.min, .openToken, .element]) :
    Yields (upperBound least draft scanner) fun result =>
      result.2.1.Within .quantifier boundSlots := by
  unfold upperBound
  split
  · refine (yields_record _ h rfl).bind fun separated hseparated => ?_
    refine (yields_record _ hseparated rfl).bind fun bounded hbounded => ?_
    exact yields_ok hbounded
  · refine (yields_record _ h rfl).bind fun separated hseparated => ?_
    refine (fits_unsignedInteger _).bind fun number _ => ?_
    cases number with
    | none =>
        refine (yields_record _ hseparated rfl).bind fun bounded hbounded => ?_
        exact yields_ok hbounded
    | some number =>
        refine (yields_record _ hseparated rfl).bind fun bounded hbounded => ?_
        exact yields_ok hbounded

theorem yields_bracedBounds {draft : Builder} (scanner : Scanner)
    (h : draft.Within .quantifier [.element]) :
    Yields (bracedBounds draft scanner) fun result =>
      result.2.1.Within .quantifier (.closeToken :: boundSlots) := by
  unfold bracedBounds
  split
  · exact yields_reject _ _
  · refine (yields_record _ h rfl).bind fun opened hopened => ?_
    refine (fits_unsignedInteger _).bind fun number _ => ?_
    cases number with
    | none => exact yields_reject _ _
    | some number =>
        refine (yields_record _ hopened rfl).bind fun begun hbegun => ?_
        refine (yields_upperBound _ _ hbegun).bind fun bounds hbounds => ?_
        dsimp only
        split
        · exact yields_reject _ _
        · split
          · exact yields_reject _ _
          · refine (yields_record _ hbounds rfl).bind fun closed hclosed => ?_
            exact yields_ok hclosed

theorem fits_quantifier (element : Node) (scanner : Scanner) :
    Fits (quantifier element scanner) := by
  unfold quantifier
  refine (yields_record _ (Builder.within_new .quantifier _) rfl).bind fun begun hbegun => ?_
  have hbounds : Yields (quantifierBounds begun scanner) fun result =>
      result.2.1.Within .quantifier (.sigilToken :: .closeToken :: boundSlots) := by
    unfold quantifierBounds
    split
    · refine (yields_record _ hbegun rfl).bind fun filled hfilled => ?_
      exact yields_ok (hfilled.mono (by decide))
    · refine (yields_bracedBounds scanner hbegun).mono fun result hresult => ?_
      exact hresult.mono (List.subset_cons_self _ _)
  refine hbounds.bind fun bounds hbounds => ?_
  refine (yields_noteAll hbounds ?_).bind fun noted _ => trivial
  simp [Bounds.attributes, NodeKind.attributeNames]

/-! ## Alternations -/

/-- What may be filled behind the opener when alternatives have been read. -/
abbrev bodySlots : List Slot :=
  [.alternatives, .separatorTokens, .openToken]

/-- The kinds of node that alternatives are recorded in. -/
def bodyKinds : List NodeKind :=
  [.pattern, .group, .capturingGroup]

/-- Alternatives may be recorded again and again, then a closer. -/
theorem hasRoom_body {kind : NodeKind} (h : kind ∈ bodyKinds) :
    kind.hasRoom [] .openToken = true ∧ kind.hasRoom bodySlots .alternatives = true ∧
      kind.hasRoom bodySlots .separatorTokens = true ∧
      kind.hasRoom bodySlots .closeToken = true := by
  revert kind
  decide

/-- A reader of alternatives records them and the bars between them, and nothing else. -/
def AlternationReader.Keeps (reader : AlternationReader) : Prop :=
  ∀ kind ∈ bodyKinds, ∀ draft scanner, draft.Within kind bodySlots →
    Yields (reader draft scanner) fun result => result.1.Within kind bodySlots

section Levels

variable {inner : Option AlternationReader} (hinner : ∀ reader ∈ inner, reader.Keeps)
include hinner

theorem fits_group {kind : NodeKind} (hkind : kind ∈ bodyKinds) (opener : String)
    (scanner : Scanner) : Fits (group inner kind opener scanner) := by
  obtain ⟨hopen, -, -, hclose⟩ := hasRoom_body hkind
  unfold group
  split
  · exact yields_reject _ _
  · next reader =>
    split
    · exact yields_reject _ _
    · next inside _ =>
      refine (yields_record _ (Builder.within_new kind _) hopen).bind fun opened hopened => ?_
      have hfilled := hinner reader rfl kind hkind opened inside (hopened.mono (by decide))
      refine hfilled.bind fun filled hfilled => ?_
      refine (fits_expectClosing _ _).bind fun closing _ => ?_
      exact (yields_record _ hfilled hclose).bind fun closed _ => trivial

theorem fits_atom (scanner : Scanner) : Fits (atom inner scanner) := by
  unfold atom
  split
  · exact fits_characterClass scanner
  split
  · exact fits_group hinner (by decide) _ scanner
  split
  · exact fits_group hinner (by decide) _ scanner
  split
  · exact fits_sigil _ _ scanner rfl
  split
  · exact fits_sigil _ _ scanner rfl
  split
  · exact fits_escapedKeyword _ scanner rfl rfl
  split
  · exact fits_escapedKeyword _ scanner rfl rfl
  split
  · exact fits_sigil _ _ scanner rfl
  split
  · exact fits_escapedSet scanner
  · exact fits_character scanner

theorem fits_element (scanner : Scanner) : Fits (element inner scanner) := by
  unfold element
  split
  · exact yields_reject _ _
  · refine (fits_atom hinner scanner).bind fun operand _ => ?_
    dsimp only
    split
    · refine (fits_quantifier _ _).bind fun quantified _ => ?_
      split
      · exact yields_reject _ _
      · trivial
    · trivial

theorem nextElement_keeps : (nextElement inner).Keeps .alternative [.elements] := by
  intro draft scanner h
  unfold nextElement
  split
  · exact yields_ok fun taken htaken => nomatch htaken
  · refine (fits_element hinner scanner).bind fun element _ => ?_
    refine (yields_record _ h rfl).bind fun extended hextended => ?_
    refine yields_ok fun taken htaken => ?_
    obtain rfl := Option.some.inj htaken
    exact hextended.mono (by decide)

theorem fits_alternative (scanner : Scanner) : Fits (alternative inner scanner) := by
  have hnew := (Builder.within_new .alternative scanner.position).mono
    (List.nil_subset [Slot.elements])
  unfold alternative
  exact (yields_collect (nextElement_keeps hinner) scanner hnew).bind fun collected _ => trivial

theorem nextAlternative_keeps {kind : NodeKind} (hkind : kind ∈ bodyKinds) :
    (nextAlternative inner).Keeps kind bodySlots := by
  obtain ⟨-, halternatives, hseparators, -⟩ := hasRoom_body hkind
  intro draft scanner h
  unfold nextAlternative
  split
  · exact yields_ok fun taken htaken => nomatch htaken
  · refine (yields_record _ h hseparators).bind fun separated hseparated => ?_
    refine (fits_alternative hinner _).bind fun node _ => ?_
    have hwithin : separated.Within kind bodySlots := hseparated.mono (by decide)
    refine (yields_record _ hwithin halternatives).bind fun extended hextended => ?_
    refine yields_ok fun taken htaken => ?_
    obtain rfl := Option.some.inj htaken
    exact hextended.mono (by decide)

theorem alternatives_keeps : (alternatives inner).Keeps := by
  intro kind hkind draft scanner h
  obtain ⟨-, halternatives, -, -⟩ := hasRoom_body hkind
  unfold alternatives
  refine (fits_alternative hinner scanner).bind fun first _ => ?_
  refine (yields_record _ h halternatives).bind fun begun hbegun => ?_
  exact yields_collect (nextAlternative_keeps hinner hkind) _ (hbegun.mono (by decide))

end Levels

/-- Alternations keep to their slots on every level. -/
theorem alternation_keeps (levels : Nat) : (alternation levels).Keeps := by
  induction levels with
  | zero => exact alternatives_keeps fun reader hreader => nomatch hreader
  | succ levels ih =>
      refine alternatives_keeps fun reader hreader => ?_
      obtain rfl := Option.some.inj hreader
      exact ih

/-! ## Literals -/

theorem yields_flagTokens (letters : List Char) {draft : Builder} (scanner : Scanner)
    (h : draft.Within .flags [.tokens]) :
    Yields (flagTokens letters draft scanner) fun result =>
      result.1.Within .flags [.tokens] := by
  induction letters generalizing draft scanner with
  | nil => exact yields_ok h
  | cons c rest ih =>
      rw [flagTokens]
      refine (fits_expect _ _ _ scanner).bind fun token _ => ?_
      refine (yields_record _ h rfl).bind fun extended hextended => ?_
      exact ih _ (hextended.mono (by decide))

theorem fits_seeFlags (position : Nat) (seen : List Nat) (letters : List Char) :
    Fits (seeFlags position seen letters) := by
  induction letters generalizing position seen with
  | nil => exact yields_ok trivial
  | cons c rest ih =>
      rw [seeFlags]
      split
      · exact ih _ _
      · split
        · exact yields_reject _ _
        · exact ih _ _

theorem fits_flags (scanner : Scanner) : Fits (flags scanner) := by
  have hnew := (Builder.within_new .flags scanner.position).mono (List.nil_subset [Slot.tokens])
  unfold flags
  refine (fits_seeFlags _ _ _).bind fun seen _ => ?_
  refine (yields_noteAll hnew name_mem_of_mem_flagAttributes).bind fun noted hnoted => ?_
  exact (yields_flagTokens _ _ hnoted).bind fun filled _ => trivial

theorem fits_pattern (scanner : Scanner) : Fits (pattern scanner) := by
  unfold pattern
  split
  · exact yields_reject _ _
  · refine (yields_record _ (Builder.within_new .pattern _) rfl).bind fun opened hopened => ?_
    have hfilled := alternation_keeps deepestNesting .pattern (by decide) opened
    refine (hfilled _ (hopened.mono (by decide))).bind fun filled hfilled => ?_
    refine (fits_expectClosing _ _).bind fun closing _ => ?_
    refine (yields_record _ hfilled rfl).bind fun closed hclosed => ?_
    refine (fits_flags _).bind fun flagsNode _ => ?_
    exact (yields_record _ hclosed rfl).bind fun flagged _ => trivial

theorem fits_whole {production : Scanner → Attempt (Node × Scanner)}
    (h : ∀ scanner, Fits (production scanner)) (text : List Char) :
    Fits (whole production text) := by
  unfold whole
  refine (h _).bind fun result _ => ?_
  dsimp only
  split
  · trivial
  · exact yields_reject _ _

end Production

/-- Reading a pattern literal never ends with a misfit. -/
theorem parse_fits (text : List Char) : Production.Fits (parse text) :=
  Production.fits_whole Production.fits_pattern text

/-- Reading flags never ends with a misfit. -/
theorem parseFlags_fits (text : List Char) : Production.Fits (parseFlags text) :=
  Production.fits_whole Production.fits_flags text

end PatternTree
