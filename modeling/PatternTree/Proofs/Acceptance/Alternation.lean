import PatternTree.Proofs.Acceptance.Atom
import PatternTree.Proofs.Acceptance.Quantifier

/-!
# Accepting alternations

What an alternation accepts with some levels left follows from what the groups inside it accept
with one level less, so the main statement is an induction on the levels
(`alternation_accepts`).

* `element_eq_ok_iff` — items, where an alternative does not end;
* `alternative_eq_ok_iff` — alternatives;
* `alternation_accepts` — bodies.

An item is accepted or not depending on the character behind it, which may belong to the next
item or to what ends the alternative; the second never matters (`chain_itemEntries_iff`).
-/

namespace PatternTree.Production

open Grammar

variable {scanner after : Scanner} {node : Node} {inner : Option AlternationReader} {levels : Nat}

/-! ## Ends -/

/-- Inside, only a parenthesis or a slash is awaited, and a slash always is. -/
theorem Inside.awaits_iff (h : Inside scanner.frames) (c : Char) :
    (c == ')' || scanner.awaits c) = true ↔ c = ')' ∨ c = '/' := by
  obtain ⟨depth, hframes⟩ := h
  have hawaits : scanner.awaits c = true → c = ')' ∨ c = '/' := by
    intro hc
    rw [Scanner.awaits, hframes, List.any_append, Bool.or_eq_true] at hc
    rcases hc with hc | hc
    · obtain ⟨frame, hframe, hclose⟩ := List.any_eq_true.mp hc
      obtain rfl := (List.mem_replicate.mp hframe).2
      have heq : ')' = c := by simpa [Frame.closer?] using hclose
      exact .inl heq.symm
    · have heq : '/' = c := by simpa [Frame.closer?] using hc
      exact .inr heq.symm
  constructor
  · intro hc
    rcases Bool.or_eq_true _ _ |>.mp hc with hc | hc
    · exact .inl (by simpa using hc)
    · exact hawaits hc
  · rintro (rfl | rfl)
    · rfl
    · rw [Scanner.awaits, hframes, List.any_append]
      simp [Frame.closer?]

/-- Inside, an alternative ends just where the grammar lets it. -/
theorem Inside.alternativeEnds_iff (h : Inside scanner.frames) :
    alternativeEnds scanner = true ↔ Ends scanner.rest := by
  rw [alternativeEnds, Scanner.next?]
  cases hrest : scanner.rest with
  | nil => simp [Ends]
  | cons c rest =>
      have hawaits := h.awaits_iff c
      simp only [List.head?_cons, Bool.or_assoc, Bool.or_eq_true (c == '|'), hawaits]
      simp [Ends]

/-! ## Items -/

/-- The items of an alternative as entries of a repetition. -/
def itemEntries (levels : Nat) : Entries Item where
  text := itemText
  properties item := [(.elements, .node (itemTree item))]
  joins item rest := item.1.Admissible levels ∧ Joins item rest
  stops := Ends
  spell_properties item := by simp

theorem textOf_itemEntries (items : List Item) :
    (itemEntries levels).textOf items = alternativeText items :=
  (alternativeText_eq items).symm

theorem propertiesOf_itemEntries (items : List Item) :
    (itemEntries levels).propertiesOf items = itemProperties items := by
  rw [itemProperties_eq]
  exact List.map_eq_flatMap.symm

/-- Items may stand one after the other just if they make an admissible alternative that may end
behind them. -/
theorem chain_itemEntries_iff {items : List Item} {rest : List Char} :
    (itemEntries levels).Chain items rest ↔ AdmissibleAlternative levels items ∧ Ends rest := by
  induction items with
  | nil => exact (and_iff_right ⟨trivial, fun item hitem => nomatch hitem⟩).symm
  | cons item items ih =>
      rw [Entries.Chain, ih, textOf_itemEntries]
      constructor
      · rintro ⟨⟨hatom, hjoins⟩, ⟨hseamless, hatoms⟩, hends⟩
        exact ⟨⟨⟨(joins_append_iff hends).mp hjoins, hseamless⟩,
          List.forall_mem_cons.mpr ⟨hatom, hatoms⟩⟩, hends⟩
      · rintro ⟨⟨⟨hjoins, hseamless⟩, hall⟩, hends⟩
        obtain ⟨hatom, hatoms⟩ := List.forall_mem_cons.mp hall
        exact ⟨⟨hatom, (joins_append_iff hends).mpr hjoins⟩, ⟨hseamless, hatoms⟩, hends⟩

/-! ## Elements -/

theorem seesBounds_eq (scanner : Scanner) : seesBounds scanner = beginsBounds scanner.rest := rfl

/-- An atom without a quantifier may stand just where no quantifier is seen. -/
theorem joins_none_iff {atom : Atom} :
    Joins (atom, none) scanner.rest ↔ scanner.sees (.oneOf quantifierStarts) = false := by
  change (∀ c ∈ scanner.rest.head?, c ∉ ['*', '+', '?', '{']) ↔ _
  rw [Scanner.sees_single rfl]
  cases scanner.rest with
  | nil => simp
  | cons c rest => simp [quantifierStarts, quantifierSigils]

/-- Where an alternative does not end, an item is accepted just if the grammar derives it and it
may stand before what follows. -/
theorem element_eq_ok_iff (hagrees : Agrees inner levels) (hinside : Inside scanner.frames)
    (hends : ¬ Ends scanner.rest) :
    element inner scanner = .ok (node, after) ↔
      ∃ item : Item, scanner.Reads (itemText item) after ∧
        (item.1.Admissible levels ∧ Joins item after.rest) ∧
        node = (itemTree item).place scanner.position := by
  have hsees : scanner.sees (.oneOf quantifierSigils)
      = Scanner.begins quantifierSigils.contains scanner.rest := Scanner.sees_single rfl
  rw [element]
  constructor
  · intro h
    split at h
    · simp at h
    · next hsigils =>
      rw [hsees, Bool.not_eq_true] at hsigils
      rw [bind_eq_ok_iff] at h
      obtain ⟨⟨operand, behind⟩, hatom, h⟩ := h
      obtain ⟨atom, hadmissible, hreads, rfl⟩ :=
        (atom_eq_ok_iff hagrees hinside hends hsigils).mp hatom
      dsimp only at h
      split at h
      · rw [bind_eq_ok_iff] at h
        obtain ⟨⟨quantified, last⟩, hquantifier, h⟩ := h
        obtain ⟨q, hq, rfl⟩ := (quantifier_eq_ok_iff
          (by rw [Atom.sourceText_tree]; exact hreads.position)).mp hquantifier
        dsimp only at h
        split at h
        · simp at h
        · next hbounds =>
          obtain ⟨rfl, rfl⟩ := Prod.mk.inj (pure_eq_ok_iff.mp h)
          exact ⟨(atom, some q), hreads.trans hq,
            ⟨hadmissible, Bool.eq_false_iff.mpr hbounds⟩, rfl⟩
      · next hstarts =>
        obtain ⟨rfl, rfl⟩ := Prod.mk.inj (pure_eq_ok_iff.mp h)
        refine ⟨(atom, none), ?_, ⟨hadmissible, ?_⟩, rfl⟩
        · rw [itemText, quantifierText, Option.elim_none, List.append_nil]
          exact hreads
        · exact joins_none_iff.mpr (Bool.eq_false_iff.mpr hstarts)
  · rintro ⟨⟨atom, quantifier⟩, hreads, ⟨hadmissible, hjoins⟩, rfl⟩
    obtain ⟨behind, hatom, hrest⟩ := Scanner.reads_append.mp hreads
    have hsigils : Scanner.begins quantifierSigils.contains scanner.rest = false := by
      obtain ⟨c, text, htext, hc⟩ := atom.exists_text_eq_cons
      rw [hatom.rest, htext, List.cons_append, Scanner.begins_cons, ← Bool.not_eq_true,
        List.contains_iff_mem]
      exact fun hmem => hc (List.mem_append_left ['|', ')', '/'] hmem)
    rw [if_neg (by rw [hsees, hsigils]; decide),
      (atom_eq_ok_iff hagrees hinside hends hsigils).mpr ⟨atom, hadmissible, hatom, rfl⟩, ok_bind]
    dsimp only
    cases quantifier with
    | none =>
        obtain rfl := Scanner.reads_nil.mp hrest
        rw [if_neg (by rw [joins_none_iff.mp hjoins]; decide)]
        rfl
    | some q =>
        have hstarts : behind.sees (.oneOf quantifierStarts) = true := by
          obtain ⟨c, text, htext, hc⟩ := q.exists_text_eq_cons
          have hbehind : behind.rest = c :: (text ++ after.rest) := by
            rw [hrest.rest]
            exact congrArg (· ++ after.rest) htext
          rw [Scanner.sees_single rfl, hbehind, Scanner.begins_cons, List.contains_iff_mem]
          exact hc
        rw [if_pos hstarts, (quantifier_eq_ok_iff
          (by rw [Atom.sourceText_tree]; exact hatom.position)).mpr ⟨q, hrest, rfl⟩, ok_bind]
        dsimp only
        rw [seesBounds_eq, if_neg (Bool.eq_false_iff.mp hjoins)]
        rfl

/-- The loop of an alternative reads items until it ends. -/
theorem nextElement_reads {frames : List Frame} (hagrees : Agrees inner levels)
    (hinside : Inside frames) :
    Step.ReadsEntries (nextElement inner) (itemEntries levels) .alternative frames where
  more := by
    intro draft scanner extended behind hkind hframes
    have hroom : draft.kind.hasRoom draft.slots .elements = true :=
      Builder.hasRoom_of_many hkind rfl
    rw [← hframes] at hinside
    rw [nextElement]
    constructor
    · intro h
      split at h
      · simp at h
      · next hmore =>
        rw [hinside.alternativeEnds_iff] at hmore
        rw [bind_eq_ok_iff] at h
        obtain ⟨⟨node, after⟩, helement, h⟩ := h
        obtain ⟨item, hreads, hjoins, rfl⟩ :=
          (element_eq_ok_iff hagrees hinside hmore).mp helement
        dsimp only at h
        rw [record_bind hroom] at h
        obtain ⟨rfl, rfl⟩ := Prod.mk.inj (Option.some.inj (pure_eq_ok_iff.mp h))
        exact ⟨item, hreads, hjoins, rfl⟩
    · rintro ⟨item, hreads, hjoins, rfl⟩
      have hmore : ¬ Ends scanner.rest := by
        obtain ⟨c, text, htext, hc⟩ := exists_itemText_eq_cons item
        have hrest : scanner.rest = c :: (text ++ behind.rest) := by
          rw [hreads.rest]
          exact congrArg (· ++ behind.rest) htext
        rw [hrest]
        exact fun hends => hc (List.mem_append_right ['*', '+', '?'] (hends c rfl))
      rw [if_neg (by rw [hinside.alternativeEnds_iff]; exact hmore),
        (element_eq_ok_iff hagrees hinside hmore).mpr ⟨item, hreads, hjoins, rfl⟩]
      dsimp only [ok_bind]
      rw [record_bind hroom]
      rfl
  stop := by
    intro draft scanner hkind hframes
    have hroom : draft.kind.hasRoom draft.slots .elements = true :=
      Builder.hasRoom_of_many hkind rfl
    rw [← hframes] at hinside
    rw [nextElement]
    split
    · next hends => exact iff_of_true rfl (hinside.alternativeEnds_iff.mp hends)
    · next hmore =>
      refine iff_of_false ?_ fun hstops => hmore (hinside.alternativeEnds_iff.mpr hstops)
      rw [bind_eq_ok_iff]
      rintro ⟨⟨node, after⟩, _, h⟩
      dsimp only at h
      rw [record_bind hroom] at h
      simp at h
  text_ne_nil := by
    intro item hnil
    obtain ⟨c, text, htext, _⟩ := exists_itemText_eq_cons item
    exact List.cons_ne_nil c text (htext.symm.trans hnil)

/-- An alternative is accepted just if it is admissible and may end where it does. -/
theorem alternative_eq_ok_iff (hagrees : Agrees inner levels) (hinside : Inside scanner.frames) :
    alternative inner scanner = .ok (node, after) ↔
      ∃ items, AdmissibleAlternative levels items ∧ scanner.Reads (alternativeText items) after ∧
        Ends after.rest ∧ node = (alternativeTree items).place scanner.position := by
  have hcomplete : ∀ {items : List Item} {last : Scanner},
      scanner.Reads (alternativeText items) last →
      complete ((Builder.new .alternative scanner.position).extend
          (Node.placeAll scanner.position ((itemEntries levels).propertiesOf items))) last
        = ((alternativeTree items).place scanner.position, last) := by
    intro items last hreads
    refine complete_eq _ (by simpa using hreads.position) ?_
    rw [propertiesOf_itemEntries]
    exact (Builder.annotate_nil _).symm
  rw [alternative, bind_eq_ok_iff]
  constructor
  · rintro ⟨⟨filled, last⟩, hcollect, h⟩
    obtain ⟨items, hreads, hchain, rfl⟩ :=
      (collect_eq_ok_iff (nextElement_reads hagrees hinside) rfl rfl).mp hcollect
    rw [textOf_itemEntries] at hreads
    obtain ⟨hadmissible, hends⟩ := chain_itemEntries_iff.mp hchain
    obtain ⟨rfl, rfl⟩ := Prod.mk.inj ((pure_eq_ok_iff.mp h).trans (hcomplete hreads))
    exact ⟨items, hadmissible, hreads, hends, rfl⟩
  · rintro ⟨items, hadmissible, hreads, hends, rfl⟩
    refine ⟨_, (collect_eq_ok_iff (nextElement_reads hagrees hinside) rfl rfl).mpr
      ⟨items, ?_, chain_itemEntries_iff.mpr ⟨hadmissible, hends⟩, rfl⟩, ?_⟩
    · rw [textOf_itemEntries]
      exact hreads
    · exact pure_eq_ok_iff.mpr (hcomplete hreads).symm

/-! ## Bodies -/

/-- The alternatives behind bars as entries of a repetition. -/
def otherEntries (levels : Nat) : Entries (List Item) where
  text items := '|' :: alternativeText items
  properties items :=
    [(.separatorTokens, .token (.bare .punctuator ['|'])),
      (.alternatives, .node (alternativeTree items))]
  joins items rest := AdmissibleAlternative levels items ∧ Ends rest
  stops rest := Scanner.begins (· == '|') rest = false
  spell_properties items := by simp

theorem textOf_otherEntries (others : List (List Item)) :
    (otherEntries levels).textOf others = othersText others :=
  (othersText_eq others).symm

theorem propertiesOf_otherEntries (others : List (List Item)) :
    (otherEntries levels).propertiesOf others = otherProperties others :=
  (otherProperties_eq others).symm

/-- Behind an alternative that may end there, others may stand just if they are admissible and
the body may end behind them. -/
theorem chain_otherEntries_iff {others : List (List Item)} {rest : List Char} :
    (Ends (othersText others ++ rest) ∧ (otherEntries levels).Chain others rest) ↔
      (∀ items ∈ others, AdmissibleAlternative levels items) ∧ Closes rest := by
  induction others with
  | nil =>
      have hbar : (otherEntries levels).Chain [] rest ↔ ∀ c ∈ rest.head?, c ≠ '|' := by
        change Scanner.begins (· == '|') rest = false ↔ _
        cases rest <;> simp
      have hall : ∀ items ∈ ([] : List (List Item)), AdmissibleAlternative levels items :=
        fun items hitems => nomatch hitems
      rw [hbar, othersText, List.nil_append, ← closes_iff]
      exact (and_iff_right hall).symm
  | cons items others ih =>
      have hends : Ends (othersText (items :: others) ++ rest) := by
        rw [othersText]
        simp [Ends]
      rw [Entries.Chain, textOf_otherEntries, List.forall_mem_cons]
      constructor
      · rintro ⟨-, ⟨hadmissible, hbehind⟩, hchain⟩
        obtain ⟨hothers, hcloses⟩ := ih.mp ⟨hbehind, hchain⟩
        exact ⟨⟨hadmissible, hothers⟩, hcloses⟩
      · rintro ⟨⟨hadmissible, hothers⟩, hcloses⟩
        obtain ⟨hbehind, hchain⟩ := ih.mpr ⟨hothers, hcloses⟩
        exact ⟨hends, ⟨hadmissible, hbehind⟩, hchain⟩

/-- Where a node holds alternatives there is room for further ones. -/
theorem HoldsBody.hasRoom {draft : Builder} (h : HoldsBody draft.kind)
    (properties : List Property) :
    (draft.extend properties).kind.hasRoom (draft.extend properties).slots .alternatives = true ∧
      draft.kind.hasRoom draft.slots .alternatives = true ∧
      draft.kind.hasRoom draft.slots .separatorTokens = true := by
  simp [NodeKind.hasRoom, h.1, h.2]

/-- The loop of a body reads alternatives behind bars. -/
theorem nextAlternative_reads {kind : NodeKind} {frames : List Frame}
    (hagrees : Agrees inner levels) (hinside : Inside frames) (hholds : HoldsBody kind) :
    Step.ReadsEntries (nextAlternative inner) (otherEntries levels) kind frames where
  more := by
    intro draft scanner extended behind hkind hframes
    subst hkind
    rw [← hframes] at hinside
    have hbehind := fun properties => (hholds.hasRoom properties).1
    obtain ⟨-, -, hseparator⟩ := hholds.hasRoom []
    rw [nextAlternative]
    constructor
    · intro h
      split at h
      · simp at h
      · next bar inside htake =>
        obtain ⟨hbar, rfl⟩ := Scanner.take?_char_iff.mp htake
        rw [record_bind hseparator, bind_eq_ok_iff] at h
        obtain ⟨⟨node, after⟩, halternative, h⟩ := h
        obtain ⟨items, hadmissible, hreads, hends, rfl⟩ :=
          (alternative_eq_ok_iff hagrees (hinside.of_reads hbar)).mp halternative
        dsimp only at h
        rw [record_bind (hbehind _), Builder.extend_extend] at h
        obtain ⟨rfl, rfl⟩ := Prod.mk.inj (Option.some.inj (pure_eq_ok_iff.mp h))
        refine ⟨items, hbar.trans hreads, ⟨hadmissible, hends⟩, ?_⟩
        rw [hbar.position]
        rfl
    · rintro ⟨items, hreads, ⟨hadmissible, hends⟩, rfl⟩
      obtain ⟨inside, hbar, hitems⟩ := Scanner.reads_cons.mp hreads
      rw [Scanner.take?_char_iff.mpr ⟨hbar, rfl⟩]
      dsimp only
      rw [record_bind hseparator,
        (alternative_eq_ok_iff hagrees (hinside.of_reads hbar)).mpr
          ⟨items, hadmissible, hitems, hends, rfl⟩, ok_bind]
      dsimp only
      rw [record_bind (hbehind _), Builder.extend_extend, hbar.position]
      rfl
  stop := by
    intro draft scanner hkind hframes
    subst hkind
    have hbehind := fun properties => (hholds.hasRoom properties).1
    obtain ⟨-, -, hseparator⟩ := hholds.hasRoom []
    rw [nextAlternative]
    constructor
    · intro h
      split at h
      · next htake => exact (Scanner.take?_single_eq_none_iff rfl).mp htake
      · rw [record_bind hseparator, bind_eq_ok_iff] at h
        obtain ⟨⟨node, after⟩, _, h⟩ := h
        dsimp only at h
        rw [record_bind (hbehind _)] at h
        simp at h
    · intro hstop
      rw [(Scanner.take?_single_eq_none_iff rfl).mpr hstop]
  text_ne_nil := fun items => List.cons_ne_nil '|' (alternativeText items)

/-- What a body accepts follows from what the groups in it accept. -/
theorem alternatives_accepts (hagrees : Agrees inner levels) :
    (alternatives inner).Accepts levels := by
  intro draft filled scanner after hholds hinside
  have hfirst : ∀ {first : List Item} {behind : Scanner},
      scanner.Reads (alternativeText first) behind →
      scanner.Reads (Node.spell [(.alternatives, .node (alternativeTree first))]) behind := by
    intro first behind hreads
    simpa using hreads
  obtain ⟨-, hroom, -⟩ := hholds.hasRoom []
  rw [alternatives, bind_eq_ok_iff]
  constructor
  · rintro ⟨⟨node, behind⟩, halternative, h⟩
    obtain ⟨first, hadmissible, hreads, hends, rfl⟩ :=
      (alternative_eq_ok_iff hagrees hinside).mp halternative
    dsimp only at h
    rw [record_bind hroom] at h
    have hnext := nextAlternative_reads hagrees (hinside.of_reads hreads) hholds
    obtain ⟨others, hothers, hchain, rfl⟩ :=
      (collect_eq_ok_iff hnext (Builder.extend_kind draft _) rfl).mp h
    rw [textOf_otherEntries] at hothers
    rw [hothers.rest] at hends
    obtain ⟨hall, hcloses⟩ := chain_otherEntries_iff.mp ⟨hends, hchain⟩
    refine ⟨first, others, List.forall_mem_cons.mpr ⟨hadmissible, hall⟩, hreads.trans hothers,
      hcloses, ?_⟩
    rw [propertiesOf_otherEntries]
    exact extend_placeAll (hfirst hreads)
  · rintro ⟨first, others, hall, hreads, hcloses, rfl⟩
    obtain ⟨hadmissible, hothers⟩ := List.forall_mem_cons.mp hall
    obtain ⟨behind, hitems, hrest⟩ := Scanner.reads_append.mp hreads
    obtain ⟨hends, hchain⟩ := chain_otherEntries_iff.mpr ⟨hothers, hcloses⟩
    rw [← hrest.rest] at hends
    refine ⟨_, (alternative_eq_ok_iff hagrees hinside).mpr
      ⟨first, hadmissible, hitems, hends, rfl⟩, ?_⟩
    dsimp only
    rw [record_bind hroom]
    have hnext := nextAlternative_reads hagrees (hinside.of_reads hitems) hholds
    refine (collect_eq_ok_iff hnext (Builder.extend_kind draft _) rfl).mpr
      ⟨others, ?_, hchain, ?_⟩
    · rw [textOf_otherEntries]
      exact hrest
    · rw [propertiesOf_otherEntries]
      exact (extend_placeAll (hfirst hitems)).symm

/-- A body is accepted just if groups nest in it to at most the levels that are left and all its
alternatives are seamless. -/
theorem alternation_accepts (levels : Nat) : (alternation levels).Accepts levels := by
  induction levels with
  | zero =>
      exact @alternatives_accepts none 0 rfl
  | succ levels ih =>
      exact @alternatives_accepts (some (alternation levels)) (levels + 1) ⟨levels, rfl, ih⟩

end PatternTree.Production
