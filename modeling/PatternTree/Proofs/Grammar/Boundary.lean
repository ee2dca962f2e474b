import PatternTree.Proofs.Grammar.Basic

/-!
# Where derivations begin and end

What is read next is decided by the character that comes.  This file says with which characters
the parts of a pattern may begin (`Atom.exists_text_eq_cons`), which characters end an alternative
(`Ends`) and a whole body (`Closes`), that no condition between two items looks beyond the end of
an alternative (`joins_append_iff`), and how far it looks within one (`joins_append`).
-/

namespace PatternTree.Grammar

/-! ## Beginnings -/

/-- A character does not begin with a reserved one. -/
theorem Character.exists_text_eq_cons {region : Region} (inner : Character region) :
    ∃ c text, inner.text = c :: text ∧ c ∉ reserved region := by
  cases inner with
  | plain c free => exact ⟨c, [], rfl, free.2⟩
  | escape inner => exact ⟨'\\', inner.body, rfl, by cases region <;> decide⟩

/-- An atom begins neither like a quantifier nor like the end of an alternative. -/
theorem Atom.exists_text_eq_cons (atom : Atom) :
    ∃ c text, atom.text = c :: text ∧ c ∉ ['*', '+', '?', '|', ')', '/'] := by
  cases atom with
  | character inner =>
      obtain ⟨c, text, htext, hfree⟩ := inner.exists_text_eq_cons
      refine ⟨c, text, by rw [Atom.text, htext], fun hc => hfree ?_⟩
      simp only [List.mem_cons, List.not_mem_nil, or_false] at hc
      rcases hc with rfl | rfl | rfl | rfl | rfl | rfl <;> decide
  | keyword letter known => exact ⟨'\\', [letter], by rw [Atom.text], by decide⟩
  | sigil c known =>
      refine ⟨c, [], by rw [Atom.text], ?_⟩
      simp only [List.mem_cons, List.not_mem_nil, or_false] at known
      rcases known with rfl | rfl | rfl <;> decide
  | charClass negated units => exact ⟨'[', _, by rw [Atom.text, classText], by decide⟩
  | group capturing first others =>
      cases capturing <;> exact ⟨'(', _, by rw [Atom.text]; rfl, by decide⟩

/-- An item begins like its atom. -/
theorem exists_itemText_eq_cons (item : Item) :
    ∃ c text, itemText item = c :: text ∧ c ∉ ['*', '+', '?', '|', ')', '/'] := by
  obtain ⟨c, text, htext, hc⟩ := item.1.exists_text_eq_cons
  exact ⟨c, text ++ quantifierText item.2, by rw [itemText, htext]; rfl, hc⟩

/-- A quantifier begins with a sigil or a brace. -/
theorem Quantifier.exists_text_eq_cons (quantifier : Quantifier) :
    ∃ c text, quantifier.text = c :: text ∧ c ∈ ['*', '+', '?', '{'] := by
  cases quantifier with
  | sigil c known =>
      refine ⟨c, [], rfl, ?_⟩
      simp only [List.mem_cons, List.not_mem_nil, or_false] at known
      rcases known with rfl | rfl | rfl <;> decide
  | exactly count => exact ⟨'{', _, rfl, by decide⟩
  | atLeast least => exact ⟨'{', _, rfl, by decide⟩
  | between least most ordered => exact ⟨'{', _, rfl, by decide⟩

/-- What stands between parentheses does not begin with a question mark, nor does what closes
them. -/
theorem body_head_ne {first : List Item} {others : List (List Item)} {rest : List Char} :
    ∀ c ∈ (alternativeText first ++ othersText others ++ ')' :: rest).head?, c ≠ '?' := by
  cases first with
  | cons item items =>
      obtain ⟨c, text, htext, hc⟩ := exists_itemText_eq_cons item
      rw [alternativeText_eq, List.flatMap_cons, htext]
      intro d hd
      obtain rfl : c = d := by simpa using hd
      rintro rfl
      exact hc (by decide)
  | nil =>
      cases others with
      | nil => simp [alternativeText, othersText]
      | cons alternative others => simp [alternativeText, othersText]

/-! ## Ends -/

/-- An alternative may end here: at the end of the text, at a bar, or where a body ends. -/
def Ends (rest : List Char) : Prop :=
  ∀ c ∈ rest.head?, c ∈ ['|', ')', '/']

/-- A body may end here: at the end of the text or at what closes it. -/
def Closes (rest : List Char) : Prop :=
  ∀ c ∈ rest.head?, c ∈ [')', '/']

/-- Where an alternative may end there is none of the characters an item looks for behind it. -/
theorem Ends.head_not_mem {rest : List Char} (h : Ends rest) :
    ∀ c ∈ rest.head?, c ∉ ['*', '+', '?', '{'] ∧ Numeral.isDigit 10 c = false := by
  intro c hc
  have hmem := h c hc
  simp only [List.mem_cons, List.not_mem_nil, or_false] at hmem
  rcases hmem with rfl | rfl | rfl <;> decide

/-- A body ends just where an alternative ends and no bar comes. -/
theorem closes_iff {rest : List Char} :
    Closes rest ↔ Ends rest ∧ ∀ c ∈ rest.head?, c ≠ '|' := by
  constructor
  · intro h
    refine ⟨fun c hc => List.mem_cons_of_mem _ (h c hc), fun c hc => ?_⟩
    have hmem := h c hc
    rintro rfl
    exact absurd hmem (by decide)
  · rintro ⟨hends, hbar⟩ c hc
    exact List.mem_of_ne_of_mem (hbar c hc) (hends c hc)

theorem beginsBounds_cons_of_ne {c : Char} {text : List Char} (h : c ≠ '{') :
    beginsBounds (c :: text) = false := by
  unfold beginsBounds
  split
  · next heq => exact absurd (List.cons.inj heq).1 h
  · rfl

/-- Bounds in braces do not begin across the end of an alternative. -/
theorem beginsBounds_append {text rest : List Char} (h : Ends rest) :
    beginsBounds (text ++ rest) = beginsBounds text := by
  have hrest := h.head_not_mem
  cases rest with
  | nil => rw [List.append_nil]
  | cons d rest =>
      obtain ⟨hd, hdigit⟩ := hrest d rfl
      cases text with
      | nil =>
          refine beginsBounds_cons_of_ne ?_
          rintro rfl
          exact hd (by decide)
      | cons c text =>
          by_cases hc : c = '{'
          · subst hc
            cases text with
            | nil => exact hdigit
            | cons e text => rfl
          · rw [List.cons_append, beginsBounds_cons_of_ne hc, beginsBounds_cons_of_ne hc]

/-- Whether an item may stand before another is decided within its alternative. -/
theorem joins_append_iff {item : Item} {text rest : List Char} (h : Ends rest) :
    Joins item (text ++ rest) ↔ Joins item text := by
  obtain ⟨atom, quantifier⟩ := item
  cases quantifier with
  | none =>
      change (∀ c ∈ (text ++ rest).head?, c ∉ ['*', '+', '?', '{']) ↔
        ∀ c ∈ text.head?, c ∉ ['*', '+', '?', '{']
      cases text with
      | nil =>
          refine iff_of_true (fun c hc => (h.head_not_mem c hc).1) fun c hc => ?_
          simp at hc
      | cons c text => rfl
  | some quantifier =>
      change beginsBounds (text ++ rest) = false ↔ beginsBounds text = false
      rw [beginsBounds_append h]

/-! ## What an item looks at -/

/-- Any item may come last. -/
theorem joins_nil (item : Item) : Joins item [] := by
  obtain ⟨atom, quantifier⟩ := item
  cases quantifier with
  | none => exact fun c hc => nomatch hc
  | some quantifier => rfl

/-- An item that may stand before a text may stand before its beginning. -/
theorem joins_of_append {item : Item} {text rest : List Char} (h : Joins item (text ++ rest)) :
    Joins item text := by
  obtain ⟨atom, quantifier⟩ := item
  cases quantifier with
  | none =>
      cases text with
      | nil => exact fun c hc => nomatch hc
      | cons c text => exact h
  | some quantifier =>
      change beginsBounds (text ++ rest) = false at h
      change beginsBounds text = false
      cases text with
      | nil => rfl
      | cons c text =>
          by_cases hbrace : c = '{'
          · subst hbrace
            cases text with
            | nil => rfl
            | cons d text => exact h
          · exact beginsBounds_cons_of_ne hbrace

/-- Behind a text that is more than a brace it does not matter what follows. -/
theorem joins_append {item : Item} {text front back : List Char} (hne : text ≠ [])
    (hbrace : text ≠ ['{']) (h : Joins item (text ++ front)) : Joins item (text ++ back) := by
  obtain ⟨atom, quantifier⟩ := item
  obtain ⟨c, text, rfl⟩ := List.exists_cons_of_ne_nil hne
  cases quantifier with
  | none => exact h
  | some quantifier =>
      change beginsBounds (c :: (text ++ back)) = false
      by_cases hc : c = '{'
      · subst hc
        cases text with
        | nil => exact absurd rfl hbrace
        | cons d text => exact h
      · exact beginsBounds_cons_of_ne hc

/-- An item may stand alone. -/
theorem admissible_singleton {item : Item} {levels : Nat} (h : item.1.Admissible levels) :
    AdmissibleAlternative levels [item] := by
  refine ⟨⟨?_, trivial⟩, List.forall_mem_singleton.mpr h⟩
  rw [alternativeText]
  exact joins_nil item

end PatternTree.Grammar
