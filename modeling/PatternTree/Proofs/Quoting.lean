import PatternTree.Proofs.Composition
import PatternTree.Proofs.Pairing

/-!
# Quoting texts

Any text can be written into a pattern literal so that it stands for itself: a line feed, a
carriage return and a tab by their fixed escapes, and every character that is special in the
region behind a backslash.  Nothing of what is written then begins like a quantifier, a delimiter
or the hyphen of a range, since every unmarked character is plain and every marked one is hidden
behind its backslash (`Grammar.Character.Unmarked`).  So no part of the quoted text acts on its
neighbours, and it is read back as one character for each character of the text.

* `quote` — a character as it is written in a region;
* `Grammar.exists_quotations` — quoted texts are derived as characters;
* `parse_quoted` — what is read for a quoted text, in a pattern and in a bracket expression.
-/

namespace PatternTree

/-! ## Values of characters -/

/-- What a character node stands for: the text of its token, or else what its escape denotes. -/
def Node.denoted? (node : Node) : Option (List Char) :=
  match node.token? .value with
  | some token => some token.text
  | none => (node.node? .escape).bind fun inner => (inner.attribute? .cooked).bind Attribute.text?

namespace Grammar

/-- The characters that a quoted text does not hold unless behind a backslash: what is special in
the region, and the slash that closes a pattern. -/
def marked (region : Region) : List Char :=
  if region = .pattern then '/' :: specials region else specials region

/-- What a character denotes. -/
def Character.cooked {region : Region} : Character region → List Char
  | .plain c _ => [c]
  | .escape inner => inner.cooked

/-- The node of a character stands for what the character denotes. -/
theorem Character.denoted?_place {region : Region} (inner : Character region) (start : Nat) :
    (inner.tree.place start).denoted? = some inner.cooked := by
  cases inner with
  | plain c free => rfl
  | escape inner => rfl

/-- A character begins with a backslash or with a character that is not marked. -/
def Character.Unmarked {region : Region} (inner : Character region) : Prop :=
  ∀ c ∈ inner.text.head?, c = '\\' ∨ c ∉ marked region

end Grammar

open Grammar

/-- A character as it is written in a region to stand for itself. -/
def quote (region : Region) (c : Char) : List Char :=
  if c = '\n' then ['\\', 'n']
  else if c = '\r' then ['\\', 'r']
  else if c = '\t' then ['\\', 't']
  else if c ∈ marked region then ['\\', c]
  else [c]

namespace Grammar

variable {region : Region}

/-! ## Quotations -/

/-- Escaped characters begin with a backslash. -/
theorem Character.unmarked_escape (inner : Escape region) :
    (Character.escape inner).Unmarked := by
  intro c hc
  exact .inl (Option.some.inj hc).symm

/-- The escape of a marked character denotes this character. -/
theorem exists_marked {c : Char} (h : c ∈ marked region) (hletter : c ∉ ['n', 'r', 't', '0']) :
    ∃ inner : Escape region, inner.text = ['\\', c] ∧ inner.cooked = [c] := by
  have hknown : c ∈ fixedLetters ∨ c ∈ specials region := by
    unfold marked at h
    split at h
    · rcases List.mem_cons.mp h with rfl | hspecial
      · exact .inl (by decide)
      · exact .inr hspecial
    · exact .inr h
  refine ⟨.single c hknown, rfl, ?_⟩
  have hfixed : (PatternTree.Escape.fixed? c).getD c = c := by
    unfold PatternTree.Escape.fixed?
    split <;> simp_all
  rw [Escape.cooked, hfixed]

/-- A quoted character is derived as a character that denotes it. -/
theorem exists_quotation (hregion : region ≠ .escape) (c : Char) :
    ∃ inner : Character region, inner.text = quote region c ∧ inner.cooked = [c] ∧
      inner.Unmarked := by
  have hletters : ∀ d ∈ ['n', 'r', 't', '0'], d ∉ marked region := by
    cases region <;> simp [marked, specials, Region.specials?]
  have hbackslash : '\\' ∈ marked region := by
    cases region with
    | pattern => decide
    | characterClass => decide
    | escape => exact absurd rfl hregion
  have hreserved : ∀ d ∈ reserved region, d ∈ marked region := by
    cases region <;> simp [reserved, marked, specials, Region.specials?]
  by_cases hfeed : c = '\n'
  · subst hfeed
    exact ⟨.escape (.single 'n' (.inl (by decide))), rfl, rfl, Character.unmarked_escape _⟩
  by_cases hreturn : c = '\r'
  · subst hreturn
    exact ⟨.escape (.single 'r' (.inl (by decide))), rfl, rfl, Character.unmarked_escape _⟩
  by_cases htab : c = '\t'
  · subst htab
    exact ⟨.escape (.single 't' (.inl (by decide))), rfl, rfl, Character.unmarked_escape _⟩
  rw [quote, if_neg hfeed, if_neg hreturn, if_neg htab]
  by_cases hmarked : c ∈ marked region
  · obtain ⟨inner, htext, hcooked⟩ :=
      exists_marked hmarked fun hletter => hletters c hletter hmarked
    rw [if_pos hmarked]
    exact ⟨.escape inner, htext, hcooked, Character.unmarked_escape inner⟩
  · have hplain : c ∉ ['\r', '\n', '\t', '\\'] := by
      have hne : c ≠ '\\' := fun heq => hmarked (heq ▸ hbackslash)
      simp [hfeed, hreturn, htab, hne]
    rw [if_neg hmarked]
    refine ⟨.plain c ⟨hplain, fun hmem => hmarked (hreserved c hmem)⟩, rfl, rfl, ?_⟩
    intro d hd
    obtain rfl : c = d := Option.some.inj hd
    exact .inr hmarked

/-- A quoted text is derived as characters that denote its characters one by one. -/
theorem exists_quotations (hregion : region ≠ .escape) (text : List Char) :
    ∃ list : List (Character region),
      list.flatMap Character.text = text.flatMap (quote region) ∧
      list.map Character.cooked = text.map (fun c => [c]) ∧ ∀ inner ∈ list, inner.Unmarked := by
  induction text with
  | nil => exact ⟨[], rfl, rfl, List.forall_mem_nil _⟩
  | cons c text ih =>
      obtain ⟨inner, htext, hcooked, hunmarked⟩ := exists_quotation hregion c
      obtain ⟨list, hlist, hmap, hall⟩ := ih
      refine ⟨inner :: list, ?_, ?_, List.forall_mem_cons.mpr ⟨hunmarked, hall⟩⟩
      · rw [List.flatMap_cons, List.flatMap_cons, htext, hlist]
      · rw [List.map_cons, List.map_cons, hcooked, hmap]

/-- The nodes of characters, laid out one after the other, stand for what the characters denote. -/
theorem denoted?_placeNodes (list : List (Character region)) (start : Nat) :
    (Node.placeNodes start (list.map Character.tree)).map (fun node => (node.kind, node.denoted?))
      = list.map fun inner => (.character, some inner.cooked) := by
  induction list generalizing start with
  | nil => rfl
  | cons inner list ih =>
      rw [List.map_cons, Node.placeNodes, List.map_cons, List.map_cons, ih, inner.denoted?_place,
        Node.place_kind, inner.kind_tree]

/-! ## Quotations in a pattern -/

/-- Characters as items. -/
def characterItems (list : List (Character .pattern)) : List Item :=
  list.map fun inner => (.character inner, none)

theorem alternativeText_characterItems (list : List (Character .pattern)) :
    alternativeText (characterItems list) = list.flatMap Character.text := by
  rw [alternativeText_eq]
  induction list with
  | nil => rfl
  | cons inner list ih =>
      have hitem : itemText (.character inner, none) = inner.text := by
        rw [itemText, Atom.text]
        exact List.append_nil _
      rw [characterItems, List.map_cons, List.flatMap_cons, List.flatMap_cons, hitem]
      exact congrArg (inner.text ++ ·) ih

/-- Unmarked characters do not act on one another. -/
theorem seamless_characterItems {list : List (Character .pattern)}
    (h : ∀ inner ∈ list, inner.Unmarked) : Seamless (characterItems list) := by
  induction list with
  | nil => trivial
  | cons inner list ih =>
      obtain ⟨-, hlist⟩ := List.forall_mem_cons.mp h
      refine ⟨?_, ih hlist⟩
      change Joins _ (alternativeText (characterItems list))
      rw [alternativeText_characterItems]
      intro c hc
      cases list with
      | nil => simp at hc
      | cons next list =>
          obtain ⟨d, rest, htext, -⟩ := next.exists_text_eq_cons
          obtain rfl : d = c := by simpa [htext] using hc
          have hquantifiers : ∀ d ∈ ['*', '+', '?', '{'], d ≠ '\\' ∧ d ∈ marked .pattern := by
            simp [marked, specials, Region.specials?]
          intro hmem
          obtain ⟨hbackslash, hmarked⟩ := hquantifiers d hmem
          rcases hlist next List.mem_cons_self d (by rw [htext]; rfl) with heq | hfree
          · exact hbackslash heq
          · exact hfree hmarked

/-- Unmarked characters may stand side by side. -/
theorem admissible_characterItems {list : List (Character .pattern)}
    (h : ∀ inner ∈ list, inner.Unmarked) : AdmissibleAlternative 64 (characterItems list) := by
  refine ⟨seamless_characterItems h, ?_⟩
  intro item hitem
  obtain ⟨inner, -, rfl⟩ := List.mem_map.mp hitem
  exact Atom.admissible_character

/-- Characters are recorded as such. -/
theorem itemProperties_characterItems (list : List (Character .pattern)) :
    itemProperties (characterItems list)
      = (list.map Character.tree).map fun node => (.elements, .node node) := by
  rw [itemProperties_eq, characterItems, List.map_map, List.map_map]
  apply List.map_congr_left
  intro inner _
  simp [itemTree, quantifiedTree, Atom.tree]

/-! ## Quotations in a bracket expression -/

/-- Where no character is a hyphen without a backslash there are no ranges. -/
theorem pair_unmarked {list : List (Character .characterClass)}
    (h : ∀ inner ∈ list, inner.Unmarked) :
    pair (list.map ClassUnit.character) = list.map fun inner => .unit (.character inner) := by
  induction list with
  | nil => rw [List.map_nil, List.map_nil, pair]
  | cons inner list ih =>
      obtain ⟨-, hlist⟩ := List.forall_mem_cons.mp h
      rw [List.map_cons, List.map_cons, ← ih hlist]
      apply pair.eq_2
      intro lower free upper rest _ hrest
      obtain ⟨next, hnext, heq⟩ : ∃ next ∈ list, next = .plain '-' free := by
        cases list with
        | nil => simp at hrest
        | cons next list =>
            exact ⟨next, List.mem_cons_self, ClassUnit.character.inj (List.cons.inj hrest).1⟩
      rcases hlist next hnext '-' (by rw [heq]; rfl) with hbackslash | hfree
      · exact absurd hbackslash (by decide)
      · exact hfree (by decide)

/-- A caret without a backslash does not come first. -/
theorem caret_unmarked {list : List (Character .characterClass)}
    (h : ∀ inner ∈ list, inner.Unmarked) :
    caret false (list.map ClassUnit.character) = (false, list.map ClassUnit.character) := by
  rw [Production.caret_eq_self_iff []]
  intro _
  cases list with
  | nil => rfl
  | cons inner list =>
      obtain ⟨d, rest, htext, -⟩ := inner.exists_text_eq_cons
      have hcaret : d ≠ '^' := by
        rintro rfl
        rcases h inner List.mem_cons_self '^' (by rw [htext]; rfl) with hbackslash | hfree
        · exact absurd hbackslash (by decide)
        · exact hfree (by decide)
      simpa [htext] using hcaret

end Grammar

/-- Nodes stand for a text if they are characters and stand for its characters, one by one. -/
def StandFor (nodes : List Node) (text : List Char) : Prop :=
  nodes.map (fun node => (node.kind, node.denoted?)) = text.map fun c => (.character, some [c])

/-- Characters that denote those of a text stand for it wherever they are laid out. -/
theorem standFor_placeNodes {region : Region} {list : List (Character region)} {text : List Char}
    (h : list.map Character.cooked = text.map fun c => [c]) (start : Nat) :
    StandFor (Node.placeNodes start (list.map Character.tree)) text := by
  have hdenoted := congrArg (List.map fun cooked => (NodeKind.character, some cooked)) h
  rw [List.map_map, List.map_map] at hdenoted
  exact (denoted?_placeNodes list start).trans hdenoted

/-- A text that is quoted for patterns is read back between slashes. -/
theorem parse_quoted_pattern (text : List Char) :
    ∃ tree alternative nodes, parse (slashed (text.flatMap (quote .pattern))) = .ok tree ∧
      tree.body = [(.alternatives, .node alternative)] ∧
      alternative.properties = List.map (fun node => (.elements, .node node)) nodes ∧
      StandFor nodes text := by
  have hregion : Region.pattern ≠ .escape := by decide
  obtain ⟨list, htext, hcooked, hunmarked⟩ := exists_quotations hregion text
  have hbody : alternativeText (characterItems list) ++ othersText []
      = text.flatMap (quote .pattern) := by
    rw [alternativeText_characterItems, htext, othersText, List.append_nil]
  have hadmissible := List.forall_mem_singleton.mpr (admissible_characterItems hunmarked)
  refine ⟨_, (alternativeTree (characterItems list)).place 1, _,
    parse_slashed_iff.mpr ⟨_, [], hadmissible, hbody, rfl⟩, ?_, ?_,
    standFor_placeNodes hcooked 1⟩
  · rw [body_unflagged]
    simp [bodyProperties, otherProperties, Node.placeAll]
  · rw [Node.place_properties, alternativeTree, Node.bare_properties,
      itemProperties_characterItems, Node.placeAll_map_node]

/-- A text that is quoted for bracket expressions is read back between brackets. -/
theorem parse_quoted_class (text : List Char) :
    ∃ tree element nodes,
      parse (slashed ('[' :: (text.flatMap (quote .characterClass) ++ [']']))) = .ok tree ∧
      tree.HoldsOnly element ∧ element.kind = .characterClass ∧
      element.attributes = [(.negate, .bool false)] ∧
      element.children .elements = List.map .node nodes ∧ StandFor nodes text := by
  have hregion : Region.characterClass ≠ .escape := by decide
  obtain ⟨list, htext, hcooked, hunmarked⟩ := exists_quotations hregion text
  have hcaret := caret_unmarked hunmarked
  have hitem : itemText (.charClass false (list.map ClassUnit.character), none)
      = '[' :: (text.flatMap (quote .characterClass) ++ [']']) := by
    rw [itemText, Atom.text, classText, ← htext, List.flatMap_map]
    simp [quantifierText, caretText, ClassUnit.text]
  have hpaired : (pair (list.map ClassUnit.character)).map ClassElement.tree
      = list.map Character.tree := by
    rw [pair_unmarked hunmarked, List.map_map]
    rfl
  have hchildren := children_classTree 1 hcaret
  rw [hpaired] at hchildren
  rw [← hitem]
  refine ⟨_, _, _, parse_lone Atom.admissible_charClass,
    holdsOnly_unflagged_iff.mpr ⟨_, rfl, rfl, rfl⟩, ?_, ?_, ?_,
    standFor_placeNodes hcooked (1 + (1 + Text.byteLength (caretText false)))⟩
  · rw [Node.place_kind, itemTree, quantifiedTree, Atom.tree]
    rfl
  · rw [Node.place_attributes, itemTree, quantifiedTree, Atom.tree, classTree, hcaret]
    rfl
  · rw [itemTree, quantifiedTree, Atom.tree]
    exact hchildren

/-- **A quoted text is read back character by character.**  Between slashes, a text that is
quoted for patterns is a single alternative with one character node for each character of the
text; between brackets, a text that is quoted for bracket expressions is a single one that is not
negated, with one character node for each character of the text.  Each of them stands for its
character. -/
theorem parse_quoted (text : List Char) :
    (∃ tree alternative nodes, parse (slashed (text.flatMap (quote .pattern))) = .ok tree ∧
      tree.body = [(.alternatives, .node alternative)] ∧
      alternative.properties = List.map (fun node => (.elements, .node node)) nodes ∧
      StandFor nodes text) ∧
    (∃ tree element nodes,
      parse (slashed ('[' :: (text.flatMap (quote .characterClass) ++ [']']))) = .ok tree ∧
      tree.HoldsOnly element ∧ element.kind = .characterClass ∧
      element.attributes = [(.negate, .bool false)] ∧
      element.children .elements = List.map .node nodes ∧ StandFor nodes text) :=
  ⟨parse_quoted_pattern text, parse_quoted_class text⟩

/-- A slash is marked in patterns only, and a hyphen in bracket expressions only. -/
example : "a-/\n".toList.flatMap (quote .pattern) = "a-\\/\\n".toList ∧
    "a-/\n".toList.flatMap (quote .characterClass) = "a\\-/\\n".toList := by
  decide

end PatternTree
