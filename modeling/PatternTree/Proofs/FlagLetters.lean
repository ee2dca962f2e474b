import PatternTree.Proofs.Flagging

/-!
# Flags alone

What is read for flags alone depends on the flag letters that a text begins with and on nothing
else.  A letter that comes again is found first, whatever stands behind the letters; only
different letters get as far as the end of the text.  The attributes say which letters there are
and the tokens say in which order, so only the tokens tell rearranged flags apart.

* `parseFlags_outcome` — the outcome for every text;
* `attributes_flagsNode_eq_iff` — flags with the same attributes are rearrangements;
* `parseFlags_specified` — both together.
-/

namespace PatternTree

open Production

/-! ## Flag letters -/

/-- The flag letters that a text begins with. -/
def leadingFlags (text : List Char) : List Char :=
  text.takeWhile Flag.letters.contains

/-- At the given index there is a letter that has come before, and there is none of that sort at a
smaller index. -/
structure FirstRepeat (letters : List Char) (index : Nat) (c : Char) : Prop where
  letter : letters[index]? = some c
  before : c ∈ letters.take index
  first : ∀ earlier d, earlier < index → letters[earlier]? = some d → d ∉ letters.take earlier

/-- The node of flags that stand alone. -/
def flagsNode (letters : List Char) : Node where
  kind := .flags
  span := ⟨0, Text.byteLength letters⟩
  attributes := Flag.all.map fun flag => (.flag flag, .bool (decide (flag.letter ∈ letters)))
  properties := letters.zipIdx.map fun (c, index) =>
    (.tokens, .token (.plain .keyword [c] ⟨index, index + 1⟩))

theorem leadingFlags_all (text : List Char) :
    (leadingFlags text).all Flag.letters.contains = true :=
  List.all_takeWhile

theorem mem_letters_of_mem_leadingFlags {text : List Char} {c : Char} (h : c ∈ leadingFlags text) :
    c ∈ Flag.letters :=
  List.contains_iff_mem.mp (List.all_eq_true.mp (leadingFlags_all text) c h)

/-- Behind the flag letters that a text begins with comes none. -/
theorem exists_behind_leadingFlags (text : List Char) :
    ∃ rest, text = leadingFlags text ++ rest ∧
      Scanner.begins Flag.letters.contains rest = false := by
  refine ⟨text.dropWhile Flag.letters.contains, List.takeWhile_append_dropWhile.symm, ?_⟩
  have hhead := List.head?_dropWhile_not Flag.letters.contains text
  rw [Scanner.begins]
  cases hnext : (text.dropWhile Flag.letters.contains).head? with
  | none => rfl
  | some c =>
      rw [hnext] at hhead
      exact hhead

/-- Flag letters are one byte each. -/
theorem byteLength_flagLetters {letters : List Char} (h : ∀ c ∈ letters, c ∈ Flag.letters) :
    Text.byteLength letters = letters.length := by
  refine Text.byteLength_eq_length fun c hc => ?_
  obtain ⟨flag, -, rfl⟩ := List.mem_map.mp (h c hc)
  cases flag <;> rfl

/-- Different letters up to one that is among them: the first one that comes again. -/
theorem firstRepeat_append {front back : List Char} {c : Char} (hdistinct : front.Nodup)
    (hrepeated : c ∈ front) : FirstRepeat (front ++ c :: back) front.length c where
  letter := by simp
  before := by simpa using hrepeated
  first := by
    intro earlier d hearlier hd
    rw [List.getElem?_append_left hearlier] at hd
    rw [List.take_append_of_le_length (Nat.le_of_lt hearlier)]
    obtain ⟨hlt, rfl⟩ := List.getElem?_eq_some_iff.mp hd
    -- a letter that came again would be at two different indices
    intro hmem
    obtain ⟨other, hother, heq⟩ := List.mem_iff_getElem.mp hmem
    rw [List.length_take] at hother
    rw [List.getElem_take] at heq
    exact List.pairwise_iff_getElem.mp hdistinct other earlier (by omega) hlt (by omega) heq

/-- There is only one letter that comes again first. -/
theorem FirstRepeat.unique {letters : List Char} {index other : Nat} {c d : Char}
    (h : FirstRepeat letters index c) (hother : FirstRepeat letters other d) :
    index = other ∧ c = d := by
  have hindex : index = other := by
    rcases Nat.lt_trichotomy index other with hlt | heq | hlt
    · exact absurd h.before (hother.first index c hlt h.letter)
    · exact heq
    · exact absurd hother.before (h.first other d hlt hother.letter)
  subst hindex
  exact ⟨rfl, Option.some.inj (h.letter.symm.trans hother.letter)⟩

/-! ## The outcome -/

/-- Tokens of one byte each are laid out at the indices of their letters. -/
theorem placeAll_flagProperties {letters : List Char} (h : ∀ c ∈ letters, c ∈ Flag.letters)
    (start : Nat) :
    Node.placeAll start (flagProperties letters)
      = (letters.zipIdx start).map fun (c, index) =>
        (.tokens, .token (.plain .keyword [c] ⟨index, index + 1⟩)) := by
  induction letters generalizing start with
  | nil => rfl
  | cons c letters ih =>
      obtain ⟨hc, hletters⟩ := List.forall_mem_cons.mp h
      have hwidth : Text.byteLength [c] = 1 :=
        byteLength_flagLetters (List.forall_mem_singleton.mpr hc)
      have hplace : Node.placeAll start (flagProperties (c :: letters))
          = (.tokens, .token (.plain .keyword [c] ⟨start, start + Text.byteLength [c]⟩))
            :: Node.placeAll (start + Text.byteLength [c]) (flagProperties letters) := rfl
      rw [hplace, hwidth, ih hletters, List.zipIdx_cons, List.map_cons]

/-- The tree of flags that stand alone. -/
theorem place_flagsTree {letters : List Char} (h : ∀ c ∈ letters, c ∈ Flag.letters) :
    (Grammar.flagsTree letters).place 0 = flagsNode letters := by
  have htext : Node.spell (flagProperties letters) = letters :=
    (Node.sourceText_bare .flags (Grammar.flagSettings letters) _).symm.trans
      (Grammar.sourceText_flagsTree letters)
  rw [Grammar.flagsTree, Node.bare, Node.place, flagsNode, Node.mk.injEq]
  refine ⟨rfl, ?_, ?_, placeAll_flagProperties h 0⟩
  · rw [← flagProperties, htext, Nat.zero_add]
  · simp [Grammar.flagSettings]

/-- What is read for flags alone. -/
structure FlagsOutcome (text : List Char) : Prop where
  repeated : ¬ (leadingFlags text).Nodup → ∃ index c, FirstRepeat (leadingFlags text) index c ∧
    parseFlags text = .error (.rejected ⟨index, .duplicateFlag c⟩)
  trailing : (leadingFlags text).Nodup → leadingFlags text ≠ text →
    parseFlags text = .error (.rejected ⟨Text.byteLength (leadingFlags text), .trailingText⟩)
  accepted : (leadingFlags text).Nodup → leadingFlags text = text →
    parseFlags text = .ok (flagsNode text)

/-- The outcome of reading flags alone follows from the letters that come first. -/
theorem parseFlags_outcome (text : List Char) : FlagsOutcome text where
  repeated := by
    intro hrepeated
    obtain ⟨rest, htext, hstop⟩ := exists_behind_leadingFlags text
    obtain ⟨front, c, hrepeats⟩ := exists_repeats hrepeated
    obtain ⟨back, hsplit⟩ := hrepeats.splits
    have hfront : ∀ d ∈ front, d ∈ Flag.letters := by
      intro d hd
      have hleading : d ∈ leadingFlags text := by
        rw [hsplit]
        exact List.mem_append_left _ hd
      exact mem_letters_of_mem_leadingFlags hleading
    refine ⟨front.length, c, ?_, ?_⟩
    · rw [hsplit]
      exact firstRepeat_append hrepeats.distinct hrepeats.before
    · rw [htext, ← byteLength_flagLetters hfront]
      exact parseFlags_append_repeated (leadingFlags_all text) hstop hrepeats
  trailing := by
    intro hdistinct hmore
    obtain ⟨rest, htext, hstop⟩ := exists_behind_leadingFlags text
    have hrest : rest ≠ [] := by
      rintro rfl
      exact hmore (by rw [List.append_nil] at htext; exact htext.symm)
    have hrejected := parseFlags_append_trailing (leadingFlags_all text) hstop hdistinct hrest
    rwa [← htext] at hrejected
  accepted := by
    intro hdistinct hall
    have hknown : ∀ c ∈ text, c ∈ Flag.letters := by
      intro c hc
      rw [← hall] at hc
      exact mem_letters_of_mem_leadingFlags hc
    rw [hall] at hdistinct
    exact parseFlags_eq_ok_iff.mpr ⟨hknown, hdistinct, (place_flagsTree hknown).symm⟩

/-! ## Rearranged flags -/

/-- Flags without repetition have the same attributes just if they are the same letters in some
order. -/
theorem attributes_flagsNode_eq_iff {letters other : List Char}
    (h : ∀ c ∈ letters, c ∈ Flag.letters) (hother : ∀ c ∈ other, c ∈ Flag.letters)
    (hdistinct : letters.Nodup) (hotherDistinct : other.Nodup) :
    (flagsNode letters).attributes = (flagsNode other).attributes ↔ letters.Perm other := by
  have hflags : (flagsNode letters).attributes = (flagsNode other).attributes ↔
      ∀ flag ∈ Flag.all, (flag.letter ∈ letters ↔ flag.letter ∈ other) := by
    simp [flagsNode, List.map_inj_left]
  rw [hflags, List.perm_ext_iff_of_nodup hdistinct hotherDistinct]
  constructor
  · intro hsame c
    constructor
    · intro hc
      obtain ⟨flag, hflag, rfl⟩ := List.mem_map.mp (h c hc)
      exact (hsame flag hflag).mp hc
    · intro hc
      obtain ⟨flag, hflag, rfl⟩ := List.mem_map.mp (hother c hc)
      exact (hsame flag hflag).mpr hc
  · exact fun hsame flag _ => hsame flag.letter

/-- **What is read for flags alone.**  For every text, a letter that comes again among the flag
letters in front is rejected, at the first place where this happens and whatever stands behind them;
otherwise text that is no flag letter is rejected behind them, and flag letters alone are accepted.
Two accepted texts have the same attributes just if one is a rearrangement of the other. -/
theorem parseFlags_specified :
    (∀ text, FlagsOutcome text) ∧
      ∀ letters other node otherNode, parseFlags letters = .ok node →
        parseFlags other = .ok otherNode →
        (node.attributes = otherNode.attributes ↔ letters.Perm other) := by
  refine ⟨parseFlags_outcome, ?_⟩
  intro letters other node otherNode h hother
  obtain ⟨hknown, hdistinct, rfl⟩ := parseFlags_eq_ok_iff.mp h
  obtain ⟨hotherKnown, hotherDistinct, rfl⟩ := parseFlags_eq_ok_iff.mp hother
  rw [place_flagsTree hknown, place_flagsTree hotherKnown]
  exact attributes_flagsNode_eq_iff hknown hotherKnown hdistinct hotherDistinct

/-- A letter that comes again in front of other text, text behind different letters, and flags in
two orders. -/
theorem flags_specified_example :
    parseFlags "yigi/g".toList = .error (.rejected ⟨3, .duplicateFlag 'i'⟩) ∧
      parseFlags "yig/i".toList = .error (.rejected ⟨3, .trailingText⟩) ∧
      parseFlags "yig".toList = .ok (flagsNode "yig".toList) ∧
      (flagsNode "yig".toList).attributes = (flagsNode "giy".toList).attributes := by
  have houtcome := parseFlags_specified.1
  have hyig := (houtcome "yig".toList).accepted (by decide) (by decide)
  have hgiy := (houtcome "giy".toList).accepted (by decide) (by decide)
  refine ⟨?_, (houtcome "yig/i".toList).trailing (by decide) (by decide), hyig, ?_⟩
  · obtain ⟨index, c, hfirst, hrejected⟩ := (houtcome "yigi/g".toList).repeated (by decide)
    have hthird : FirstRepeat ("yig".toList ++ 'i' :: []) 3 'i' :=
      firstRepeat_append (by decide) (by decide)
    obtain ⟨rfl, rfl⟩ := hfirst.unique hthird
    exact hrejected
  · exact (parseFlags_specified.2 _ _ _ _ hyig hgiy).mpr (by decide)

end PatternTree
