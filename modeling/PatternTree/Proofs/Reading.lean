import PatternTree.Proofs.Layout
import PatternTree.Production.Basic

/-!
# What a scanner reads

A scanner that goes on behind a text, with the same frames open, has *read* that text
(`Scanner.Reads`).  This file says of every operation of a scanner when it succeeds and what it
has read then.  Each statement is an equivalence, so that it serves both to take a successful
production apart and to show that a production succeeds.

A frame that is opened and closed again does not show from outside: a scanner under one more
frame reads just what the scanner without it reads (`reads_push`).
-/

namespace PatternTree

namespace Scanner

/-- The scanner `after` stands behind the given text, with the same frames open. -/
structure Reads (scanner : Scanner) (text : List Char) (after : Scanner) : Prop where
  rest : scanner.rest = text ++ after.rest
  position : after.position = scanner.position + Text.byteLength text
  frames : after.frames = scanner.frames

@[simp] theorem reads_nil {scanner after : Scanner} :
    scanner.Reads [] after ↔ after = scanner := by
  constructor
  · rintro ⟨hrest, hposition, hframes⟩
    cases scanner
    cases after
    simp_all
  · rintro rfl
    exact ⟨rfl, rfl, rfl⟩

/-- Two texts one after the other are read one after the other. -/
theorem Reads.trans {scanner behind after : Scanner} {front back : List Char}
    (first : scanner.Reads front behind) (second : behind.Reads back after) :
    scanner.Reads (front ++ back) after where
  rest := by rw [first.rest, second.rest, List.append_assoc]
  position := by
    rw [second.position, first.position, Text.byteLength_append, Nat.add_assoc]
  frames := second.frames.trans first.frames

/-- Reading leaves the region. -/
theorem Reads.region {scanner after : Scanner} {text : List Char}
    (reads : scanner.Reads text after) : after.region = scanner.region := by
  rw [Scanner.region, Scanner.region, reads.frames]

/-- Reading a text that comes in two parts passes between them. -/
theorem reads_append {scanner after : Scanner} {front back : List Char} :
    scanner.Reads (front ++ back) after ↔
      ∃ behind, scanner.Reads front behind ∧ behind.Reads back after := by
  constructor
  · rintro ⟨hrest, hposition, hframes⟩
    refine ⟨⟨scanner.position + Text.byteLength front, back ++ after.rest, scanner.frames⟩,
      ⟨?_, rfl, rfl⟩, ⟨rfl, ?_, hframes⟩⟩
    · rw [hrest, List.append_assoc]
    · rw [hposition, Text.byteLength_append, Nat.add_assoc]
  · rintro ⟨behind, first, second⟩
    exact first.trans second

/-- Reading a text passes behind its first character. -/
theorem reads_cons {scanner after : Scanner} {c : Char} {text : List Char} :
    scanner.Reads (c :: text) after ↔
      ∃ behind, scanner.Reads [c] behind ∧ behind.Reads text after := by
  rw [← List.singleton_append, reads_append]

/-- A new scanner can read all of its text. -/
theorem reads_new (text : List Char) :
    (new text).Reads text ⟨Text.byteLength text, [], []⟩ where
  rest := (List.append_nil text).symm
  position := (Nat.zero_add _).symm
  frames := rfl

/-- A new scanner can read any beginning of its text. -/
theorem reads_new_append (front back : List Char) :
    (new (front ++ back)).Reads front ⟨Text.byteLength front, back, []⟩ where
  rest := rfl
  position := (Nat.zero_add _).symm
  frames := rfl

/-- A scanner can read any beginning of the text ahead. -/
theorem exists_reads {scanner : Scanner} {front back : List Char}
    (h : scanner.rest = front ++ back) :
    ∃ behind, scanner.Reads front behind ∧ behind.rest = back :=
  ⟨⟨scanner.position + Text.byteLength front, back, scanner.frames⟩, ⟨h, rfl, rfl⟩, rfl⟩

/-! ## Frames -/

/-- The scanner with one more frame open. -/
def push (frame : Frame) (scanner : Scanner) : Scanner :=
  { scanner with frames := frame :: scanner.frames }

@[simp] theorem push_position (frame : Frame) (scanner : Scanner) :
    (scanner.push frame).position = scanner.position := rfl

@[simp] theorem push_rest (frame : Frame) (scanner : Scanner) :
    (scanner.push frame).rest = scanner.rest := rfl

@[simp] theorem push_frames (frame : Frame) (scanner : Scanner) :
    (scanner.push frame).frames = frame :: scanner.frames := rfl

/-- Under one more frame a scanner reads just what it reads without it. -/
theorem reads_push {scanner after : Scanner} {text : List Char} {frame : Frame} :
    (scanner.push frame).Reads text after ↔
      ∃ behind, after = behind.push frame ∧ scanner.Reads text behind := by
  constructor
  · rintro ⟨hrest, hposition, hframes⟩
    refine ⟨{ after with frames := scanner.frames }, ?_, hrest, hposition, rfl⟩
    cases after
    simp_all [push]
  · rintro ⟨behind, rfl, hrest, hposition, hframes⟩
    exact ⟨hrest, hposition, congrArg (frame :: ·) hframes⟩

/-! ## Taking -/

/-- Taking a terminal reads the text that it matches. -/
theorem take?_iff_split? {scanner after : Scanner} {kind : Token.Kind} {terminal : Terminal}
    {token : Token} :
    scanner.take? kind terminal = some (token, after) ↔
      ∃ text, terminal.split? scanner.rest = some (text, after.rest) ∧
        scanner.Reads text after ∧ token = (Token.bare kind text).place scanner.position := by
  constructor
  · intro h
    obtain ⟨_, hrest, htoken, hposition, hframes⟩ := take?_eq_some h
    refine ⟨token.text, ?_, ⟨hrest, hposition, hframes⟩, ?_⟩
    · simp only [take?] at h
      split at h
      · simp at h
      · next matched rest hsplit =>
        obtain ⟨rfl, rfl⟩ := Prod.mk.inj (Option.some.inj h)
        exact hsplit
    · rw [htoken, hposition]
      rfl
  · rintro ⟨text, hsplit, ⟨hrest, hposition, hframes⟩, rfl⟩
    simp only [take?, hsplit]
    cases after
    simp_all [Token.place, Token.bare, Token.plain]

/-- A terminal is not taken just if it does not match. -/
theorem take?_eq_none_iff {scanner : Scanner} {kind : Token.Kind} {terminal : Terminal} :
    scanner.take? kind terminal = none ↔ terminal.split? scanner.rest = none := by
  simp only [take?]
  split <;> simp_all

/-- Whether a text begins with a character of a class. -/
def begins (accepts : Char → Bool) (text : List Char) : Bool :=
  text.head?.any accepts

@[simp] theorem begins_nil (accepts : Char → Bool) : begins accepts [] = false := rfl

@[simp] theorem begins_cons (accepts : Char → Bool) (c : Char) (text : List Char) :
    begins accepts (c :: text) = accepts c := rfl

theorem splitOne?_eq_some_iff {accepts : Char → Bool} {text matched rest : List Char} :
    Terminal.splitOne? accepts text = some (matched, rest) ↔
      ∃ c, accepts c = true ∧ matched = [c] ∧ text = c :: rest := by
  cases text with
  | nil => simp [Terminal.splitOne?]
  | cons d text =>
      simp only [Terminal.splitOne?]
      split
      · next hd =>
        constructor
        · intro h
          obtain ⟨rfl, rfl⟩ := Prod.mk.inj (Option.some.inj h)
          exact ⟨d, hd, rfl, rfl⟩
        · rintro ⟨c, _, rfl, heq⟩
          obtain ⟨rfl, rfl⟩ := List.cons.inj heq
          rfl
      · next hd =>
        constructor
        · intro h
          simp at h
        · rintro ⟨c, hc, rfl, heq⟩
          obtain ⟨rfl, rfl⟩ := List.cons.inj heq
          exact absurd hc hd

theorem isSome_splitOne? (accepts : Char → Bool) (text : List Char) :
    (Terminal.splitOne? accepts text).isSome = begins accepts text := by
  cases text with
  | nil => rfl
  | cons c text => cases h : accepts c <;> simp [Terminal.splitOne?, h]

/-- The terminals that match a single character, with the class of characters they match. -/
def single? : Terminal → Option (Char → Bool)
  | .char c => some (· == c)
  | .oneOf choices => some choices.contains
  | .digit => some (Numeral.isDigit 10)
  | .plain => some Terminal.isPlain
  | _ => none

theorem split?_of_single? {terminal : Terminal} {accepts : Char → Bool}
    (h : single? terminal = some accepts) : terminal.split? = Terminal.splitOne? accepts := by
  cases terminal with
  | char c =>
      obtain rfl := Option.some.inj h
      rfl
  | oneOf choices =>
      obtain rfl := Option.some.inj h
      rfl
  | digit =>
      obtain rfl := Option.some.inj h
      rfl
  | plain =>
      obtain rfl := Option.some.inj h
      rfl
  | word text => exact nomatch h
  | flagRun => exact nomatch h
  | hexRun => exact nomatch h
  | hexPair => exact nomatch h
  | hexQuad => exact nomatch h

/-- Taking a single character reads a character of its class. -/
theorem take?_single_iff {scanner after : Scanner} {kind : Token.Kind} {terminal : Terminal}
    {token : Token} {accepts : Char → Bool} (h : single? terminal = some accepts) :
    scanner.take? kind terminal = some (token, after) ↔
      ∃ c, accepts c = true ∧ scanner.Reads [c] after ∧
        token = (Token.bare kind [c]).place scanner.position := by
  rw [take?_iff_split?, split?_of_single? h]
  constructor
  · rintro ⟨text, hsplit, hreads, htoken⟩
    obtain ⟨c, hc, rfl, _⟩ := splitOne?_eq_some_iff.mp hsplit
    exact ⟨c, hc, hreads, htoken⟩
  · rintro ⟨c, hc, hreads, htoken⟩
    exact ⟨[c], splitOne?_eq_some_iff.mpr ⟨c, hc, rfl, hreads.rest⟩, hreads, htoken⟩

theorem take?_single_eq_none_iff {scanner : Scanner} {kind : Token.Kind} {terminal : Terminal}
    {accepts : Char → Bool} (h : single? terminal = some accepts) :
    scanner.take? kind terminal = none ↔ begins accepts scanner.rest = false := by
  rw [take?_eq_none_iff, split?_of_single? h, ← isSome_splitOne?]
  simp

/-- Taking a given character reads it. -/
theorem take?_char_iff {scanner after : Scanner} {kind : Token.Kind} {c : Char} {token : Token} :
    scanner.take? kind (.char c) = some (token, after) ↔
      scanner.Reads [c] after ∧ token = (Token.bare kind [c]).place scanner.position := by
  rw [take?_single_iff rfl]
  simp

theorem sees_single {scanner : Scanner} {terminal : Terminal} {accepts : Char → Bool}
    (h : single? terminal = some accepts) :
    scanner.sees terminal = begins accepts scanner.rest := by
  rw [sees, split?_of_single? h, isSome_splitOne?]

/-- A run takes all characters of its class that come. -/
theorem splitRun?_eq_some_iff {accepts : Char → Bool} {text matched rest : List Char} :
    Terminal.splitRun? accepts text = some (matched, rest) ↔
      matched ≠ [] ∧ matched.all accepts = true ∧ begins accepts rest = false ∧
        text = matched ++ rest := by
  constructor
  · intro h
    simp only [Terminal.splitRun?] at h
    split at h
    · next hne =>
      obtain ⟨rfl, rfl⟩ := Prod.mk.inj (Option.some.inj h)
      refine ⟨hne, by simp, ?_, List.takeWhile_append_dropWhile.symm⟩
      rw [begins, Option.any_eq_false]
      intro c hc
      have := List.head?_dropWhile_not accepts text
      rw [hc] at this
      simpa using this
    · simp at h
  · rintro ⟨hne, hall, hstop, rfl⟩
    have htake : (matched ++ rest).takeWhile accepts = matched := by
      rw [List.takeWhile_append_of_pos (by simpa using hall)]
      cases rest <;> simp_all
    have hdrop : (matched ++ rest).dropWhile accepts = rest := by
      rw [List.dropWhile_append_of_pos (by simpa using hall)]
      cases rest <;> simp_all
    simp only [Terminal.splitRun?, htake, hdrop]
    simp [hne]

/-- A run is not taken just if the text does not begin with a character of its class. -/
theorem splitRun?_eq_none_iff {accepts : Char → Bool} {text : List Char} :
    Terminal.splitRun? accepts text = none ↔ begins accepts text = false := by
  cases text with
  | nil => simp [Terminal.splitRun?]
  | cons c text => cases h : accepts c <;> simp [Terminal.splitRun?, h]

/-- A block takes a fixed number of characters of its class. -/
theorem splitBlock?_eq_some_iff {accepts : Char → Bool} {size : Nat}
    {text matched rest : List Char} :
    Terminal.splitBlock? accepts size text = some (matched, rest) ↔
      0 < size ∧ matched.length = size ∧ matched.all accepts = true ∧ text = matched ++ rest := by
  constructor
  · intro h
    simp only [Terminal.splitBlock?] at h
    split at h
    · next hb =>
      obtain ⟨rfl, rfl⟩ := Prod.mk.inj (Option.some.inj h)
      exact ⟨hb.1, hb.2.1, hb.2.2, (List.take_append_drop _ _).symm⟩
    · simp at h
  · rintro ⟨hpos, rfl, hall, rfl⟩
    rw [Terminal.splitBlock?, List.take_left, List.drop_left]
    exact if_pos ⟨hpos, rfl, hall⟩

/-- Taking a run of hexadecimal digits reads all of them that come. -/
theorem take?_hexRun_iff {scanner after : Scanner} {kind : Token.Kind} {token : Token} :
    scanner.take? kind .hexRun = some (token, after) ↔
      ∃ digits, digits ≠ [] ∧ digits.all (Numeral.isDigit 16) = true ∧
        begins (Numeral.isDigit 16) after.rest = false ∧ scanner.Reads digits after ∧
        token = (Token.bare kind digits).place scanner.position := by
  rw [take?_iff_split?]
  constructor
  · rintro ⟨digits, hsplit, hreads, htoken⟩
    obtain ⟨hne, hall, hstop, _⟩ := splitRun?_eq_some_iff.mp hsplit
    exact ⟨digits, hne, hall, hstop, hreads, htoken⟩
  · rintro ⟨digits, hne, hall, hstop, hreads, htoken⟩
    exact ⟨digits, splitRun?_eq_some_iff.mpr ⟨hne, hall, hstop, hreads.rest⟩, hreads, htoken⟩

/-- The terminals that match a fixed number of hexadecimal digits, with that number. -/
def block? : Terminal → Option Nat
  | .hexPair => some 2
  | .hexQuad => some 4
  | _ => none

/-- Taking a block of hexadecimal digits reads that many of them. -/
theorem take?_block_iff {scanner after : Scanner} {kind : Token.Kind} {terminal : Terminal}
    {token : Token} {size : Nat} (h : block? terminal = some size) :
    scanner.take? kind terminal = some (token, after) ↔
      ∃ digits, digits.length = size ∧ digits.all (Numeral.isDigit 16) = true ∧
        scanner.Reads digits after ∧
        token = (Token.bare kind digits).place scanner.position := by
  have hsplit : terminal.split? = Terminal.splitBlock? (Numeral.isDigit 16) size ∧ 0 < size := by
    cases terminal <;> simp_all [block?] <;> subst h <;> simp [Terminal.split?]
  rw [take?_iff_split?, hsplit.1]
  constructor
  · rintro ⟨digits, hblock, hreads, htoken⟩
    obtain ⟨_, hlength, hall, _⟩ := splitBlock?_eq_some_iff.mp hblock
    exact ⟨digits, hlength, hall, hreads, htoken⟩
  · rintro ⟨digits, hlength, hall, hreads, htoken⟩
    exact ⟨digits, splitBlock?_eq_some_iff.mpr ⟨hsplit.2, hlength, hall, hreads.rest⟩, hreads,
      htoken⟩

/-- A word is seen just if the text begins with it. -/
theorem sees_word {scanner : Scanner} {word : List Char} (h : word ≠ []) :
    scanner.sees (.word word) = word.isPrefixOf scanner.rest := by
  simp only [sees, Terminal.split?, Terminal.splitWord?]
  cases word.isPrefixOf scanner.rest <;> simp [h]

/-- Taking a word reads it. -/
theorem take?_word_iff {scanner after : Scanner} {kind : Token.Kind} {word : List Char}
    {token : Token} (h : word ≠ []) :
    scanner.take? kind (.word word) = some (token, after) ↔
      scanner.Reads word after ∧ token = (Token.bare kind word).place scanner.position := by
  rw [take?_iff_split?]
  constructor
  · rintro ⟨text, hsplit, hreads, htoken⟩
    simp only [Terminal.split?, Terminal.splitWord?] at hsplit
    split at hsplit
    · obtain ⟨rfl, _⟩ := Prod.mk.inj (Option.some.inj hsplit)
      exact ⟨hreads, htoken⟩
    · simp at hsplit
  · rintro ⟨hreads, htoken⟩
    refine ⟨word, ?_, hreads, htoken⟩
    have hprefix : word.isPrefixOf scanner.rest = true := by
      rw [hreads.rest]
      exact List.isPrefixOf_iff_prefix.mpr (List.prefix_append _ _)
    simp only [Terminal.split?, Terminal.splitWord?]
    rw [if_pos ⟨h, hprefix⟩, hreads.rest, List.drop_left]

/-! ## Opening and closing -/

/-- Under one more frame a scanner takes just what it takes without it. -/
theorem take?_push (scanner : Scanner) (frame : Frame) (kind : Token.Kind) (terminal : Terminal) :
    (scanner.push frame).take? kind terminal
      = (scanner.take? kind terminal).map fun (token, after) => (token, after.push frame) := by
  simp only [take?, push_rest]
  cases terminal.split? scanner.rest <;> rfl

/-- Opening a delimiter reads it and leads under one more frame. -/
theorem open?_iff {scanner after : Scanner} {terminal : Terminal} {text : List Char}
    {closer : Char} {inside : Option Region} {token : Token}
    (take : ∀ {taken behind}, scanner.take? .punctuator terminal = some (taken, behind) ↔
      scanner.Reads text behind ∧ taken = (Token.bare .punctuator text).place scanner.position) :
    scanner.open? .punctuator terminal closer inside = some (token, after) ↔
      ∃ behind, scanner.Reads text behind ∧ after = behind.push (.delimiter closer inside) ∧
        token = (Token.opening text closer inside).place scanner.position := by
  unfold open?
  constructor
  · intro h
    split at h
    · simp at h
    · next taken behind htake =>
      obtain ⟨hreads, rfl⟩ := take.mp htake
      obtain ⟨rfl, rfl⟩ := Prod.mk.inj (Option.some.inj h)
      exact ⟨behind, hreads, rfl, rfl⟩
  · rintro ⟨behind, hreads, rfl, rfl⟩
    rw [take.mpr ⟨hreads, rfl⟩]
    rfl

/-- Under a delimiter closing reads its closer, and the delimiter is gone. -/
theorem close?_push_iff {scanner after : Scanner} {closer : Char} {inside : Option Region}
    {token : Token} :
    (scanner.push (.delimiter closer inside)).close? .punctuator closer = some (token, after) ↔
      scanner.Reads [closer] after ∧
        token = (Token.closing closer).place scanner.position := by
  simp only [close?, push_frames, Frame.closer?, if_true, take?_push]
  constructor
  · intro h
    split at h
    · simp at h
    · next taken behind htake =>
      obtain ⟨⟨inner, last⟩, hinner, heq⟩ := Option.map_eq_some_iff.mp htake
      obtain ⟨hreads, rfl⟩ := take?_char_iff.mp hinner
      obtain ⟨rfl, rfl⟩ := Prod.mk.inj heq
      obtain ⟨rfl, rfl⟩ := Prod.mk.inj (Option.some.inj h)
      exact ⟨⟨hreads.rest, hreads.position, rfl⟩, rfl⟩
  · rintro ⟨hreads, rfl⟩
    rw [take?_char_iff.mpr ⟨hreads, rfl⟩, ← hreads.frames]
    rfl

/-- Entering a region reads its token and leads under one more frame. -/
theorem enter?_char_iff {scanner after : Scanner} {kind : Token.Kind} {c : Char}
    {inside : Region} {token : Token} :
    scanner.enter? kind (.char c) inside = some (token, after) ↔
      ∃ behind, scanner.Reads [c] behind ∧ after = behind.push (.region inside) ∧
        token = { Token.bare kind [c] with openRegion := some inside }.place scanner.position := by
  unfold enter?
  constructor
  · intro h
    split at h
    · simp at h
    · next taken behind htake =>
      obtain ⟨hreads, rfl⟩ := take?_char_iff.mp htake
      obtain ⟨rfl, rfl⟩ := Prod.mk.inj (Option.some.inj h)
      exact ⟨behind, hreads, rfl, rfl⟩
  · rintro ⟨behind, hreads, rfl, rfl⟩
    rw [take?_char_iff.mpr ⟨hreads, rfl⟩]
    rfl

/-- Leaving the region that was entered last undoes entering it. -/
@[simp] theorem leave_push (scanner : Scanner) (inside : Region) :
    (scanner.push (.region inside)).leave inside = scanner := by
  simp [leave, push]

/-- In a region the token that ends it is read, and the region is gone. -/
theorem leave?_push_iff {scanner after : Scanner} {kind : Token.Kind} {c : Char}
    {inside : Region} {token : Token} :
    (scanner.push (.region inside)).leave? kind (.char c) inside = some (token, after) ↔
      scanner.Reads [c] after ∧
        token = { Token.bare kind [c] with closeRegion := some inside }.place
          scanner.position := by
  rw [leave?, take?_push]
  constructor
  · intro h
    split at h
    · simp at h
    · next taken behind htake =>
      obtain ⟨⟨inner, last⟩, hinner, heq⟩ := Option.map_eq_some_iff.mp htake
      obtain ⟨hreads, rfl⟩ := take?_char_iff.mp hinner
      obtain ⟨rfl, rfl⟩ := Prod.mk.inj heq
      obtain ⟨rfl, rfl⟩ := Prod.mk.inj (Option.some.inj h)
      exact ⟨by rwa [leave_push], rfl⟩
  · rintro ⟨hreads, rfl⟩
    rw [take?_char_iff.mpr ⟨hreads, rfl⟩]
    simp [Token.place]

end Scanner

end PatternTree
