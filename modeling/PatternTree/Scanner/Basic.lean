import PatternTree.Scanner.Terminal
import PatternTree.Text.Width
import PatternTree.Token

/-!
# The scanner

A scanner stands at a position of a text and remembers what is open there: delimiters that
have to be closed by a certain character, and regions.  Delimiters and regions share one stack
of frames.  A frame with a closer is removed only by that closer, a frame without one only by
leaving its region, and both only while they are innermost.

Operations that may fail return `none` and change nothing; those that take text return it as a
token (`take?_eq_some`).
-/

namespace PatternTree

/-- Something that has been opened and not yet closed. -/
inductive Frame where
  /-- A delimiter, to be closed by the given character, possibly with a region inside. -/
  | delimiter (closer : Char) (region : Option Region)
  /-- A region without a delimiter. -/
  | region (region : Region)
  deriving DecidableEq, Repr

namespace Frame

/-- The character that closes a frame. -/
def closer? : Frame → Option Char
  | delimiter closer _ => some closer
  | region _ => none

/-- The region that a frame declares. -/
def region? : Frame → Option Region
  | delimiter _ inside => inside
  | region inside => some inside

end Frame

/-- A position in a text, with the text still ahead and the frames that are open. -/
structure Scanner where
  /-- The number of bytes behind. -/
  position : Nat
  /-- The text ahead. -/
  rest : List Char
  /-- The open frames, the innermost first. -/
  frames : List Frame
  deriving DecidableEq, Repr

namespace Scanner

/-- A scanner at the start of a text. -/
def new (text : List Char) : Scanner :=
  ⟨0, text, []⟩

/-! ## Looking -/

def atEnd (scanner : Scanner) : Bool :=
  scanner.rest.isEmpty

/-- The next character. -/
def next? (scanner : Scanner) : Option Char :=
  scanner.rest.head?

/-- The text that a terminal would take. -/
def matched? (scanner : Scanner) (terminal : Terminal) : Option (List Char) :=
  (terminal.split? scanner.rest).map Prod.fst

/-- Whether a terminal matches here. -/
def sees (scanner : Scanner) (terminal : Terminal) : Bool :=
  (terminal.split? scanner.rest).isSome

/-- The innermost region that is declared; the pattern region if none is. -/
def region (scanner : Scanner) : Region :=
  (scanner.frames.findSome? Frame.region?).getD .pattern

/-- Whether some open delimiter has to be closed by the given character. -/
def awaits (scanner : Scanner) (c : Char) : Bool :=
  scanner.frames.any (·.closer? == some c)

/-! ## Taking -/

/-- Takes what a terminal matches. -/
def take? (scanner : Scanner) (kind : Token.Kind) (terminal : Terminal) :
    Option (Token × Scanner) :=
  match terminal.split? scanner.rest with
  | none => none
  | some (matched, rest) =>
    let stop := scanner.position + Text.byteLength matched
    some (.plain kind matched ⟨scanner.position, stop⟩, { scanner with position := stop, rest })

/-- Takes a delimiter that has to be closed by `closer`. -/
def open? (scanner : Scanner) (kind : Token.Kind) (terminal : Terminal) (closer : Char)
    (inside : Option Region) : Option (Token × Scanner) :=
  match scanner.take? kind terminal with
  | none => none
  | some (token, after) =>
    some ({ token with balanced := some closer, balancedRegion := inside },
      { after with frames := .delimiter closer inside :: after.frames })

/-- Takes a closer, provided that it closes the innermost frame. -/
def close? (scanner : Scanner) (kind : Token.Kind) (closer : Char) : Option (Token × Scanner) :=
  match scanner.frames with
  | [] => none
  | frame :: outer =>
    if frame.closer? = some closer then
      match scanner.take? kind (.char closer) with
      | none => none
      | some (token, after) =>
        some ({ token with balancer := true }, { after with frames := outer })
    else
      none

/-- Takes a token that opens a region. -/
def enter? (scanner : Scanner) (kind : Token.Kind) (terminal : Terminal) (inside : Region) :
    Option (Token × Scanner) :=
  match scanner.take? kind terminal with
  | none => none
  | some (token, after) =>
    some ({ token with openRegion := some inside },
      { after with frames := .region inside :: after.frames })

/-- Leaves a region, provided that it is the innermost frame and has no delimiter. -/
def leave (scanner : Scanner) (inside : Region) : Scanner :=
  match scanner.frames with
  | [] => scanner
  | frame :: outer =>
    if frame = .region inside then { scanner with frames := outer } else scanner

/-- Takes a token that ends a region, and leaves the region. -/
def leave? (scanner : Scanner) (kind : Token.Kind) (terminal : Terminal) (inside : Region) :
    Option (Token × Scanner) :=
  match scanner.take? kind terminal with
  | none => none
  | some (token, after) => some ({ token with closeRegion := some inside }, after.leave inside)

/-! ## What taking does -/

/-- A taken token starts at the position before and ends at the position after, it is not
empty, with the rest it makes up the text that was ahead, and no frame is touched. -/
theorem take?_eq_some {scanner after : Scanner} {kind : Token.Kind} {terminal : Terminal}
    {token : Token} (h : scanner.take? kind terminal = some (token, after)) :
    token.text ≠ [] ∧ scanner.rest = token.text ++ after.rest ∧
      token = .plain kind token.text ⟨scanner.position, after.position⟩ ∧
      after.position = scanner.position + Text.byteLength token.text ∧
      after.frames = scanner.frames := by
  simp only [take?] at h
  split at h
  · simp at h
  · next matched rest hsplit =>
    obtain ⟨rfl, rfl⟩ := Prod.mk.inj (Option.some.inj h)
    obtain ⟨hne, heq⟩ := Terminal.split?_eq_some hsplit
    exact ⟨hne, heq, rfl, rfl, rfl⟩

/-- A terminal is seen just if it can be taken. -/
theorem sees_iff_take? {scanner : Scanner} {kind : Token.Kind} {terminal : Terminal} :
    scanner.sees terminal = (scanner.take? kind terminal).isSome := by
  simp only [sees, take?]
  split <;> simp_all

end Scanner

end PatternTree
