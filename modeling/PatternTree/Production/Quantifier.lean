import PatternTree.Production.Basic

/-!
# Quantifiers

A quantifier says how often the element before it may be repeated, by a sigil or by bounds
between braces.  The element is read first and then becomes the first child of the quantifier.
-/

namespace PatternTree

/-- How often an element may be repeated. -/
structure Bounds where
  least : Nat
  /-- The largest number of times, if there is one. -/
  most : Option Nat
  deriving DecidableEq, Repr

/-- Bounds as attributes: a bound of zero and an unlimited number of times are not set. -/
def Bounds.attributes (bounds : Bounds) : List (AttributeName × Attribute) :=
  [(.min, .ofBound bounds.least), (.max, bounds.most.elim .absent .ofBound)]

namespace Production

/-- The sigils of quantifiers. -/
def quantifierSigils : List Char := ['*', '+', '?']

/-- The characters that a quantifier begins with. -/
def quantifierStarts : List Char := quantifierSigils ++ ['{']

/-- The bounds that a sigil stands for. -/
def sigilBounds (sigil : List Char) : Bounds :=
  if sigil = ['*'] then ⟨0, none⟩
  else if sigil = ['+'] then ⟨1, none⟩
  else ⟨0, some 1⟩

/-- A digit as a node, if one comes next. -/
def digit (scanner : Scanner) : Attempt (Option (Node × Scanner)) :=
  match scanner.take? .literal .digit with
  | none => .ok none
  | some (value, after) => do
    let filled ← record (.new .digit scanner.position) .value (.token value)
    return some (complete filled after)

/-- The next digit of a number, if one comes next. -/
def nextDigit : Step := fun draft scanner => do
  match ← digit scanner with
  | none => return none
  | some (node, after) =>
    let extended ← record draft .digits (.node node)
    return some (extended, after)

/-- A number with its value, if one comes next. -/
def unsignedInteger (scanner : Scanner) : Attempt (Option ((Node × Nat) × Scanner)) := do
  let (draft, after) ← collect nextDigit (.new .unsignedInteger scanner.position) scanner
  if draft.properties.isEmpty then
    return none
  else
    let (node, last) := complete draft after
    match Numeral.count? node.sourceText with
    | some value => return some ((node, value), last)
    | none => reject scanner.position .malformedQuantifier

/-- What follows the lower bound between the braces: nothing, a comma, or a comma and the
upper bound.  The bounds are returned next to the draft that records them. -/
def upperBound (least : Nat) (draft : Builder) (scanner : Scanner) :
    Attempt (Bounds × Builder × Scanner) :=
  match scanner.take? .punctuator (.char ',') with
  | none => do
    let separated ← record draft .separator .null
    let bounded ← record separated .max .null
    return (⟨least, some least⟩, bounded, scanner)
  | some (comma, behind) => do
    let separated ← record draft .separator (.token comma)
    match ← unsignedInteger behind with
    | none =>
      let bounded ← record separated .max .null
      return (⟨least, none⟩, bounded, behind)
    | some ((node, most), after) =>
      let bounded ← record separated .max (.node node)
      return (⟨least, some most⟩, bounded, after)

/-- Bounds between braces.  The upper bound is compared with the lower one before the closing
brace is read. -/
def bracedBounds (draft : Builder) (scanner : Scanner) : Attempt (Bounds × Builder × Scanner) :=
  match scanner.open? .punctuator (.char '{') '}' none with
  | none => reject scanner.position .malformedQuantifier
  | some (opening, inside) => do
    let opened ← record draft .openToken (.token opening)
    match ← unsignedInteger inside with
    | none => reject inside.position .malformedQuantifier
    | some ((node, least), behind) =>
      let begun ← record opened .min (.node node)
      let (bounds, bounded, last) ← upperBound least begun behind
      if bounds.most.any (· < least) then
        reject last.position .malformedQuantifier
      else
        match last.close? .punctuator '}' with
        | none => reject last.position .malformedQuantifier
        | some (closing, after) =>
          let closed ← record bounded .closeToken (.token closing)
          return (bounds, closed, after)

/-- The bounds that a sigil or a pair of braces gives. -/
def quantifierBounds (draft : Builder) (scanner : Scanner) :
    Attempt (Bounds × Builder × Scanner) :=
  match scanner.take? .keyword (.oneOf quantifierSigils) with
  | some (sigil, after) => do
    let filled ← record draft .sigilToken (.token sigil)
    return (sigilBounds sigil.text, filled, after)
  | none => bracedBounds draft scanner

/-- The quantifier of an element that has been read. -/
def quantifier (element : Node) (scanner : Scanner) : Attempt (Node × Scanner) := do
  let begun ← record (.new .quantifier element.span.start) .element (.node element)
  let (bounds, filled, after) ← quantifierBounds begun scanner
  let noted ← noteAll filled bounds.attributes
  return complete noted after

end Production

end PatternTree
