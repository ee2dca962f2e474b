import PatternTree.Production.Alternation
import PatternTree.Production.Flags

/-!
# Pattern literals

A pattern literal is an alternation between slashes, followed by flags.
-/

namespace PatternTree.Production

/-- The number of levels to which groups may nest. -/
def deepestNesting : Nat := 64

/-- A pattern literal. -/
def pattern (scanner : Scanner) : Attempt (Node × Scanner) :=
  match scanner.open? .punctuator (.char '/') '/' (some .pattern) with
  | none => reject scanner.position (.expected "'/'")
  | some (opening, inside) => do
    let opened ← record (.new .pattern scanner.position) .openToken (.token opening)
    let (filled, behind) ← alternation deepestNesting opened inside
    let (closing, outside) ← expectClosing '/' behind
    let closed ← record filled .closeToken (.token closing)
    let (flagsNode, after) ← flags outside
    let flagged ← record closed .flags (.node flagsNode)
    return complete flagged after

/-- Reads a whole text; nothing may be left of it. -/
def whole (production : Scanner → Attempt (Node × Scanner)) (text : List Char) : Attempt Node := do
  let (node, last) ← production (.new text)
  if last.atEnd then
    return node
  else
    reject last.position .trailingText

end PatternTree.Production
