import PatternTree.Region
import PatternTree.Text.Layout
import PatternTree.Text.Quoted

/-!
# Tokens

A token is a run of source text together with its byte span.  Tokens that open or close
something also say what: a balanced pair of delimiters, or a region.
-/

namespace PatternTree

/-- A range of bytes in the source. -/
structure Span where
  start : Nat
  stop : Nat
  deriving DecidableEq, Repr

/-- The three kinds of token. -/
inductive Token.Kind where
  | punctuator
  | keyword
  | literal
  deriving DecidableEq, Repr

namespace Token.Kind

def all : List Token.Kind :=
  [punctuator, keyword, literal]

/-- The name a kind of token is printed by. -/
def name : Token.Kind → String
  | punctuator => "Punctuator"
  | keyword => "Keyword"
  | literal => "Literal"

def ofName? (name : String) : Option Token.Kind :=
  all.find? (·.name == name)

end Token.Kind

/-- A run of source text, with what it opens and closes. -/
structure Token where
  kind : Token.Kind
  text : List Char
  span : Span
  /-- The character that has to close the delimiter this token opens. -/
  balanced : Option Char
  /-- The region inside the delimiter this token opens. -/
  balancedRegion : Option Region
  /-- Whether this token closes a delimiter. -/
  balancer : Bool
  /-- The region this token opens without a delimiter. -/
  openRegion : Option Region
  /-- The region this token closes without a delimiter. -/
  closeRegion : Option Region
  deriving DecidableEq, Repr

namespace Token

/-- A token that neither opens nor closes anything. -/
def plain (kind : Kind) (text : List Char) (span : Span) : Token where
  kind := kind
  text := text
  span := span
  balanced := none
  balancedRegion := none
  balancer := false
  openRegion := none
  closeRegion := none

/-- What a token opens and closes, as `name: value` entries in a fixed order. -/
def marks (glyphs : Text.Glyphs) (token : Token) : List (List Char) :=
  (token.balanced.map fun c => "balanced: ".toList ++ Text.quoted (Text.showFirst glyphs c)).toList
  ++ (token.balancedRegion.map fun r => "balancedSpan: ".toList ++ Text.quoted r.name.toList).toList
  ++ (if token.balancer then ["balancer: true".toList] else [])
  ++ (token.openRegion.map fun r => "openSpan: ".toList ++ Text.quoted r.name.toList).toList
  ++ (token.closeRegion.map fun r => "closeSpan: ".toList ++ Text.quoted r.name.toList).toList

/-- The printed form of a token. -/
def print (glyphs : Text.Glyphs) (token : Token) : List Char :=
  "<*".toList ++ token.kind.name.toList ++ [' ']
    ++ Text.quoted (Text.showText glyphs token.text)
    ++ Text.braced (token.marks glyphs) ++ " />".toList

end Token

end PatternTree
