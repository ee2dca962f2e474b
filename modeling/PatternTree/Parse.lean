import PatternTree.Production.Pattern

/-!
# Reading pattern literals

The entry points of the library: the tree of a pattern literal `/pattern/flags`, and the tree
of flags alone.
-/

namespace PatternTree

/-- The tree of a pattern literal. -/
def parse (text : List Char) : Attempt Node :=
  Production.whole Production.pattern text

/-- The tree of flags that stand alone. -/
def parseFlags (text : List Char) : Attempt Node :=
  Production.whole Production.flags text

end PatternTree
