import PatternTree.Builder.Workbench
import PatternTree.Cursor
import PatternTree.Main
import PatternTree.Proofs.Drafting
import PatternTree.Proofs.Grammar.Tree
import PatternTree.Proofs.Numeral
import PatternTree.Scanner.Call
import PatternTree.Proofs.Acceptance.Escape
import PatternTree.Proofs.Acceptance.Character
import PatternTree.Proofs.Acceptance.CharacterClass
import PatternTree.Proofs.Acceptance.Quantifier
import PatternTree.Proofs.Acceptance.Alternation
import PatternTree.Proofs.Acceptance.Literal
import PatternTree.Proofs.Slice
import PatternTree.Proofs.Lossless
import PatternTree.Proofs.Grammar.Part
import PatternTree.Proofs.Reparsing
import PatternTree.Proofs.Fitting
import PatternTree.Proofs.Typing
import PatternTree.Proofs.Legible
import PatternTree.Proofs.Printing
import PatternTree.Proofs.Balance
import PatternTree.Proofs.Rejection.Literal
import PatternTree.Proofs.Nesting
import PatternTree.Proofs.Recursion
import PatternTree.Proofs.Depth
import PatternTree.Proofs.Bodies
import PatternTree.Proofs.Composition
import PatternTree.Proofs.Concatenation
import PatternTree.Proofs.Flagging
import PatternTree.Proofs.Pairing
import PatternTree.Proofs.Quoting
import PatternTree.Proofs.Cooking
import PatternTree.Proofs.Counting
import PatternTree.Proofs.Bounding
import PatternTree.Proofs.FlagLetters
import PatternTree.Proofs.Calls.Termination
import PatternTree.Proofs.Calls.Frames
import PatternTree.Proofs.Session.Step
import PatternTree.Proofs.Session.Position
import PatternTree.Proofs.Session.Stack
import PatternTree.Proofs.Workbench.Step
import PatternTree.Proofs.Workbench.Conformity
import PatternTree.Proofs.Workbench.Record
