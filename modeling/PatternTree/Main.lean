import PatternTree.Cli

/-!
# The program

Runs the command line on the arguments of the process.
-/

def main (args : List String) : IO UInt32 := do
  let report := PatternTree.Cli.run args
  IO.print (String.ofList report.output)
  IO.eprint (String.ofList report.diagnostics)
  return report.exitCode.toUInt32
