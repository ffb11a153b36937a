import Bucketing.Command.Arguments
import Bucketing.Command.Basic

/-! # The program

Executes the command that the arguments make and prints its output, or says why there is none.
-/
open Bucketing in
def main (arguments : List String) : IO UInt32 := do
  match Command.ofArguments arguments with
  | .error usage =>
    IO.eprintln usage.message
    return 2
  | .ok command =>
    match command.execute.run "" with
    | .ok () output =>
      IO.print output
      return 0
    | .error fault output =>
      IO.print output
      IO.println s!"ERROR: {fault}"
      return 1
