import PageSelection.Command.Plain
import PageSelection.Command.Run

/-!
# The command

Reads page range lists from the arguments and from standard input, and prints them in their
shortest form.
-/

open PageSelection

/-- Runs the command, with standard input only if it is asked for. -/
def main (arguments : List String) : IO UInt32 := do
  let stdin ←
    if Command.readsStdin arguments then (← IO.getStdin).readBinToEnd else pure ByteArray.empty
  let outcome := Command.run .plain arguments stdin.toList
  IO.print outcome.stdout
  IO.eprint outcome.stderr
  return outcome.status
