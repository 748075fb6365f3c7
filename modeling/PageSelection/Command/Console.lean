import PageSelection.Command.Options
import PageSelection.Diagnostic.Basic

/-!
# The console

Part of what the command writes is not its own. The answers to `--help` and `--version`, and what is
said of arguments that are refused, are made up by the library that reads the arguments; and how a
diagnostic is drawn, with or without colours, is up to the library that renders it. A `Console` is
what these libraries write on some terminal. The command is the same on every console: it decides
when something is written, where it goes, and which diagnostic it is that is rendered.
-/

namespace PageSelection.Command

/-- What is written by others than the command itself. -/
structure Console where
  /-- The answer to `--help`. -/
  help : String
  /-- The answer to `--version`. -/
  version : String
  /-- What is said of arguments that are refused. -/
  refusal : List String → UsageError → String
  /-- A diagnostic about documents of a collection, with colours as they are asked for. It fails if
  something that the diagnostic refers to cannot be looked up. -/
  render : Colour → Documents → Diagnostic → Except Document.LookupError String

/-- What is written for a diagnostic, which is nothing if it cannot be rendered. -/
def Console.report (c : Console) (colour : Colour) (documents : Documents)
    (diagnostic : Diagnostic) : String :=
  match c.render colour documents diagnostic with
  | .ok text => text
  | .error _ => ""

end PageSelection.Command
