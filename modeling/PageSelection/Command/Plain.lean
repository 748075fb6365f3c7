import PageSelection.Command.Console
import PageSelection.Diagnostic.Render

/-!
# A plain console

The console of the program as it is built here. Diagnostics are drawn by `Diagnostic.render`, which
has no colours to offer whatever is asked for, and the answers to `--help` and `--version` and the
refusals of arguments are short texts of its own. No result about the command depends on any of
this, but only on what is said about consoles in general.
-/

namespace PageSelection.Command

/-- A refusal in words. -/
def UsageError.message : UsageError → String
  | unknownOption argument => "unexpected argument '" ++ argument ++ "'"
  | repeatedOption name => "option '--" ++ name ++ "' is given twice"
  | missingValue setting => "option '--" ++ setting.name ++ "' needs a value"
  | invalidValue setting value =>
    "invalid value '" ++ value ++ "' for option '--" ++ setting.name ++ "'"
  | unwantedValue name => "option '--" ++ name ++ "' takes no value"
  | noLists => "no page range list is given"

/-- A console without colours. -/
def Console.plain : Console where
  help :=
    "Validate page range lists and print them in canonical form\n" ++
    "\n" ++
    "Usage: pagerangesc [OPTIONS] <RANGES>...\n" ++
    "\n" ++
    "A list such as 1-4,7,10-12 selects pages; - reads one list per line from stdin.\n" ++
    "\n" ++
    "Options:\n" ++
    "      --contains <PAGE>   Report whether each list selects this page\n" ++
    "      --next <PAGE>       Report the first selected page after this one\n" ++
    "      --expand            List every selected page\n" ++
    "      --color <WHEN>      When to color diagnostics: auto, always or never\n" ++
    "      --log-level <LEVEL> Maximum level of log messages\n" ++
    "  -h, --help              Print help\n" ++
    "  -V, --version           Print version\n"
  version := "pagerangesc 0.1.0\n"
  refusal _ e := "error: " ++ e.message ++ "\n"
  render _ documents diagnostic := diagnostic.render documents

end PageSelection.Command
