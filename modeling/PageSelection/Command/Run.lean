import PageSelection.Command.Console
import PageSelection.Command.Input
import PageSelection.Selection.Report

/-!
# One run of the command

A run on some console is a function from the arguments and the bytes of standard input to an
`Outcome`: what goes to standard output and to standard error, and the exit status. Every input is
handled in its turn. If it is a list of pages, its block of answers goes to standard output; if not,
its diagnostic goes to standard error as the console renders it, the remaining inputs are handled
all the same, and the run fails in the end. What is logged on the way is not part of the outcome.

All inputs of a run are kept in one collection of documents, to which the diagnostics refer.
-/

namespace PageSelection.Command

/-- What a run leaves behind. -/
structure Outcome where
  stdout : String
  stderr : String
  status : UInt32
  deriving DecidableEq, Repr

/-- A page number in decimal notation. -/
def spellPage (page : Int32) : String := String.ofList (Numeral.spell page.toInt)

/-- The lines that answer for a selection: its ranges, and then what the options ask. -/
def answers (o : Options) (s : Selection) : List String :=
  let contains := o.contains.map fun page =>
    "  contains " ++ spellPage page ++ ": " ++ (if s.pages.contains page then "true" else "false")
  let next := o.next.map fun page =>
    "  next after " ++ spellPage page ++ ": " ++
      ((s.pages.next? page).map spellPage).getD "none"
  let pages := if o.expand then
      ["  pages: " ++ " ".intercalate (s.pages.toList.map spellPage)]
    else []
  (PrintAttribute.name s ++ ": " ++ toString s) :: contains.toList ++ next.toList ++ pages

/-- The block of answers for a selection. -/
def block (o : Options) (s : Selection) : String := String.join ((answers o s).map (· ++ "\n"))

/-- How far the inputs have been handled. -/
structure Progress where
  documents : Documents := .empty
  stdout : String := ""
  stderr : String := ""
  failed : Bool := false

/-- Handles one input. -/
def Progress.step (c : Console) (o : Options) (p : Progress) (input : Document) : Progress :=
  let (id, documents) := p.documents.add input
  match Selection.ofText input.text with
  | .ok s => { p with documents := documents, stdout := p.stdout ++ block o s }
  | .error e =>
    { p with
      documents := documents
      stderr := p.stderr ++ c.report o.colouring documents (e.diagnostic id input.text)
      failed := true }

/-- Handles all inputs in order. -/
def handle (c : Console) (o : Options) (inputs : List Document) : Outcome :=
  let p := inputs.foldl (Progress.step c o) {}
  ⟨p.stdout, p.stderr, if p.failed then 1 else 0⟩

/-- Handles the lists that the options name. -/
def select (c : Console) (o : Options) (stdin : List UInt8) : Outcome :=
  match inputs o.lists stdin with
  | .ok inputs => handle c o inputs
  | .error e => ⟨"", e.message ++ "\n", 1⟩

/-- One run of the command. -/
def run (c : Console) (arguments : List String) (stdin : List UInt8) : Outcome :=
  match Options.ofArguments arguments with
  | .ok o => select c o stdin
  | .error .help => ⟨c.help, "", 0⟩
  | .error .version => ⟨c.version, "", 0⟩
  | .error (.refused e) => ⟨"", c.refusal arguments e, 2⟩

/-- Whether a run with these arguments reads standard input. -/
def readsStdin (arguments : List String) : Bool :=
  match Options.ofArguments arguments with
  | .ok o => o.lists.contains "-"
  | .error _ => false

end PageSelection.Command
