import PageSelection.Document
import PageSelection.Text.Blank

/-!
# Inputs of the command

Each list is an input with a name. An argument is called by its position among the lists. A lone
hyphen stands for the lines of standard input, each of which is called by its number; lines of
nothing but white space are numbered, but left out.

Standard input is read once: the first hyphen takes all of it, and any later one gets nothing. It
has to be valid UTF-8 from its beginning to its end.
-/

namespace PageSelection.Command

/-- Cuts bytes after each line feed. -/
def splitLines : List UInt8 → List (List UInt8)
  | [] => []
  | byte :: bytes =>
    if byte = 10 then [byte] :: splitLines bytes
    else match splitLines bytes with
      | [] => [[byte]]
      | line :: lines => (byte :: line) :: lines

/-- A line without the line feed that ends it, and without a carriage return in front of that. -/
def dropLineEnd (line : List Char) : List Char :=
  match line.reverse with
  | '\n' :: '\r' :: rest => rest.reverse
  | '\n' :: rest => rest.reverse
  | _ => line

/-- Why the inputs could not be collected. -/
inductive ReadError
  /-- Some line of standard input is not valid UTF-8. -/
  | invalidEncoding
  deriving DecidableEq, Repr

/-- A failure to collect the inputs in words. -/
def ReadError.message : ReadError → String
  | invalidEncoding =>
    "failed to read page ranges from stdin: stream did not contain valid UTF-8"

/-- The text of a line. -/
def decodeLine (line : List UInt8) : Except ReadError String :=
  match String.fromUTF8? line.toByteArray with
  | some text => return String.ofList (dropLineEnd text.toList)
  | none => throw .invalidEncoding

/-- The inputs that the lines of standard input are. -/
def stdinInputs (stdin : List UInt8) : Except ReadError (List Document) := do
  let texts ← (splitLines stdin).mapM decodeLine
  let numbered := texts.zipIdx.map fun (text, index) =>
    Document.mk ("<stdin:" ++ toString (index + 1) ++ ">") text
  return numbered.filter fun input => !input.text.toList.all Text.isBlank

/-- The inputs that some lists are, the first of which is the list number `position`. -/
def inputsFrom (position : Nat) (stdin : List UInt8) :
    List String → Except ReadError (List Document)
  | [] => return []
  | list :: lists =>
    if list = "-" then do
      let lines ← stdinInputs stdin
      let inputs ← inputsFrom (position + 1) [] lists
      return lines ++ inputs
    else do
      let inputs ← inputsFrom (position + 1) stdin lists
      return ⟨"<arg " ++ toString position ++ ">", list⟩ :: inputs

/-- The inputs that the lists on a command line are. -/
def inputs (lists : List String) (stdin : List UInt8) : Except ReadError (List Document) :=
  inputsFrom 1 stdin lists

end PageSelection.Command
