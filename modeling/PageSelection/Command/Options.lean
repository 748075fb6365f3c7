import PageSelection.Numeral

/-!
# Arguments of the command

The command takes range lists, and options in between:

* `--contains PAGE` and `--next PAGE` ask a question about every selection, `--expand` asks for all
  of its pages;
* `--color` is `auto`, `always` or `never`, and `--log-level` is a level by name or by number;
* `--help` (`-h`) and `--version` (`-V`) end the reading of the arguments at once;
* after `--`, and for a lone hyphen, an argument is a list whatever it looks like.

A value follows its option after an equals sign or as the next argument, but not as one that
begins with a hyphen. Arguments are read from left to right, one by one (`Reader.step`), and the
first of them that settles what to do ends the reading: this is why a version asked for in front
of a mistake is still printed, and one behind it is not.
-/

namespace PageSelection.Command

/-- When diagnostics are coloured. -/
inductive Colour
  | auto
  | always
  | never
  deriving DecidableEq, Repr

/-- The colour setting with the given name. -/
def Colour.ofName? : String → Option Colour
  | "auto" => some auto
  | "always" => some always
  | "never" => some never
  | _ => none

/-- How much is logged. -/
inductive LogLevel
  | error
  | warn
  | info
  | debug
  | trace
  deriving DecidableEq, Repr

/-- The level with the given number, of which 1 logs the least. -/
def LogLevel.ofNumber? : Nat → Option LogLevel
  | 1 => some error
  | 2 => some warn
  | 3 => some info
  | 4 => some debug
  | 5 => some trace
  | _ => none

/-- The level with the given number, in digits after an optional plus sign, or with the given
name, in upper or lower case. -/
def LogLevel.ofText? (text : String) : Option LogLevel :=
  let digits := match text.toList with
    | '+' :: cs => cs
    | cs => cs
  match Numeral.unsigned? digits with
  | some number => ofNumber? number
  | none =>
    match String.ofList (text.toList.map Char.toLower) with
    | "error" => some error
    | "warn" => some warn
    | "info" => some info
    | "debug" => some debug
    | "trace" => some trace
    | _ => none

/-- What the command is asked to do with the lists. -/
structure Options where
  /-- The lists in the order of the arguments. -/
  lists : List String := []
  /-- Report whether this page is selected. -/
  contains : Option Int32 := none
  /-- Report the first selected page after this one. -/
  next : Option Int32 := none
  /-- Report all selected pages. -/
  expand : Bool := false
  /-- When to colour diagnostics, if this is said at all. -/
  colour : Option Colour := none
  /-- How much to log. Nothing is logged here, whatever the level. -/
  logLevel : Option LogLevel := none
  deriving DecidableEq, Repr

/-- When diagnostics are coloured. Nothing said leaves it to the terminal. -/
def Options.colouring (o : Options) : Colour := o.colour.getD .auto

/-- The options that take a value. -/
inductive Setting
  | contains
  | next
  | colour
  | logLevel
  deriving DecidableEq, Repr

/-- The setting with the given name. -/
def Setting.ofName? : String → Option Setting
  | "contains" => some contains
  | "next" => some next
  | "color" => some colour
  | "log-level" => some logLevel
  | _ => none

/-- The name of a setting. -/
def Setting.name : Setting → String
  | contains => "contains"
  | next => "next"
  | colour => "color"
  | logLevel => "log-level"

/-- The options that take no value. -/
inductive Flag
  | expand
  | help
  | version
  deriving DecidableEq, Repr

/-- The flag with the given long name. -/
def Flag.ofName? : String → Option Flag
  | "expand" => some expand
  | "help" => some help
  | "version" => some version
  | _ => none

/-- The flag with the given short name. -/
def Flag.ofLetter? : Char → Option Flag
  | 'h' => some help
  | 'V' => some version
  | _ => none

/-- Why arguments are refused. -/
inductive UsageError
  | unknownOption (argument : String)
  | repeatedOption (name : String)
  | missingValue (setting : Setting)
  | invalidValue (setting : Setting) (value : String)
  | unwantedValue (name : String)
  | noLists
  deriving DecidableEq, Repr

/-- What ends the reading of arguments before their end. -/
inductive Stop
  | help
  | version
  | refused (error : UsageError)
  deriving DecidableEq, Repr

/-- A page number as the value of an option. -/
def page? (value : String) : Option Int32 := (Numeral.signed? value.toList).bind Numeral.fit?

/-- The value of a setting after one more is given for it, of which `read` is the meaning. There
can be only one value, and it has to mean something. -/
def Setting.take {α : Type} (setting : Setting) (value : String) (current read : Option α) :
    Except Stop (Option α) :=
  if current.isSome then throw (.refused (.repeatedOption setting.name))
  else if read.isSome then return read
  else throw (.refused (.invalidValue setting value))

/-- Gives a setting its value. -/
def Options.assign (o : Options) (setting : Setting) (value : String) : Except Stop Options := do
  match setting with
  | .contains => return { o with contains := ← setting.take value o.contains (page? value) }
  | .next => return { o with next := ← setting.take value o.next (page? value) }
  | .colour =>
    return { o with colour := ← setting.take value o.colour (Colour.ofName? value) }
  | .logLevel =>
    return { o with logLevel := ← setting.take value o.logLevel (LogLevel.ofText? value) }

/-- Adds a list behind the others. -/
def Options.addList (o : Options) (list : String) : Options :=
  { o with lists := o.lists ++ [list] }

/-- Raises a flag. -/
def Options.raise (o : Options) : Flag → Except Stop Options
  | .expand =>
    if o.expand then throw (.refused (.repeatedOption "expand"))
    else return { o with expand := true }
  | .help => throw .help
  | .version => throw .version

/-- How far the arguments have been read. -/
structure Reader where
  options : Options := {}
  /-- The setting whose value has to come next. -/
  awaiting : Option Setting := none
  /-- Whether all further arguments are lists. -/
  literal : Bool := false
  deriving DecidableEq, Repr

/-- Takes an option by its long name, with the value after its equals sign if it has one. -/
def Reader.long (r : Reader) (argument name : String) (value : Option String) :
    Except Stop Reader :=
  match Setting.ofName? name, Flag.ofName? name, value with
  | some setting, _, some value => return { r with options := ← r.options.assign setting value }
  | some setting, _, none => return { r with awaiting := some setting }
  | none, some flag, none => return { r with options := ← r.options.raise flag }
  | none, some _, some _ => throw (.refused (.unwantedValue name))
  | none, none, _ => throw (.refused (.unknownOption argument))

/-- Takes one argument. -/
def Reader.step (r : Reader) (argument : String) : Except Stop Reader :=
  let list : Reader := { r with options := r.options.addList argument }
  if r.literal then return list
  else
    match r.awaiting, argument.toList with
    | some setting, '-' :: _ :: _ => throw (.refused (.missingValue setting))
    | some setting, _ =>
      return { r with options := ← r.options.assign setting argument, awaiting := none }
    | none, ['-', '-'] => return { r with literal := true }
    | none, '-' :: '-' :: cs =>
      let (name, rest) := cs.span (· != '=')
      let value := match rest with
        | [] => none
        | _ :: value => some (String.ofList value)
      r.long argument (String.ofList name) value
    | none, '-' :: c :: _ =>
      match Flag.ofLetter? c with
      | some flag => return { r with options := ← r.options.raise flag }
      | none => throw (.refused (.unknownOption argument))
    | none, _ => return list

/-- Takes the end of the arguments. -/
def Reader.finish (r : Reader) : Except Stop Options :=
  match r.awaiting with
  | some setting => throw (.refused (.missingValue setting))
  | none => if r.options.lists.isEmpty then throw (.refused .noLists) else return r.options

/-- The options that the arguments give. -/
def Options.ofArguments (arguments : List String) : Except Stop Options := do
  let reader ← arguments.foldlM Reader.step {}
  reader.finish

end PageSelection.Command
