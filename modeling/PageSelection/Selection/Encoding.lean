import PageSelection.Selection.Basic

/-!
# Selections as data

In a data format a selection is a string, the range list of its pages. `toDatum` and `ofDatum`
go back and forth. A string is read like any other range list; data of another kind is refused,
and the error says what was found instead.
-/

namespace PageSelection

/-- The values of a self-describing data format. -/
inductive Datum
  | null
  | bool (value : Bool)
  | integer (value : Int)
  | float (value : Float)
  | string (value : String)
  | sequence (items : List Datum)
  | map (entries : List (String × Datum))

namespace Selection

/-- Why a value is no selection. -/
inductive DecodeError
  /-- The value is not a string. -/
  | notString (found : Datum)
  /-- The string selects no pages. -/
  | invalid (error : Error)

/-- A selection as a value of a data format. -/
def toDatum (s : Selection) : Datum := .string (toString s)

/-- The selection that a value stands for. -/
def ofDatum : Datum → Except DecodeError Selection
  | .string text => (ofText text).mapError .invalid
  | found => throw (.notString found)

end Selection

end PageSelection
