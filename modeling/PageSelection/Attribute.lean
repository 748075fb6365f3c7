/-!
# Print attributes

Values that describe how a document is to be printed are grouped by category, so that at most one
value of each category applies to a document or a job. Each category has a registered name.
-/

namespace PageSelection

/-- The categories of print attributes. -/
inductive Category
  /-- Which pages of a document are printed. -/
  | pageRanges
  deriving DecidableEq, Repr

/-- The registered name of a category. -/
def Category.name : Category → String
  | pageRanges => "page-ranges"

/-- The types whose values are print attributes. -/
class PrintAttribute (α : Type) where
  /-- The category under which a value is grouped. -/
  category : α → Category

/-- The name under which a value is registered, which is that of its category. -/
def PrintAttribute.name {α : Type} [PrintAttribute α] (value : α) : String :=
  (category value).name

end PageSelection
