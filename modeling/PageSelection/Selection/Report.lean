import PageSelection.Diagnostic.Basic
import PageSelection.Selection.Basic

/-!
# Reporting why a text selects no pages

Each error of a selection has a diagnostic with one primary label. A fault in the list is shown
where it is, and so is an item below page 1. The label of any other error covers the whole text.
-/

namespace PageSelection

/-- The words at the place of a fault. -/
def RangeList.Fault.label : Fault → String
  | unexpected expected _ => "expected " ++ expected.describe
  | endOfText => "list ends here"
  | overflow => "too large"

/-- The diagnostic of a text that is no range list. -/
def RangeList.Error.diagnostic (e : Error) (document : Document.Id) : Diagnostic :=
  .errorAt document e.span "malformed page range list" e.fault.label [e.fault.describe]

/-- The diagnostic of a failure to select pages by `text`, which is stored as `document`. -/
def Selection.Error.diagnostic (e : Error) (document : Document.Id) (text : String) :
    Diagnostic :=
  let whole : Span := ⟨0, Text.byteLength text.toList⟩
  match e with
  | set (.malformed error) => error.diagnostic document
  | pageBelowOne _ (some span) =>
    .errorAt document span e.message "pages are numbered from 1" []
  | empty =>
    .errorAt document whole e.message "selects no pages"
      ["ranges whose lower bound exceeds their upper bound are empty"]
  | _ => .errorAt document whole e.message "" []

end PageSelection
