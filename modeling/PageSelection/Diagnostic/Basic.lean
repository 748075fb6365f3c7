import PageSelection.Document

/-!
# Diagnostics

A diagnostic tells a person what is wrong with a document: a message, the places it is about, each
under a `Label`, and notes that add to the message without a place of their own.
-/

namespace PageSelection

namespace Diagnostic

/-- How grave a diagnostic is. -/
inductive Severity
  | error
  | warning
  deriving DecidableEq, Repr

/-- The word for a severity. -/
def Severity.word : Severity → String
  | error => "error"
  | warning => "warning"

/-- The part that a labelled place plays. -/
inductive Role
  /-- The place that caused the diagnostic. -/
  | primary
  /-- A place that helps to understand it. -/
  | secondary
  deriving DecidableEq, Repr

/-- A place in a document, with a few words on it. -/
structure Label where
  role : Role
  document : Document.Id
  span : Span
  message : String
  deriving DecidableEq, Repr

end Diagnostic

/-- A message about a document. -/
structure Diagnostic where
  severity : Diagnostic.Severity
  message : String
  labels : List Diagnostic.Label
  notes : List String
  deriving DecidableEq, Repr

/-- The diagnostic of an error at a single place. -/
def Diagnostic.errorAt (document : Document.Id) (span : Span) (message label : String)
    (notes : List String) : Diagnostic where
  severity := .error
  message := message
  labels := [⟨.primary, document, span, label⟩]
  notes := notes

end PageSelection
