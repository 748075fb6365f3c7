import PageSelection.Attribute
import PageSelection.Command.Console
import PageSelection.Command.Input
import PageSelection.Command.Options
import PageSelection.Command.Plain
import PageSelection.Command.Run
import PageSelection.Diagnostic.Basic
import PageSelection.Diagnostic.Render
import PageSelection.Document
import PageSelection.Interval
import PageSelection.IntervalSet.Basic
import PageSelection.IntervalSet.Insert
import PageSelection.IntervalSet.Member
import PageSelection.IntervalSet.Query
import PageSelection.IntervalSet.Text
import PageSelection.Main
import PageSelection.Numeral
import PageSelection.RangeList.Basic
import PageSelection.RangeList.Parser
import PageSelection.Search
import PageSelection.Selection.Basic
import PageSelection.Selection.Encoding
import PageSelection.Selection.Report
import PageSelection.Span
import PageSelection.Text.Blank
import PageSelection.Text.Bytes
import PageSelection.Text.CodeRanges
import PageSelection.Text.Graphic
import PageSelection.Text.Quoted
import PageSelection.Token.Basic
import PageSelection.Token.Lexer
import PageSelection.Proofs.Document.Lines
import PageSelection.Proofs.Document.Location
import PageSelection.Proofs.Document.Partition
import PageSelection.Proofs.IntervalSet.Canonical
import PageSelection.Proofs.IntervalSet.Construction
import PageSelection.Proofs.IntervalSet.Ends
import PageSelection.Proofs.Numeral
import PageSelection.Proofs.Numeral.PlaceValue
import PageSelection.Proofs.OrderIndependence
import PageSelection.Proofs.RangeList.Grammar
import PageSelection.Proofs.RangeList.LeftmostError
import PageSelection.Proofs.RangeList.Phase
import PageSelection.Proofs.RangeList.Reach
import PageSelection.Proofs.RangeList.Reading
import PageSelection.Proofs.RangeList.Relocation
import PageSelection.Proofs.RangeList.Comma
import PageSelection.Proofs.BlankInsertion
import PageSelection.Proofs.ShortestText
import PageSelection.Proofs.RoundTrip
import PageSelection.Proofs.Search
import PageSelection.Proofs.Selection.Classification
import PageSelection.Proofs.Selection.FromText
import PageSelection.Proofs.Selection.Report
import PageSelection.Proofs.Text.Slice
import PageSelection.Proofs.Token.Cut
import PageSelection.Proofs.Token.Division
import PageSelection.Proofs.Checked.Basic
import PageSelection.Proofs.Checked.Insertion
import PageSelection.Proofs.Checked.Reading
import PageSelection.Proofs.Checked.NoFailure
import PageSelection.Proofs.Command.Agreement
import PageSelection.Proofs.Command.Plain
import PageSelection.Proofs.Token.Spans
import PageSelection.Proofs.IntervalSet.Enumeration
import PageSelection.Proofs.IntervalSet.Successor
import PageSelection.Proofs.IntervalSet.Membership
