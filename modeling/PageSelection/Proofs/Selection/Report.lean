import PageSelection.Proofs.Document.Lines
import PageSelection.Proofs.RangeList.Reach
import PageSelection.Proofs.Selection.FromText
import PageSelection.Selection.Report

/-!
# Reports point into their text

The label of a diagnostic has a span, and a person is shown what stands there. That only works if
the span lies in the text that the diagnostic is about, begins and ends between characters, and if
its ends can be looked up. All spans of errors are spans of something: a token, an item, the empty
end of the text, or all of it. So each error comes with a division of its text into what stands in
front of the span, in it, and behind it (`Span.Marks`), and everything else follows from that.

* `marks_of_stops` is the case of a fault, which stands at a token or at the end of the text;
* `marks_of_mem_items` is the case of an item, which is a range list itself;
* `exists_label` combines them, and `diagnostic_resolves` adds that the label can be looked up.
-/

namespace PageSelection

open Text (byteLength byteLength_append)

/-! ### Spans of characters -/

/-- The span is that of the characters `own` somewhere in the text `cs`. -/
def Span.Marks (span : Span) (cs own : List Char) : Prop :=
  ∃ before after, cs = before ++ (own ++ after) ∧
    span = ⟨byteLength before, byteLength before + byteLength own⟩

namespace Span.Marks

variable {span : Span} {cs own : List Char}

theorem start_le (h : span.Marks cs own) : span.start ≤ span.stop := by
  obtain ⟨before, after, -, rfl⟩ := h
  exact Nat.le_add_right _ _

theorem stop_le (h : span.Marks cs own) : span.stop ≤ byteLength cs := by
  obtain ⟨before, after, rfl, rfl⟩ := h
  rw [byteLength_append, byteLength_append, ← Nat.add_assoc]
  exact Nat.le_add_right _ _

theorem isBoundary_start (h : span.Marks cs own) : Text.isBoundary cs span.start = true := by
  obtain ⟨before, after, rfl, rfl⟩ := h
  exact Text.isBoundary_byteLength before _

theorem isBoundary_stop (h : span.Marks cs own) : Text.isBoundary cs span.stop = true := by
  obtain ⟨before, after, rfl, rfl⟩ := h
  rw [← List.append_assoc, ← byteLength_append]
  exact Text.isBoundary_byteLength (before ++ own) after

theorem slice?_eq (h : span.Marks cs own) : Text.slice? cs span.start span.stop = some own := by
  obtain ⟨before, after, rfl, rfl⟩ := h
  exact Text.slice?_middle before own after

/-- The span of a whole text. -/
theorem whole (cs : List Char) : (⟨0, byteLength cs⟩ : Span).Marks cs cs :=
  ⟨[], [], by rw [List.nil_append, List.append_nil], by rw [Text.byteLength_nil, Nat.zero_add]⟩

/-- The empty span at the end of a text. -/
theorem point_byteLength (cs : List Char) : (Span.point (byteLength cs)).Marks cs [] :=
  ⟨cs, [], by rw [List.append_nil, List.append_nil], rfl⟩

/-- Characters without a line feed begin and end on one line. -/
theorem lineIndex_eq {d : Document} (h : span.Marks d.text.toList own) (hown : '\n' ∉ own) :
    d.lineIndex span.start = d.lineIndex span.stop := by
  obtain ⟨before, after, htext, rfl⟩ := h
  exact (Document.lineIndex_congr htext hown).symm

end Span.Marks

/-! ### Offsets of a document -/

/-- What it takes to show an offset of a document: the search for its line does not end in front of
the first one, the line that is found reaches as far as the offset, and a line number and a column
number come of it. -/
structure Document.Resolves (d : Document) (offset : Nat) : Prop where
  search : Search.run (compare · offset) (lineStarts d.text.toList).toArray ≠ .missing 0
  line : ∃ line, d.lineSpan (d.lineIndex offset) = .ok line ∧
    line.start ≤ offset ∧ offset ≤ line.stop
  location : ∃ column, d.location offset = .ok ⟨d.lineIndex offset + 1, column⟩

/-- Every offset within the text resolves. -/
theorem Document.resolves {d : Document} {offset : Nat}
    (h : offset ≤ byteLength d.text.toList) : d.Resolves offset := by
  refine ⟨run_lineStarts_ne _ _, ?_, exists_location d offset⟩
  obtain ⟨line, hline, hstart, hstop⟩ := exists_lineSpan d offset
  refine ⟨line, hline, hstart, ?_⟩
  rcases hstop with hlt | ⟨heq, -⟩
  · exact Nat.le_of_lt hlt
  · rw [heq]
    exact h

/-! ### Errors and their spans -/

namespace RangeList

/-- The fault is that of a token of this kind. -/
inductive Fault.Blames (kind : Token.Kind) : Fault → Prop
  | unexpected (expected : Expectation) : Blames kind (.unexpected expected kind)
  | overflow {digits : Span} (hkind : kind = .number digits) : Blames kind .overflow

theorem Phase.Refuses.blames {text : List Char} {phase : Phase} {kind : Token.Kind} {span : Span}
    {fault : Fault} (h : phase.Refuses text ⟨kind, span⟩ fault) : fault.Blames kind := by
  cases h with
  | overflow _ _ => exact .overflow rfl
  | noNumber _ _ => exact .unexpected .number
  | noComma _ _ _ => exact .unexpected .commaOrEnd

/-- **A fault stands at a token or at the end.** There is no line feed in it. -/
theorem marks_of_stops {cs : List Char} {e : Error} (h : Stops cs e) :
    ∃ own, e.span.Marks cs own ∧ '\n' ∉ own ∧
      ((own ≠ [] ∧ ∃ kind, ⟨kind, e.span⟩ ∈ Token.scan none 0 cs ∧ e.fault.Blames kind) ∨
        own = [] ∧ e = ⟨.endOfText, .point (byteLength cs)⟩) := by
  cases h with
  | @atToken before own after items next token fault htext _ hown _ hspan htoken hrefuses =>
    refine ⟨own, ⟨before, after, htext, hspan⟩, fun hfeed => ?_,
      .inl ⟨hown.ne_nil, token.kind, htoken, hrefuses.blames⟩⟩
    -- a line feed is a blank, and those are not in tokens
    have hblank : Text.isBlank '\n' = true := by decide
    rw [hown.not_isBlank hfeed] at hblank
    cases hblank
  | atEnd _ _ _ => exact ⟨[], .point_byteLength cs, List.not_mem_nil, .inr ⟨rfl, rfl⟩⟩

/-- **An item stands at a range list,** of which it is the only item. -/
theorem marks_of_mem_items {text : String} {items : List Item} (h : parse text = .ok items)
    {item : Item} (hitem : item ∈ items) :
    ∃ own, item.span.Marks text.toList own ∧
      parse (String.ofList own) = .ok [⟨item.bounds, ⟨0, byteLength own⟩⟩] := by
  obtain ⟨before, own, after, htext, hown⟩ := (parse_eq_ok_iff.mp h).exists_split hitem
  rw [List.append_assoc] at htext
  exact ⟨own, ⟨before, after, htext, hown.span_eq⟩, parse_eq_ok_iff.mpr hown.derives⟩

end RangeList

namespace Selection

/-- What the characters `own` under the label of an error are, which has the span `span` in the
document. These are all errors that a text can have. -/
inductive Error.Marked (d : Document) (span : Span) (own : List Char) : Error → Prop
  /-- A fault is on one line. It is shown at the token that it is about, or at the end of the
  text. -/
  | fault {fault : RangeList.Fault} (hfeed : '\n' ∉ own)
      (hline : d.lineIndex span.start = d.lineIndex span.stop)
      (hplace : (own ≠ [] ∧ ∃ kind, ⟨kind, span⟩ ∈ Token.ofText d.text ∧ fault.Blames kind) ∨
        own = [] ∧ fault = .endOfText ∧ span = .point (byteLength d.text.toList)) :
      Marked d span own (.set (.malformed ⟨fault, span⟩))
  /-- A page below 1 is shown at a range list with one item, which is in order and begins with
  0. -/
  | pageBelowOne {bounds : Bounds}
      (hitem : RangeList.parse (String.ofList own) = .ok [⟨bounds, ⟨0, byteLength own⟩⟩])
      (hlow : bounds.low = 0) (hhigh : 0 ≤ bounds.high) :
      Marked d span own (.pageBelowOne 0 (some span))
  /-- That no page is selected is said of the whole text. -/
  | empty (hown : own = d.text.toList) : Marked d span own .empty

/-- Every error has one label, which marks some characters of the text. -/
theorem exists_label {d : Document} {e : Error} (h : ofText d.text = .error e) (id : Document.Id) :
    ∃ (message : String) (span : Span) (own : List Char),
      (e.diagnostic id d.text).labels = [⟨.primary, id, span, message⟩] ∧
      span.Marks d.text.toList own ∧ e.Marked d span own := by
  rcases ofText_eq_error h with
    ⟨⟨fault, span⟩, hparse, rfl⟩ | rfl | ⟨items, hparse, item, hitem, hordered, hlow, rfl⟩
  · -- a fault, which stands where the reading stops
    obtain ⟨own, hmarks, hfeed, hown⟩ :=
      RangeList.marks_of_stops (RangeList.stops_of_parse_error hparse)
    refine ⟨fault.label, span, own, rfl, hmarks, .fault hfeed (hmarks.lineIndex_eq hfeed) ?_⟩
    rcases hown with htoken | ⟨hnil, hend⟩
    · exact .inl htoken
    · cases hend
      exact .inr ⟨hnil, rfl, rfl⟩
  · -- nothing is selected, which is said of the whole text
    exact ⟨_, _, d.text.toList, rfl, .whole _, .empty rfl⟩
  · obtain ⟨own, hmarks, hown⟩ := RangeList.marks_of_mem_items hparse hitem
    refine ⟨_, item.span, own, rfl, hmarks, .pageBelowOne hown hlow ?_⟩
    -- the item is in order, so its upper number is not below the lower one, which is 0
    rw [← hlow, Int32.le_iff_toInt_le, ← Int.not_lt, ← Bounds.isReversed_iff]
    exact hordered

/-- **What the diagnostic of an error shows,** when the text with the error is the document `d` of a
collection: the characters `own`, under `label`. -/
structure Error.Shows (e : Error) (ds : Documents) (id : Document.Id) (d : Document)
    (label : Diagnostic.Label) (own : List Char) : Prop where
  /-- There is one label. -/
  labels : (e.diagnostic id d.text).labels = [label]
  /-- It is a primary one. -/
  role : label.role = .primary
  /-- It is on this document. -/
  document : label.document = id
  /-- Its span does not end before it begins. -/
  ordered : label.span.start ≤ label.span.stop
  /-- Its span lies in the text. -/
  inside : label.span.stop ≤ byteLength d.text.toList
  /-- Its span begins between characters. -/
  start_boundary : Text.isBoundary d.text.toList label.span.start = true
  /-- Its span ends between characters. -/
  stop_boundary : Text.isBoundary d.text.toList label.span.stop = true
  /-- The characters are those under its span. -/
  slice : Text.slice? d.text.toList label.span.start label.span.stop = some own
  /-- The document is found by the label. -/
  found : ds.find label.document = .ok d
  /-- Line and column of the start can be looked up. -/
  start_resolves : d.Resolves label.span.start
  /-- Line and column of the end can be looked up. -/
  stop_resolves : d.Resolves label.span.stop
  /-- The characters are those that the error is about. -/
  marked : e.Marked d label.span own

/-- **Diagnostics resolve.** A text that selects nothing, and is a document of a collection, has a
diagnostic with one label, which can be shown: its span is a slice of the text, both ends of it can
be looked up, and what stands there is what the error is about. -/
theorem diagnostic_resolves {ds : Documents} {id : Document.Id} {d : Document} {e : Error}
    (hd : ds.get? id = some d) (he : ofText d.text = .error e) :
    ∃ (label : Diagnostic.Label) (own : List Char), e.Shows ds id d label own := by
  obtain ⟨message, span, own, hlabels, hmarks, hmarked⟩ := exists_label he id
  refine ⟨⟨.primary, id, span, message⟩, own, ?_⟩
  exact {
    labels := hlabels
    role := rfl
    document := rfl
    ordered := hmarks.start_le
    inside := hmarks.stop_le
    start_boundary := hmarks.isBoundary_start
    stop_boundary := hmarks.isBoundary_stop
    slice := hmarks.slice?_eq
    found := by
      unfold Documents.find
      rw [hd]
      rfl
    start_resolves := Document.resolves (Nat.le_trans hmarks.start_le hmarks.stop_le)
    stop_resolves := Document.resolves hmarks.stop_le
    marked := hmarked }

/-- A character of two bytes on the second line, behind a blank of three bytes, stands where a
number is missed. -/
theorem diagnostic_resolves_on_second_line :
    ofText "7,\n\u2003é" =
        .error (.set (.malformed ⟨.unexpected .number (.unexpected 'é'), ⟨6, 8⟩⟩)) ∧
      Text.isBoundary "7,\n\u2003é".toList 6 = true ∧
      (⟨"list", "7,\n\u2003é"⟩ : Document).Resolves 6 ∧
      (⟨"list", "7,\n\u2003é"⟩ : Document).Resolves 8 := by
  have hfault : ofText "7,\n\u2003é" =
      .error (.set (.malformed ⟨.unexpected .number (.unexpected 'é'), ⟨6, 8⟩⟩)) := by rfl
  obtain ⟨label, own, hshows⟩ :=
    diagnostic_resolves (Documents.get?_add_self .empty ⟨"list", "7,\n\u2003é"⟩) hfault
  obtain rfl := List.singleton_inj.mp hshows.labels
  exact ⟨hfault, hshows.start_boundary, hshows.start_resolves, hshows.stop_resolves⟩

end Selection

end PageSelection
