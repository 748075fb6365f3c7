import Mathlib.Data.List.Chain
import PageSelection.Proofs.Document.Lines
import PageSelection.Proofs.Text.Encoding

/-!
# The lines of a document partition it

`Divides` says what the lines of a text are: each is ended by a line feed, which belongs to it, but
for the last one, which has none. A line that is empty can only be the last. Nothing is said there
of offsets.

Written one behind the other, the lines stand under certain spans (`spansFrom`), and these are the
spans that are looked up. For each begins at a start of a line (`map_start_spansFrom`), ends where
the next one begins, and the last ends with the text; and that is all that a look-up goes by
(`lineSpan_of_map_start`).
-/

namespace PageSelection.Document

open Text

/-! ### Lines -/

/-- The text is divided into these lines behind each of its line feeds. -/
inductive Divides : List Char → List (List Char) → Prop
  | last {line : List Char} (hfeed : '\n' ∉ line) : Divides line [line]
  | feed {line rest : List Char} {lines : List (List Char)} (hfeed : '\n' ∉ line)
      (hrest : Divides rest lines) : Divides (line ++ '\n' :: rest) ((line ++ ['\n']) :: lines)

namespace Divides

/-- Every text can be divided. -/
theorem exists_lines (cs : List Char) : ∃ lines, Divides cs lines := by
  induction cs with
  | nil => exact ⟨_, .last List.not_mem_nil⟩
  | cons c cs ih =>
    obtain ⟨lines, hlines⟩ := ih
    by_cases hc : c = '\n'
    · -- a line feed is a line by itself, in front of those of the rest
      subst hc
      exact ⟨_, .feed List.not_mem_nil hlines⟩
    · -- any other character belongs to the first line of the rest
      have hcons : ∀ line : List Char, '\n' ∉ line → '\n' ∉ c :: line := by
        intro line hfeed hmem
        rcases List.mem_cons.mp hmem with heq | hmem
        · exact hc heq.symm
        · exact hfeed hmem
      cases hlines with
      | last hfeed => exact ⟨_, .last (hcons _ hfeed)⟩
      | feed hfeed hrest => exact ⟨_, .feed (hcons _ hfeed) hrest⟩

variable {cs : List Char} {lines : List (List Char)}

theorem ne_nil (h : Divides cs lines) : lines ≠ [] := by
  cases h <;> exact List.cons_ne_nil _ _

/-- The lines make up the text. -/
theorem flatten_eq (h : Divides cs lines) : lines.flatten = cs := by
  induction h with
  | last _ => exact List.flatten_singleton
  | feed _ _ ih => rw [List.flatten_cons, ih, List.append_assoc, List.singleton_append]

/-- There is one line more than there are line feeds. -/
theorem length_eq (h : Divides cs lines) : lines.length = 1 + (bytes cs).count 10 := by
  induction h with
  | last hfeed =>
    rw [List.count_eq_zero.mpr (mt lineFeed_mem_bytes.mp hfeed)]
    rfl
  | @feed line rest lines hfeed _ ih =>
    have hbytes : bytes (line ++ '\n' :: rest) = bytes line ++ 10 :: bytes rest := by
      rw [bytes_append]
      rfl
    rw [hbytes, List.count_append, List.count_eq_zero.mpr (mt lineFeed_mem_bytes.mp hfeed),
      List.count_cons_self, List.length_cons, ih]
    omega

/-- Every line but the last one has one line feed, at its end. -/
theorem ended (h : Divides cs lines) {line : List Char} (hline : line ∈ lines.dropLast) :
    (bytes line).count 10 = 1 ∧ (bytes line).getLast? = some 10 := by
  induction h with
  | last _ => cases hline
  | @feed first rest lines hfeed hrest ih =>
    rw [List.dropLast_cons_of_ne_nil hrest.ne_nil] at hline
    rcases List.mem_cons.mp hline with rfl | hline
    · have hbytes : bytes (first ++ ['\n']) = bytes first ++ [10] := bytes_append first ['\n']
      rw [hbytes, List.count_append, List.count_eq_zero.mpr (mt lineFeed_mem_bytes.mp hfeed)]
      exact ⟨rfl, List.getLast?_concat⟩
    · exact ih hline

/-- The last line has no line feed. It is empty just if there is nothing behind the last line feed
of the text. -/
theorem unended (h : Divides cs lines) {line : List Char} (hline : line ∈ lines.getLast?) :
    10 ∉ bytes line ∧ (line = [] ↔ cs = [] ∨ cs.getLast? = some '\n') := by
  induction h with
  | @last own hfeed =>
    obtain rfl : own = line := Option.some.inj hline
    refine ⟨mt lineFeed_mem_bytes.mp hfeed, .inl, ?_⟩
    rintro (hnil | hlast)
    · exact hnil
    · exact absurd (List.mem_of_getLast? hlast) hfeed
  | @feed first rest lines hfeed hrest ih =>
    -- the last line is that of the rest, which is empty if the text ends with this line feed
    obtain ⟨next, lines, rfl⟩ := List.exists_cons_of_ne_nil hrest.ne_nil
    rw [List.getLast?_cons_cons] at hline
    obtain ⟨hnone, hempty⟩ := ih hline
    refine ⟨hnone, hempty.trans ?_⟩
    cases rest with
    | nil => simp
    | cons c rest => simp

end Divides

/-! ### Where the lines stand -/

/-- The spans of lines that stand one behind the other, from byte `pos` on. -/
def spansFrom (pos : Nat) : List (List Char) → List Span
  | [] => []
  | line :: lines => ⟨pos, pos + byteLength line⟩ :: spansFrom (pos + byteLength line) lines

theorem length_spansFrom (pos : Nat) (lines : List (List Char)) :
    (spansFrom pos lines).length = lines.length := by
  induction lines generalizing pos with
  | nil => rfl
  | cons line lines ih => rw [spansFrom, List.length_cons, List.length_cons, ih]

theorem start_of_mem_head?_spansFrom {pos : Nat} {lines : List (List Char)} {span : Span}
    (h : span ∈ (spansFrom pos lines).head?) : span.start = pos := by
  cases lines with
  | nil => cases h
  | cons line lines => cases h; rfl

theorem isChain_spansFrom (pos : Nat) (lines : List (List Char)) :
    (spansFrom pos lines).IsChain fun span next => next.start = span.stop := by
  induction lines generalizing pos with
  | nil => exact .nil
  | cons line lines ih =>
    rw [spansFrom, List.isChain_cons]
    exact ⟨fun next hnext => start_of_mem_head?_spansFrom hnext, ih _⟩

theorem stop_of_mem_getLast?_spansFrom {pos : Nat} {lines : List (List Char)} {span : Span}
    (h : span ∈ (spansFrom pos lines).getLast?) :
    span.stop = pos + byteLength lines.flatten := by
  induction lines generalizing pos with
  | nil => cases h
  | cons line lines ih =>
    rw [List.flatten_cons, byteLength_append, ← Nat.add_assoc]
    cases lines with
    | nil =>
      cases h
      rfl
    | cons line' lines => exact ih h

/-- A line with characters has bytes. -/
theorem start_lt_stop_of_mem_spansFrom {pos : Nat} {lines : List (List Char)}
    (h : ∀ line ∈ lines, line ≠ []) {span : Span} (hspan : span ∈ spansFrom pos lines) :
    span.start < span.stop := by
  induction lines generalizing pos with
  | nil => cases hspan
  | cons line lines ih =>
    rcases List.mem_cons.mp hspan with rfl | hspan
    · exact Nat.lt_add_of_pos_right (byteLength_pos (h line List.mem_cons_self))
    · exact ih (fun line' hline' => h line' (List.mem_cons_of_mem _ hline')) hspan

theorem dropLast_spansFrom (pos : Nat) (lines : List (List Char)) :
    (spansFrom pos lines).dropLast = spansFrom pos lines.dropLast := by
  induction lines generalizing pos with
  | nil => rfl
  | cons line lines ih =>
    cases lines with
    | nil => rfl
    | cons line' lines => exact congrArg _ (ih _)

/-- What stands under the spans are the lines. -/
theorem map_slice?_spansFrom (before : List Char) (lines : List (List Char)) :
    (spansFrom (byteLength before) lines).map
        (fun span => slice? (before ++ lines.flatten) span.start span.stop) =
      lines.map some := by
  induction lines generalizing before with
  | nil => rfl
  | cons line lines ih =>
    have hrest := ih (before ++ line)
    rw [byteLength_append, List.append_assoc] at hrest
    rw [spansFrom, List.map_cons, List.map_cons, List.flatten_cons, slice?_middle, hrest]

/-- Where there is no line feed, none ends. -/
theorem lineFeedEnds_of_not_mem {line : List Char} (h : '\n' ∉ line) (pos : Nat) :
    lineFeedEnds pos line = [] := by
  rw [← List.length_eq_zero_iff, length_lineFeedEnds, List.count_eq_zero.mpr h]

/-- **The lines stand where lines start.** -/
theorem map_start_spansFrom {cs : List Char} {lines : List (List Char)} (h : Divides cs lines)
    (pos : Nat) : (spansFrom pos lines).map (·.start) = pos :: lineFeedEnds pos cs := by
  induction h generalizing pos with
  | last hfeed =>
    rw [lineFeedEnds_of_not_mem hfeed]
    rfl
  | @feed line rest lines hfeed _ ih =>
    -- the line feed ends where the rest starts
    rw [lineFeedEnds_append, lineFeedEnds_of_not_mem hfeed, List.nil_append, lineFeedEnds,
      if_pos rfl, spansFrom, List.map_cons, ih, byteLength_append, ← Nat.add_assoc]
    rfl

/-! ### The partition -/

/-- These spans and these lines of a text belong together, and the lines partition the text. -/
structure Partition (text : List Char) (spans : List Span) (lines : List (List Char)) : Prop where
  /-- The first line starts where the text does. -/
  first : ∀ span ∈ spans.head?, span.start = 0
  /-- Every other line starts where the one before it ends. -/
  next : spans.IsChain fun span next => next.start = span.stop
  /-- The last line ends where the text does. -/
  last : ∀ span ∈ spans.getLast?, span.stop = byteLength text
  /-- Lines start and end between characters. -/
  boundaries : ∀ span ∈ spans,
    isBoundary text span.start = true ∧ isBoundary text span.stop = true
  /-- Only the last line can be empty. -/
  nonempty : ∀ span ∈ spans.dropLast, span.start < span.stop
  /-- The spans are those of the lines. -/
  slices : spans.map (fun span => slice? text span.start span.stop) = lines.map some
  /-- Every line but the last one has one line feed, which is its last byte. -/
  ended : ∀ line ∈ lines.dropLast, (bytes line).count 10 = 1 ∧ (bytes line).getLast? = some 10
  /-- The last line has no line feed. It is empty just if the text is, or ends with a line feed. -/
  unended : ∀ line ∈ lines.getLast?,
    10 ∉ bytes line ∧ (line = [] ↔ text = [] ∨ text.getLast? = some '\n')
  /-- Together, the lines are the text. -/
  flatten : lines.flatten = text

/-- **The lines of a text partition it,** under the spans that they stand under. -/
theorem partition_spansFrom {cs : List Char} {lines : List (List Char)} (h : Divides cs lines) :
    Partition cs (spansFrom 0 lines) lines := by
  have hslices := map_slice?_spansFrom [] lines
  rw [byteLength_nil, List.nil_append, h.flatten_eq] at hslices
  exact {
    first := fun span => start_of_mem_head?_spansFrom
    next := isChain_spansFrom 0 lines
    last := by
      intro span hspan
      rw [stop_of_mem_getLast?_spansFrom hspan, h.flatten_eq, Nat.zero_add]
    boundaries := by
      intro span hspan
      have hslice : slice? cs span.start span.stop ∈ lines.map some := by
        rw [← hslices]
        exact List.mem_map_of_mem hspan
      obtain ⟨line, -, hline⟩ := List.mem_map.mp hslice
      exact isBoundary_of_slice? hline.symm
    nonempty := by
      intro span hspan
      rw [dropLast_spansFrom] at hspan
      refine start_lt_stop_of_mem_spansFrom (fun line hline => ?_) hspan
      -- without a byte, there is no line feed at the end
      rintro rfl
      exact absurd (h.ended hline).2 nofun
    slices := hslices
    ended := fun line => h.ended
    unended := fun line => h.unended
    flatten := h.flatten_eq }

/-! ### Looking lines up -/

/-- Behind the last line there is none. -/
theorem lineSpan_of_le {d : Document} {index : Nat}
    (h : (lineStarts d.text.toList).length ≤ index) :
    d.lineSpan index = .error (.noLine index ((lineStarts d.text.toList).length - 1)) := by
  simp only [lineSpan, List.getElem?_eq_none h]
  rfl

/-- **What a look-up goes by.** Spans that begin where lines start, follow on one another and end
with the text are those that are found. -/
theorem lineSpan_of_map_start {d : Document} {spans : List Span}
    (hstarts : spans.map (·.start) = lineStarts d.text.toList)
    (hchain : spans.IsChain fun span next => next.start = span.stop)
    (hlast : ∀ span ∈ spans.getLast?, span.stop = byteLength d.text.toList)
    {index : Nat} (hindex : index < spans.length) : d.lineSpan index = .ok spans[index] := by
  have hlength : (lineStarts d.text.toList).length = spans.length := by
    rw [← hstarts, List.length_map]
  rw [lineSpan_of_lt (hlength.symm ▸ hindex)]
  simp only [← hstarts, List.getElem_map, List.getElem?_map]
  by_cases hnext : index + 1 < spans.length
  · rw [List.getElem?_eq_getElem hnext, Option.map_some, Option.getD_some,
      List.isChain_iff_getElem.mp hchain index hnext]
  · -- the line is the last one
    have hpred : spans.length - 1 = index := by omega
    have hspan : spans.getLast? = some spans[index] := by
      rw [List.getLast?_eq_getElem?, hpred, List.getElem?_eq_getElem hindex]
    rw [List.getElem?_eq_none (Nat.not_lt.mp hnext), Option.map_none, Option.getD_none,
      ← hlast _ hspan]

/-- **The lines partition the text of every document.** There is one more than there are line feeds;
they are found under their indices, and under no others. -/
theorem lines_partition (d : Document) :
    (∀ k, 1 + (bytes d.text.toList).count 10 ≤ k →
      d.lineSpan k = .error (.noLine k ((bytes d.text.toList).count 10))) ∧
    ∃ spans lines, spans.length = 1 + (bytes d.text.toList).count 10 ∧
      (∀ k (hk : k < spans.length), d.lineSpan k = .ok spans[k]) ∧
      Partition d.text.toList spans lines := by
  obtain ⟨lines, hlines⟩ := Divides.exists_lines d.text.toList
  have hpartition := partition_spansFrom hlines
  have hstarts : (spansFrom 0 lines).map (·.start) = lineStarts d.text.toList :=
    map_start_spansFrom hlines 0
  have hlength : (spansFrom 0 lines).length = 1 + (bytes d.text.toList).count 10 := by
    rw [length_spansFrom, hlines.length_eq]
  refine ⟨fun k hk => ?_, spansFrom 0 lines, lines, hlength,
    fun k => lineSpan_of_map_start hstarts hpartition.next hpartition.last, hpartition⟩
  have hcount : (lineStarts d.text.toList).length = 1 + (bytes d.text.toList).count 10 := by
    rw [← hstarts, List.length_map, hlength]
  rw [lineSpan_of_le (hcount.symm ▸ hk), hcount, Nat.add_sub_cancel_left]

/-- Three lines, of which the second has a character of two bytes and the last is empty. -/
theorem lines_partition_behind_last_feed :
    (⟨"stdin", "1\né\n"⟩ : Document).lineSpan 3 = .error (.noLine 3 2) ∧
      ∃ lines, Partition "1\né\n".toList [⟨0, 2⟩, ⟨2, 5⟩, ⟨5, 5⟩] lines := by
  obtain ⟨hnone, spans, lines, hlength, hfound, hpartition⟩ :=
    lines_partition ⟨"stdin", "1\né\n"⟩
  obtain ⟨first, second, third, rfl⟩ := List.length_eq_three.mp hlength
  obtain rfl : (⟨0, 2⟩ : Span) = first := Except.ok.inj (hfound 0 (hlength ▸ by decide))
  obtain rfl : (⟨2, 5⟩ : Span) = second := Except.ok.inj (hfound 1 (hlength ▸ by decide))
  obtain rfl : (⟨5, 5⟩ : Span) = third := Except.ok.inj (hfound 2 (hlength ▸ by decide))
  exact ⟨hnone 3 (by decide), lines, hpartition⟩

end PageSelection.Document
