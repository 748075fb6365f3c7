import PageSelection.Command.Run
import PageSelection.Proofs.Command.Inputs
import PageSelection.Proofs.Command.Plain

/-!
# Inputs do not affect each other

A run handles its inputs in one loop, which carries two streams of output, the collection of
documents and a mark of failure from one input to the next. What a step adds is still a matter of
its own input. A selection is made from the text of the input, and a block of answers from that and
the options. A diagnostic is rendered with the collection, but a console that can be relied on
renders the same text for it in any other collection (`Console.Faithful.isComplaint_complaint`).

Hence the outcome is put together from what the inputs make of themselves, by induction on the
inputs (`stdout_handle`, `stderr_handle`, `status_handle`), and a whole run is that of the inputs
which its lists and its lines give (`run_isolates_inputs`).
-/

namespace PageSelection.Command

/-! ### One input -/

/-- What is answered for a selection is asked by the options, whatever the lists beside it. -/
theorem block_congr (o : Options) (lists : List String) :
    block { o with lists := lists } = block o := rfl

/-- The pages that an input selects. -/
def selection? (input : Document) : Option Selection := (Selection.ofText input.text).toOption

/-- Whether an input selects no pages. -/
def isRejected (input : Document) : Bool := (selection? input).isNone

/-- What goes to standard error when the input is the only one. -/
def complaint (c : Console) (o : Options) (input : Document) : String := (handle c o [input]).stderr

variable {c : Console} {o : Options} {p : Progress} {input : Document}

theorem selection?_of_ok {s : Selection} (h : Selection.ofText input.text = .ok s) :
    selection? input = some s := by
  rw [selection?, h]
  rfl

theorem selection?_of_error {e : Selection.Error} (h : Selection.ofText input.text = .error e) :
    selection? input = none := by
  rw [selection?, h]
  rfl

theorem isRejected_of_ok {s : Selection} (h : Selection.ofText input.text = .ok s) :
    isRejected input = false := by
  rw [isRejected, selection?_of_ok h]
  rfl

theorem isRejected_of_error {e : Selection.Error} (h : Selection.ofText input.text = .error e) :
    isRejected input = true := by
  rw [isRejected, selection?_of_error h]
  rfl

theorem exists_error_of_isRejected (h : isRejected input = true) :
    ∃ e, Selection.ofText input.text = .error e := by
  cases htext : Selection.ofText input.text with
  | ok s =>
    rw [isRejected_of_ok htext] at h
    cases h
  | error e => exact ⟨e, rfl⟩

/-- **A step with pages** adds a block of answers, and nothing else. -/
theorem Progress.step_of_ok {s : Selection} (h : Selection.ofText input.text = .ok s) :
    p.step c o input =
      { p with documents := (p.documents.add input).2, stdout := p.stdout ++ block o s } := by
  unfold step
  simp only [h]

/-- **A step without pages** adds a report to what is complained about, and makes the run fail. -/
theorem Progress.step_of_error {e : Selection.Error} (h : Selection.ofText input.text = .error e) :
    p.step c o input =
      { p with
        documents := (p.documents.add input).2
        stderr := p.stderr ++ c.report o.colouring (p.documents.add input).2
          (e.diagnostic (p.documents.add input).1 input.text)
        failed := true } := by
  unfold step
  simp only [h]

/-- **Rejecting an input.** The complaint about it is the text of its diagnostic, which does not
depend on the collection that the input is in, and names the input. -/
theorem Console.Faithful.isComplaint_complaint (hc : c.Faithful) {e : Selection.Error}
    (h : Selection.ofText input.text = .error e) :
    ∃ span, IsComplaint c o.colouring input e span (complaint c o input) := by
  obtain ⟨span, text, htext⟩ := hc.exists_complaint h o.colouring
  have hcomplaint : complaint c o input = text := by
    unfold complaint handle
    rw [List.foldl_cons, List.foldl_nil, Progress.step_of_error h]
    simp only [report, htext.rendered _ _ (Documents.get?_add_self _ _)]
    exact String.empty_append
  rw [hcomplaint]
  exact ⟨span, htext⟩

/-- What is reported in a step is the complaint about its input. -/
theorem Console.Faithful.report_eq (hc : c.Faithful) {e : Selection.Error}
    (h : Selection.ofText input.text = .error e) :
    c.report o.colouring (p.documents.add input).2
      (e.diagnostic (p.documents.add input).1 input.text) = complaint c o input := by
  obtain ⟨span, hcomplaint⟩ := hc.isComplaint_complaint (o := o) h
  unfold report
  rw [hcomplaint.rendered _ _ (Documents.get?_add_self _ _)]

/-! ### All inputs -/

/-- **What has been handled.** From any progress on, the blocks of the inputs that select pages are
added in order, and the run fails if another input has been among them. -/
theorem Progress.foldl_step (c : Console) (o : Options) (p : Progress) (inputs : List Document) :
    (inputs.foldl (step c o) p).stdout =
        p.stdout ++ String.join ((inputs.filterMap selection?).map (block o)) ∧
      (inputs.foldl (step c o) p).failed = (p.failed || inputs.any isRejected) := by
  induction inputs generalizing p with
  | nil => simp
  | cons input inputs ih =>
    rw [List.foldl_cons]
    obtain ⟨hstdout, hfailed⟩ := ih (p.step c o input)
    rw [hstdout, hfailed]
    cases h : Selection.ofText input.text with
    | ok s =>
      rw [step_of_ok h]
      simp [selection?_of_ok h, isRejected_of_ok h, String.append_assoc]
    | error e =>
      rw [step_of_error h]
      simp [selection?_of_error h, isRejected_of_error h]

/-- **What has been complained about.** From any progress on, the complaints about the inputs that
select no pages are added in order. -/
theorem Progress.stderr_foldl_step (hc : c.Faithful) (o : Options) (p : Progress)
    (inputs : List Document) :
    (inputs.foldl (step c o) p).stderr =
      p.stderr ++ String.join ((inputs.filter isRejected).map (complaint c o)) := by
  induction inputs generalizing p with
  | nil => simp
  | cons input inputs ih =>
    rw [List.foldl_cons, ih]
    cases h : Selection.ofText input.text with
    | ok s =>
      rw [step_of_ok h]
      simp [isRejected_of_ok h]
    | error e =>
      rw [step_of_error h, hc.report_eq h]
      simp [isRejected_of_error h, String.append_assoc]

/-- Standard output is the blocks of the inputs that select pages. -/
theorem stdout_handle (c : Console) (o : Options) (inputs : List Document) :
    (handle c o inputs).stdout = String.join ((inputs.filterMap selection?).map (block o)) := by
  show (inputs.foldl (Progress.step c o) {}).stdout = _
  rw [(Progress.foldl_step c o {} inputs).1]
  exact String.empty_append

/-- Standard error is the complaints about the others. -/
theorem stderr_handle (hc : c.Faithful) (o : Options) (inputs : List Document) :
    (handle c o inputs).stderr = String.join ((inputs.filter isRejected).map (complaint c o)) := by
  show (inputs.foldl (Progress.step c o) {}).stderr = _
  rw [Progress.stderr_foldl_step hc o {} inputs]
  exact String.empty_append

/-- The status tells whether there are others. -/
theorem status_handle (c : Console) (o : Options) (inputs : List Document) :
    (handle c o inputs).status = if inputs.any isRejected then 1 else 0 := by
  unfold handle
  simp only [(Progress.foldl_step c o {} inputs).2, Bool.false_or]

/-! ### A whole run -/

/-- A run on valid input handles what its lists and its lines give. -/
theorem run_of_collected {arguments : List String} {text : List Char} {lines : List (List Char)}
    {inputs : List Document} (h : Options.ofArguments arguments = .ok o)
    (hlines : Text.Lines text lines) (hinputs : Collected lines o.lists inputs) :
    run c arguments (Text.bytes text) = handle c o inputs := by
  unfold run select
  simp only [h, inputs_bytes hlines hinputs]

/-- **The outcome is put together from the single inputs.** -/
structure Isolated (c : Console) (o : Options) (inputs : List Document) (outcome : Outcome) :
    Prop where
  /-- Standard output is the blocks of answers for the inputs that select pages, in their order. -/
  stdout : outcome.stdout = String.join ((inputs.filterMap selection?).map (block o))
  /-- A block depends on what the options ask, and not on the lists. -/
  block_eq : ∀ lists, block { o with lists := lists } = block o
  /-- Standard error is the complaints about all others, in their order. -/
  stderr : outcome.stderr = String.join ((inputs.filter isRejected).map (complaint c o))
  /-- A complaint is the text of the one diagnostic that its input has in whatever collection, and
  names it. -/
  complaints : ∀ input ∈ inputs, isRejected input = true →
    ∃ e span, IsComplaint c o.colouring input e span (complaint c o input)
  /-- The run succeeds if every input selects pages, and fails if not. -/
  status : outcome.status = 0 ∧ (∀ input ∈ inputs, isRejected input = false) ∨
    outcome.status = 1 ∧ ∃ input ∈ inputs, isRejected input = true
  /-- Without an input that is rejected, what goes to standard output is the same. -/
  without : ∀ before input after, inputs = before ++ input :: after → isRejected input = true →
    outcome.stdout = (handle c o (before ++ after)).stdout

/-- What is handled is isolated. -/
theorem isolated_handle (hc : c.Faithful) (o : Options) (inputs : List Document) :
    Isolated c o inputs (handle c o inputs) where
  stdout := stdout_handle c o inputs
  block_eq := block_congr o
  stderr := stderr_handle hc o inputs
  complaints input _ hrejected := by
    obtain ⟨e, he⟩ := exists_error_of_isRejected hrejected
    exact ⟨e, hc.isComplaint_complaint he⟩
  status := by
    rw [status_handle]
    by_cases hany : inputs.any isRejected = true
    · exact .inr ⟨if_pos hany, List.any_eq_true.mp hany⟩
    · refine .inl ⟨if_neg hany, ?_⟩
      simpa using hany
  without := by
    rintro before input after rfl hrejected
    obtain ⟨e, he⟩ := exists_error_of_isRejected hrejected
    have hnone := selection?_of_error he
    rw [stdout_handle, stdout_handle, List.filterMap_append, List.filterMap_cons_none hnone,
      ← List.filterMap_append]

/-- **The inputs of a run do not affect each other.** The console can be relied on, the arguments
are accepted, and standard input is valid. Then its lines and the lists among the arguments give the
inputs, and the outcome of the run is put together from what each of them makes of itself. -/
theorem run_isolates_inputs (hc : c.Faithful) {arguments : List String}
    (h : Options.ofArguments arguments = .ok o) {stdin : List UInt8}
    (hvalid : stdin.toByteArray.IsValidUTF8) :
    ∃ text lines inputs, Text.bytes text = stdin ∧ Text.Lines text lines ∧
      Collected lines o.lists inputs ∧ Isolated c o inputs (run c arguments stdin) := by
  obtain ⟨text, rfl⟩ := Text.isValidUTF8_iff.mp hvalid
  obtain ⟨lines, hlines⟩ := Text.exists_lines text
  obtain ⟨inputs, hinputs⟩ := exists_collected lines o.lists
  refine ⟨text, lines, inputs, rfl, hlines, hinputs, ?_⟩
  rw [run_of_collected h hlines hinputs]
  exact isolated_handle hc o inputs

/-- Two of four inputs select no pages, one of them a line behind a blank line; the others are
answered. -/
theorem run_isolates_two_rejected_inputs :
    (run .plain ["--color", "never", "2", "-", "0-3"] (Text.bytes "1-4\n\n5-2\n".toList)).stdout =
        "page-ranges: 2\npage-ranges: 1-4\n" ∧
      (run .plain ["--color", "never", "2", "-", "0-3"]
          (Text.bytes "1-4\n\n5-2\n".toList)).stderr =
        "error: page ranges must select at least one page\n" ++
        "  ┌─ <stdin:3>:1:1\n" ++
        "  │\n" ++
        "1 │ 5-2\n" ++
        "  │ ^^^ selects no pages\n" ++
        "  │\n" ++
        "  = ranges whose lower bound exceeds their upper bound are empty\n" ++
        "\n" ++
        "error: page value 0 < 1 specified\n" ++
        "  ┌─ <arg 3>:1:1\n" ++
        "  │\n" ++
        "1 │ 0-3\n" ++
        "  │ ^^^ pages are numbered from 1\n" ++
        "\n" ∧
      (run .plain ["--color", "never", "2", "-", "0-3"]
        (Text.bytes "1-4\n\n5-2\n".toList)).status = 1 := by
  have hlines : Text.Lines "1-4\n\n5-2\n".toList ["1-4".toList, [], "5-2".toList] :=
    @Text.Lines.feed "1-4".toList _ _ (by decide) (by decide)
      (@Text.Lines.feed [] _ _ (by decide) (by decide)
        (@Text.Lines.feed "5-2".toList _ _ (by decide) (by decide) .nil))
  have hcollected : Collected ["1-4".toList, [], "5-2".toList] ["2", "-", "0-3"]
      [⟨"<arg 1>", "2"⟩, ⟨"<stdin:1>", "1-4"⟩, ⟨"<stdin:3>", "5-2"⟩, ⟨"<arg 3>", "0-3"⟩] :=
    @Collected.stdin _ ["2"] (by decide) ["0-3"]
  obtain ⟨text, lines, inputs, htext, hlines', hinputs, hisolated⟩ :=
    @run_isolates_inputs _ _ Console.faithful_plain ["--color", "never", "2", "-", "0-3"] rfl _
      (Text.isValidUTF8_iff.mpr ⟨"1-4\n\n5-2\n".toList, rfl⟩)
  obtain rfl := Text.bytes_injective htext
  obtain rfl := hlines'.unique hlines
  obtain rfl := hinputs.unique hlines' hcollected
  refine ⟨?_, ?_, ?_⟩
  · rw [hisolated.stdout]
    decide +kernel
  · rw [hisolated.stderr]
    decide +kernel
  · rcases hisolated.status with ⟨-, haccepted⟩ | ⟨hone, -⟩
    · exact absurd (haccepted ⟨"<stdin:3>", "5-2"⟩ (by decide)) (by decide +kernel)
    · exact hone

end PageSelection.Command
