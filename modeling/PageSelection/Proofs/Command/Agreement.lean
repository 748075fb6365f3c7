import PageSelection.Proofs.Command.Arguments
import PageSelection.Proofs.Command.Isolation

/-!
# Lists from standard input

A list has the same effect as an argument and as a line of standard input. The two make inputs of
different names, and names occur in complaints, but neither in answers nor in the status
(`handle_congr`). So a hyphen can be replaced by the texts of the lines that it stands for, as long
as none of these is taken for a hyphen itself (`run_reads_lines`).
-/

namespace PageSelection.Command

/-! ### Texts of inputs -/

/-- The texts of the lines that are not blank. -/
def lineTexts (lines : List (List Char)) : List String :=
  (lines.filter fun line => !line.all Text.isBlank).map String.ofList

theorem map_text_lineInputs (lines : List (List Char)) :
    (lineInputs lines).map (·.text) = lineTexts lines := by
  unfold lineInputs lineTexts
  rw [List.map_map]
  conv => rhs; rw [← List.zipIdx_map_fst 1 lines, List.filter_map, List.map_map]
  rfl

theorem map_text_argumentInputs (position : Nat) (lists : List String) :
    (argumentInputs position lists).map (·.text) = lists.filter (· ≠ "-") := by
  unfold argumentInputs
  rw [List.map_map]
  conv => rhs; rw [← List.zipIdx_map_fst position lists, List.filter_map]
  rfl

/-- Two runs give the same answers and the same exit status. -/
structure Outcome.Agree (a b : Outcome) : Prop where
  stdout : a.stdout = b.stdout
  status : a.status = b.status

/-- **The names of the inputs** only matter for complaints. -/
theorem handle_congr {inputs inputs' : List Document}
    (h : inputs.map (·.text) = inputs'.map (·.text)) (c : Console) (o : Options)
    (lists : List String) :
    (handle c { o with lists := lists } inputs).Agree (handle c o inputs') := by
  -- what an input selects depends on its text, and the outcome on what the inputs select
  have hselections : inputs.map selection? = inputs'.map selection? := by
    have hcongr := congrArg (List.map fun text => (Selection.ofText text).toOption) h
    rw [List.map_map, List.map_map] at hcongr
    exact hcongr
  have hblocks : inputs.filterMap selection? = inputs'.filterMap selection? := by
    have hcongr := congrArg (List.filterMap id) hselections
    rw [List.filterMap_map, List.filterMap_map] at hcongr
    exact hcongr
  have hstatus : inputs.any isRejected = inputs'.any isRejected := by
    have hcongr := congrArg (List.any · Option.isNone) hselections
    rw [List.any_map, List.any_map] at hcongr
    exact hcongr
  constructor
  · rw [stdout_handle, stdout_handle, hblocks, block_congr]
  · rw [status_handle, status_handle, hstatus]

variable {c : Console}

/-- Lists without a hyphen are handled without standard input. -/
theorem run_of_not_mem {arguments : List String} {o : Options}
    (h : Options.ofArguments arguments = .ok o) (hlists : "-" ∉ o.lists) (stdin : List UInt8) :
    run c arguments stdin = handle c o (argumentInputs 1 o.lists) := by
  unfold run select
  simp only [h, inputs_of_not_mem hlists]

/-- **Lines as arguments.** Lists in the place of the lines with the same texts, none of which is a
hyphen, get the same answers. -/
theorem run_agree {arguments : List String} {o : Options} {before : List String}
    {lines : List (List Char)} {after : List String} (hbefore : "-" ∉ before)
    (hlines : "-" ∉ lineTexts lines)
    (h : Options.ofArguments arguments =
      .ok { o with lists := before ++ lineTexts lines ++ after.filter (· ≠ "-") })
    (stdin : List UInt8) :
    (run c arguments stdin).Agree
      (handle c o (argumentInputs 1 before ++ lineInputs lines ++
        argumentInputs (before.length + 2) after)) := by
  have hnone : "-" ∉ before ++ lineTexts lines ++ after.filter (· ≠ "-") := by
    simp [hbefore, hlines]
  have hfilter : (lineTexts lines).filter (· ≠ "-") = lineTexts lines :=
    List.filter_eq_self.mpr fun text htext => decide_eq_true fun heq => hlines (heq ▸ htext)
  rw [run_of_not_mem h hnone]
  refine handle_congr ?_ c o _
  simp only [List.map_append, map_text_argumentInputs, map_text_lineInputs, List.filter_append,
    List.filter_filter, Bool.and_self, hfilter]

/-- **What the lines of standard input are for a run.** The lists are those in front of the first
hyphen, the hyphen itself, and those behind it. -/
structure LinesAsLists (c : Console) (arguments : List String) (o : Options) (stdin : List UInt8)
    (lines : List (List Char)) (before after : List String) : Prop where
  /-- The lists in front of the hyphen and behind it. -/
  lists : o.lists = before ++ "-" :: after
  /-- It is the first hyphen. -/
  first : "-" ∉ before
  /-- It stands for the lines that are not blank, by their numbers and without what ends them, in
  between the other lists by their numbers. Further hyphens stand for nothing. -/
  run_eq : run c arguments stdin =
    handle c o
      (argumentInputs 1 before ++ lineInputs lines ++ argumentInputs (before.length + 2) after)
  /-- The same lines as lists in the place of the hyphen, none of which is a hyphen itself, make a
  run of the same answers and the same status. -/
  agrees : "-" ∉ lineTexts lines → ∀ (arguments' : List String) (stdin' : List UInt8),
    Options.ofArguments arguments' =
        .ok { o with lists := before ++ lineTexts lines ++ after.filter (· ≠ "-") } →
      (run c arguments' stdin').Agree (run c arguments stdin)
  /-- For the single argument `-` these are the lines behind `--`, or the lines alone if none of
  them begins with a hyphen. -/
  alone : arguments = ["-"] → lineTexts lines ≠ [] → "-" ∉ lineTexts lines →
    ∀ stdin' : List UInt8,
      (run c ("--" :: lineTexts lines) stdin').Agree (run c ["-"] stdin) ∧
      ((∀ text ∈ lineTexts lines, text.toList.head? ≠ some '-') →
        (run c (lineTexts lines) stdin').Agree (run c ["-"] stdin))

/-- What comes of standard input when there is a lone hyphen among the lists. -/
structure ReadsLines (c : Console) (arguments : List String) (o : Options) (stdin : List UInt8) :
    Prop where
  /-- If it is not valid as a whole, then the run fails without any answers. -/
  invalid : ¬ stdin.toByteArray.IsValidUTF8 →
    (run c arguments stdin).status = 1 ∧ (run c arguments stdin).stdout = ""
  /-- Otherwise it has lines, and these are lists. -/
  valid : stdin.toByteArray.IsValidUTF8 →
    ∃ text lines before after, Text.bytes text = stdin ∧ Text.Lines text lines ∧
      LinesAsLists c arguments o stdin lines before after

/-- The lines of standard input are lists in the place of the first hyphen. -/
theorem exists_linesAsLists {arguments : List String} {o : Options}
    (h : Options.ofArguments arguments = .ok o) (hmem : "-" ∈ o.lists) {text : List Char}
    {lines : List (List Char)} (hlines : Text.Lines text lines) :
    ∃ before after, LinesAsLists c arguments o (Text.bytes text) lines before after := by
  obtain ⟨before, after, hlists, hbefore⟩ := List.eq_append_cons_of_mem hmem
  have hcollected := @Collected.stdin lines before hbefore after
  rw [← hlists] at hcollected
  have hrun : run c arguments (Text.bytes text) = _ := run_of_collected h hlines hcollected
  have hagree : "-" ∉ lineTexts lines → ∀ (arguments' : List String) (stdin' : List UInt8),
      Options.ofArguments arguments' =
          .ok { o with lists := before ++ lineTexts lines ++ after.filter (· ≠ "-") } →
        (run c arguments' stdin').Agree (run c arguments (Text.bytes text)) := by
    intro hhyphen arguments' stdin' h'
    rw [hrun]
    exact run_agree hbefore hhyphen h' stdin'
  refine ⟨before, after, hlists, hbefore, hrun, hagree, ?_⟩
  rintro rfl hne hhyphen stdin'
  obtain rfl : { lists := ["-"] } = o := Except.ok.inj h
  obtain ⟨rfl, rfl⟩ : before = [] ∧ after = [] := by
    cases before with
    | nil => exact ⟨rfl, (List.cons.inj hlists).2.symm⟩
    | cons first before => simp at hlists
  have hline : [] ++ lineTexts lines ++ [].filter (· ≠ "-") = lineTexts lines :=
    List.append_nil _
  rw [hline] at hagree
  exact ⟨hagree hhyphen _ stdin' (ofArguments_literal hne),
    fun hfirst => hagree hhyphen _ stdin' (ofArguments_lists hne hfirst)⟩

/-- **Standard input is read like arguments.** The arguments are accepted, and there is a lone
hyphen among their lists. Then standard input is either refused as a whole, or its lines are lists
in the place of the first hyphen. This is so on every console. -/
theorem run_reads_lines (c : Console) {arguments : List String} {o : Options}
    (h : Options.ofArguments arguments = .ok o) (hmem : "-" ∈ o.lists) (stdin : List UInt8) :
    ReadsLines c arguments o stdin where
  invalid hvalid := by
    unfold run select
    simp only [h, inputs_of_not_valid hmem hvalid, and_self]
  valid hvalid := by
    obtain ⟨text, rfl⟩ := Text.isValidUTF8_iff.mp hvalid
    obtain ⟨lines, hlines⟩ := Text.exists_lines text
    obtain ⟨before, after, hlists⟩ := exists_linesAsLists h hmem hlines
    exact ⟨text, lines, before, after, rfl, hlines, hlists⟩

/-- Two lines that are ended in two ways, a blank line in between, and a second hyphen; the same
lines as the only lists, one of which begins with a hyphen; and a byte that is not valid behind a
good line. -/
theorem run_reads_two_of_three_lines :
    run .plain ["3", "-", "9", "-"] (Text.bytes "1-4\r\n \n-5".toList) =
        handle .plain { lists := ["3", "-", "9", "-"] }
          [⟨"<arg 1>", "3"⟩, ⟨"<stdin:1>", "1-4"⟩, ⟨"<stdin:3>", "-5"⟩, ⟨"<arg 3>", "9"⟩] ∧
      (run .plain ["--", "1-4", "-5"] []).Agree
        (run .plain ["-"] (Text.bytes "1-4\r\n \n-5".toList)) ∧
      (run .plain ["3", "-"] (Text.bytes "1-4\n".toList ++ [255])).stdout = "" := by
  have hvalid : (Text.bytes "1-4\r\n \n-5".toList).toByteArray.IsValidUTF8 :=
    Text.isValidUTF8_iff.mpr ⟨_, rfl⟩
  have hlines : Text.Lines "1-4\r\n \n-5".toList ["1-4".toList, [' '], "-5".toList] :=
    @Text.Lines.returnFeed "1-4".toList _ _ (by decide)
      (@Text.Lines.feed [' '] _ _ (by decide) (by decide) (.last (by decide) (by decide)))
  refine ⟨?_, ?_, ?_⟩
  · obtain ⟨text, lines, before, after, htext, hlines', hlists⟩ :=
      (@run_reads_lines .plain ["3", "-", "9", "-"] { lists := ["3", "-", "9", "-"] } rfl
        (by decide) _).valid hvalid
    obtain rfl := Text.bytes_injective htext
    obtain rfl := hlines'.unique hlines
    have hcollected := @Collected.stdin ["1-4".toList, [' '], "-5".toList] before hlists.first after
    rw [← hlists.lists] at hcollected
    rw [hlists.run_eq,
      hcollected.unique hlines (@Collected.stdin _ ["3"] (by decide) ["9", "-"])]
    rfl
  · obtain ⟨text, lines, before, after, htext, hlines', hlists⟩ :=
      (@run_reads_lines .plain ["-"] _ rfl (by decide) _).valid hvalid
    obtain rfl := Text.bytes_injective htext
    obtain rfl := hlines'.unique hlines
    exact (hlists.alone rfl (by decide) (by decide) []).1
  · exact ((@run_reads_lines .plain ["3", "-"] _ rfl (by decide) _).invalid (by decide)).2

end PageSelection.Command
