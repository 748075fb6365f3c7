import PageSelection.Proofs.Command.StandardInput

/-!
# The inputs of a command line

The lists on a command line are numbered from one, hyphens included. Up to the first hyphen they
are inputs themselves, the hyphen stands for the lines of standard input, and behind it standard
input is used up, so that further hyphens stand for nothing. `Collected` says this of the list as a
whole. The command goes through the lists one by one instead, and carries along what is left of
standard input; `inputs_bytes` is the agreement of the two.
-/

namespace PageSelection.Command

/-- The inputs that lists are which are not a lone hyphen. Each is called by its number, and the
first list is number `position`; a hyphen has a number too. -/
def argumentInputs (position : Nat) (lists : List String) : List Document :=
  ((lists.zipIdx position).filter fun (list, _) => list ≠ "-").map fun (list, number) =>
    ⟨"<arg " ++ toString number ++ ">", list⟩

theorem argumentInputs_hyphen (position : Nat) (lists : List String) :
    argumentInputs position ("-" :: lists) = argumentInputs (position + 1) lists := rfl

theorem argumentInputs_cons {list : String} (h : list ≠ "-") (position : Nat)
    (lists : List String) :
    argumentInputs position (list :: lists) =
      ⟨"<arg " ++ toString position ++ ">", list⟩ :: argumentInputs (position + 1) lists := by
  simp [argumentInputs, h]

/-- Once standard input is used up, hyphens are passed over. -/
theorem inputsFrom_nil (position : Nat) (lists : List String) :
    inputsFrom position [] lists = .ok (argumentInputs position lists) := by
  induction lists generalizing position with
  | nil => rfl
  | cons list lists ih =>
    by_cases hlist : list = "-"
    · rw [inputsFrom, if_pos hlist, ih, hlist, argumentInputs_hyphen]
      rfl
    · rw [inputsFrom, if_neg hlist, ih, argumentInputs_cons hlist]
      rfl

/-- Standard input stays as it is up to the first hyphen. -/
theorem inputsFrom_append {before : List String} (h : "-" ∉ before) (position : Nat)
    (stdin : List UInt8) (rest : List String) :
    inputsFrom position stdin (before ++ rest) =
      (inputsFrom (position + before.length) stdin rest).map
        (argumentInputs position before ++ ·) := by
  induction before generalizing position with
  | nil =>
    show inputsFrom position stdin rest = (inputsFrom position stdin rest).map fun inputs => inputs
    cases inputsFrom position stdin rest <;> rfl
  | cons list before ih =>
    have hlist : list ≠ "-" := fun heq => h (heq ▸ List.mem_cons_self)
    rw [List.cons_append, inputsFrom, if_neg hlist, ih fun hmem => h (List.mem_cons_of_mem _ hmem),
      argumentInputs_cons hlist, List.length_cons, Nat.add_right_comm, Nat.add_assoc]
    cases inputsFrom (position + (before.length + 1)) stdin rest <;> rfl

/-- What the inputs of a command line are when standard input has the given lines. The first hyphen
stands for the lines, and any later one for nothing. -/
inductive Collected (lines : List (List Char)) : List String → List Document → Prop
  | arguments {lists : List String} (h : "-" ∉ lists) :
      Collected lines lists (argumentInputs 1 lists)
  | stdin {before : List String} (h : "-" ∉ before) (after : List String) :
      Collected lines (before ++ "-" :: after)
        (argumentInputs 1 before ++ lineInputs lines ++ argumentInputs (before.length + 2) after)

theorem exists_collected (lines : List (List Char)) (lists : List String) :
    ∃ documents, Collected lines lists documents := by
  by_cases h : "-" ∈ lists
  · obtain ⟨before, after, rfl, hbefore⟩ := List.eq_append_cons_of_mem h
    exact ⟨_, .stdin hbefore after⟩
  · exact ⟨_, .arguments h⟩

/-- Without a hyphen, standard input is not read. -/
theorem inputs_of_not_mem {lists : List String} (h : "-" ∉ lists) (stdin : List UInt8) :
    inputs lists stdin = .ok (argumentInputs 1 lists) := by
  have happend := inputsFrom_append h 1 stdin []
  rw [List.append_nil, inputsFrom] at happend
  rw [inputs, happend]
  exact congrArg Except.ok (List.append_nil _)

/-- **The inputs are collected in order.** -/
theorem inputs_bytes {cs : List Char} {lines : List (List Char)} {lists : List String}
    {documents : List Document} (hlines : Text.Lines cs lines)
    (h : Collected lines lists documents) : inputs lists (Text.bytes cs) = .ok documents := by
  cases h with
  | arguments hlists => exact inputs_of_not_mem hlists _
  | @stdin before hbefore after =>
    rw [inputs, inputsFrom_append hbefore, inputsFrom, if_pos rfl, stdinInputs_bytes hlines,
      inputsFrom_nil, Nat.add_comm 1 before.length]
    exact congrArg Except.ok (List.append_assoc _ _ _).symm

/-- The inputs are determined by the lines and the lists. -/
theorem Collected.unique {cs : List Char} {lines : List (List Char)} {lists : List String}
    {documents documents' : List Document} (hlines : Text.Lines cs lines)
    (h : Collected lines lists documents) (h' : Collected lines lists documents') :
    documents = documents' :=
  Except.ok.inj ((inputs_bytes hlines h).symm.trans (inputs_bytes hlines h'))

/-- **Nothing is collected** if standard input is read and is not valid. -/
theorem inputs_of_not_valid {lists : List String} (h : "-" ∈ lists) {stdin : List UInt8}
    (hvalid : ¬ stdin.toByteArray.IsValidUTF8) : inputs lists stdin = .error .invalidEncoding := by
  obtain ⟨before, after, rfl, hbefore⟩ := List.eq_append_cons_of_mem h
  rw [inputs, inputsFrom_append hbefore, inputsFrom, if_pos rfl, stdinInputs_of_not_valid hvalid]
  rfl

end PageSelection.Command
