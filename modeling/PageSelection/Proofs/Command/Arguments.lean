import PageSelection.Command.Options

/-!
# Lists among the arguments

An argument is taken as a list if nothing else can be meant by it: behind `--` whatever it looks
like, and in front of that if no option awaits its value and the argument does not begin with a
hyphen. Arguments that are all taken as lists only add themselves to the options (`foldlM_lists`).
-/

namespace PageSelection.Command

/-- The reader takes an argument as a list. -/
def Reader.Takes (r : Reader) (argument : String) : Prop :=
  r.literal = true ∨ r.awaiting = none ∧ argument.toList.head? ≠ some '-'

/-- Adds lists behind the others. -/
def Reader.addLists (r : Reader) (lists : List String) : Reader :=
  { r with options := { r.options with lists := r.options.lists ++ lists } }

theorem Reader.Takes.addLists {r : Reader} {argument : String} (h : r.Takes argument)
    (lists : List String) : (r.addLists lists).Takes argument := h

theorem Reader.step_of_takes {r : Reader} {argument : String} (h : r.Takes argument) :
    r.step argument = .ok (r.addLists [argument]) := by
  obtain ⟨options, awaiting, literal⟩ := r
  rcases h with hliteral | ⟨hawaiting, hhyphen⟩
  · obtain rfl : literal = true := hliteral
    rfl
  · obtain rfl : awaiting = none := hawaiting
    unfold step
    split
    · rfl
    · -- all cases but the last are about an option that awaits its value, or about a hyphen
      split
      case h_6 => rfl
      all_goals simp_all

/-- **Lists in a row** are added one by one. -/
theorem Reader.foldlM_lists {r : Reader} {lists : List String} (h : ∀ list ∈ lists, r.Takes list) :
    lists.foldlM Reader.step r = .ok (r.addLists lists) := by
  induction lists generalizing r with
  | nil => simp [addLists]; rfl
  | cons list lists ih =>
    rw [List.foldlM_cons, step_of_takes (h list List.mem_cons_self)]
    show lists.foldlM Reader.step (r.addLists [list]) = _
    rw [ih fun next hnext => (h next (List.mem_cons_of_mem _ hnext)).addLists _]
    simp [addLists]

/-- **Nothing but lists** gives the default options with these lists. -/
theorem Reader.read_lists {lists : List String} (hne : lists ≠ []) {literal : Bool}
    (h : ∀ list ∈ lists, Reader.Takes ⟨{}, none, literal⟩ list) :
    (lists.foldlM Reader.step ⟨{}, none, literal⟩ >>= Reader.finish) = .ok { lists := lists } := by
  rw [foldlM_lists h]
  cases lists with
  | nil => exact absurd rfl hne
  | cons list lists => rfl

/-- Lists behind `--` are accepted, whatever they look like. -/
theorem ofArguments_literal {lists : List String} (hne : lists ≠ []) :
    Options.ofArguments ("--" :: lists) = .ok { lists := lists } :=
  -- the reading of `--` only changes how the lists are read
  Reader.read_lists hne fun _ _ => .inl rfl

/-- Lists that begin with no hyphen are accepted as they are. -/
theorem ofArguments_lists {lists : List String} (hne : lists ≠ [])
    (h : ∀ list ∈ lists, list.toList.head? ≠ some '-') :
    Options.ofArguments lists = .ok { lists := lists } :=
  Reader.read_lists hne fun list hlist => .inr ⟨rfl, h list hlist⟩

end PageSelection.Command
