import PageSelection.Proofs.Checked.Insertion
import PageSelection.Proofs.Checked.Reading
import PageSelection.Proofs.Document.Lines
import PageSelection.Proofs.IntervalSet.Ends

/-!
# No operation ever fails

Whatever is asked of the library, none of its operations breaks a condition that it has: whoever
calls it with members, texts and offsets that are not checked in any way gets an answer, which may
be an error, but no crash. Building sets and reading texts are the two large parts of this. What is
left are the questions about a set, of which `next?` adds 1 to a machine integer, and the look-up of
lines, which takes 1 from the index where a search has ended and from the number of lines.

`no_check_fails` collects the parts: each checked function has a result, and it is that of the
function itself.
-/

namespace PageSelection.Checked

/-! ### The next number -/

/-- The first number above `x` in some intervals. -/
def nextAmong (x : Int32) : List Interval → Option (Option Int32)
  | [] => some none
  | i :: rest =>
    if x < i.low then some (some i.low)
    else if x < i.high then do
      let next ← successor? x
      return some next
    else nextAmong x rest

/-- The least number of a set above `x`. -/
def next (s : IntervalSet) (x : Int32) : Option (Option Int32) := nextAmong x s.intervals

/-- **Looking for the next number never fails.** One is only added to a number below the end of some
interval. -/
theorem next_eq_some (s : IntervalSet) (x : Int32) : next s x = some (s.next? x) := by
  unfold next IntervalSet.next?
  induction s.intervals with
  | nil => rfl
  | cons i rest ih =>
    rw [nextAmong, List.findSome?_cons]
    split
    · rfl
    · split
      · next hhigh =>
        rw [successor?_of_lt hhigh]
        rfl
      · exact ih

/-! ### Lines -/

/-- The index of the line to which a byte offset belongs. -/
def lineIndex (d : Document) (offset : Nat) : Option Nat :=
  match Search.run (compare · offset) (Document.lineStarts d.text.toList).toArray with
  | .found index => some index
  | .missing index => predecessor? index

/-- The stretch of the line with the given index. -/
def lineSpan (d : Document) (index : Nat) : Option (Except Document.LookupError Span) :=
  let starts := Document.lineStarts d.text.toList
  match starts[index]? with
  | some start =>
    some (.ok ⟨start, starts[index + 1]?.getD (Text.byteLength d.text.toList)⟩)
  | none => do
    let last ← predecessor? starts.length
    return .error (.noLine index last)

/-- **Looking up the line of an offset never fails.** The search does not end in front of the first
line. -/
theorem lineIndex_eq_some (d : Document) (offset : Nat) :
    lineIndex d offset = some (d.lineIndex offset) := by
  have hne := Document.run_lineStarts_ne d.text.toList offset
  unfold lineIndex Document.lineIndex
  cases hrun : Search.run (compare · offset) (Document.lineStarts d.text.toList).toArray with
  | found index => rfl
  | missing index =>
    cases index with
    | zero => exact absurd hrun hne
    | succ index => rfl

/-- **Looking up a line never fails.** There is always a first line. -/
theorem lineSpan_eq_some (d : Document) (index : Nat) :
    lineSpan d index = some (d.lineSpan index) := by
  unfold lineSpan Document.lineSpan
  cases hstart : (Document.lineStarts d.text.toList)[index]? with
  | some start => simp only [hstart]; rfl
  | none => simp only [hstart]; rfl

/-! ### All of it -/

/-- **No operation of the library ever fails,** whatever it is given.

Building a set of members, kept in place in an array of bare bounds, never reads outside of the
array, nor takes a difference that is no machine integer, nor makes an interval that ends before it
begins. No interval of a set and no set has more than 2³¹ numbers, and no next number is looked for
behind the last machine integer. Reading a text computes no offset behind its end and no span that
ends before it begins, and reads the value of nothing but decimal digits. Looking up a line never
goes below the first one. The results are those of the functions without checks. -/
theorem no_check_fails :
    (∀ members : List Member,
      ofMembers members = some ((IntervalSet.ofMembers members).map cellsOf)) ∧
    (∀ s : IntervalSet, (∀ i ∈ s.intervals, i.size ≤ 2147483648) ∧ s.size ≤ 2147483648 ∧
      ∀ x, next s x = some (s.next? x)) ∧
    (∀ text : String,
      scan (Text.byteLength text.toList) none 0 text.toList = some (Token.ofText text) ∧
      parse text = some (RangeList.parse text)) ∧
    ∀ d : Document,
      (∀ offset, lineIndex d offset = some (d.lineIndex offset)) ∧
      ∀ index, lineSpan d index = some (d.lineSpan index) := by
  refine ⟨ofMembers_eq_some, fun s => ⟨fun i _ => i.size_le, s.size_le, next_eq_some s⟩,
    fun text => ⟨scan_byteLength text.toList, parse_eq_some text⟩,
    fun d => ⟨lineIndex_eq_some d, lineSpan_eq_some d⟩⟩

end PageSelection.Checked
