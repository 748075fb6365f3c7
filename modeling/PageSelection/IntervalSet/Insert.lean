import PageSelection.IntervalSet.Basic
import PageSelection.IntervalSet.Member

/-!
# Building sets

A new interval goes into a set by a walk from the highest stored interval downwards
(`Interval.place`). An interval that touches the new one is merged into it; one that lies above it
is passed by; the first one that lies below it ends the walk, for all the rest lie lower still.
The result is separated again (`Interval.pairwise_place`).

Everything else is built on that: `insert` takes bounds, of which reversed ones change nothing and
negative ones are refused, `ofMembers` inserts the bounds of one member after another, and `ofRows`
first checks that each row of a table is one number or two.
-/

namespace PageSelection

namespace Interval

/-- Puts an interval into a descending list of separated ones. -/
def place (new : Interval) : List Interval → List Interval
  | [] => [new]
  | top :: rest =>
    if top.touches new then (top.hull new).place rest
    else if new.low < top.low then top :: new.place rest
    else new :: top :: rest

/-- Where both the new interval and all stored ones lie before some interval, so do all intervals
of the result. -/
theorem before_of_mem_place {upper : Interval} {new : Interval} {stored : List Interval}
    (hnew : new.Before upper) (hstored : ∀ i ∈ stored, i.Before upper) :
    ∀ i ∈ new.place stored, i.Before upper := by
  induction stored generalizing new with
  | nil => simpa [place] using hnew
  | cons top rest ih =>
    have htop : top.Before upper := hstored top (by simp)
    have hrest : ∀ i ∈ rest, i.Before upper := fun i hi => hstored i (by simp [hi])
    intro i hi
    simp only [place] at hi
    split at hi
    · -- merged: the hull ends where one of the two ends
      refine ih ?_ hrest i hi
      simp only [Before, toInt_high_hull] at *
      omega
    · split at hi
      · -- passed by
        rcases List.mem_cons.1 hi with rfl | hi
        · exact htop
        · exact ih hnew hrest i hi
      · -- the walk ends here
        simp only [List.mem_cons] at hi
        rcases hi with rfl | rfl | hi
        · exact hnew
        · exact htop
        · exact hrest i hi

/-- Placing an interval keeps a list separated. -/
theorem pairwise_place (new : Interval) {stored : List Interval}
    (h : stored.Pairwise fun upper lower => lower.Before upper) :
    (new.place stored).Pairwise fun upper lower => lower.Before upper := by
  induction stored generalizing new with
  | nil => simp [place]
  | cons top rest ih =>
    obtain ⟨habove, hrest⟩ := List.pairwise_cons.1 h
    have hnew := new.low_le_high
    have htop := top.low_le_high
    simp only [place]
    split
    · -- merged: whatever touched the top is gone, and the rest is separated
      exact ih _ hrest
    · next hapart =>
      rw [touches_iff] at hapart
      split
      · -- passed by: the new interval and the rest lie before the top
        next hlow =>
        have hlow' := Int32.lt_iff_toInt_lt.1 hlow
        have hbelow : new.Before top := by
          simp only [Before] at *
          omega
        exact List.pairwise_cons.2 ⟨before_of_mem_place hbelow habove, ih new hrest⟩
      · -- the walk ends here: the top, and so the rest, lies before the new interval
        next hlow =>
        have hlow' : ¬ new.low.toInt < top.low.toInt :=
          fun hlt => hlow (Int32.lt_iff_toInt_lt.2 hlt)
        have habove' : top.Before new := by
          simp only [Before] at *
          omega
        refine List.pairwise_cons.2 ⟨fun i hi => ?_, h⟩
        rcases List.mem_cons.1 hi with rfl | hi
        · exact habove'
        · exact (habove i hi).trans habove'

/-- The numbers of some intervals, the first one apart. -/
theorem exists_mem_cons {i : Interval} {rest : List Interval} {x : Int32} :
    (∃ j ∈ i :: rest, x ∈ j) ↔ x ∈ i ∨ ∃ j ∈ rest, x ∈ j := by
  simp

/-- Placing an interval adds its numbers and no others. -/
theorem exists_mem_place {new : Interval} {stored : List Interval} {x : Int32} :
    (∃ i ∈ new.place stored, x ∈ i) ↔ x ∈ new ∨ ∃ i ∈ stored, x ∈ i := by
  induction stored generalizing new with
  | nil => simp [place]
  | cons top rest ih =>
    simp only [place]
    split
    · next htouch =>
      rw [ih, mem_hull htouch, exists_mem_cons]
      grind
    · split
      · rw [exists_mem_cons, ih, exists_mem_cons]
        grind
      · exact exists_mem_cons

end Interval

namespace IntervalSet

/-- Adds an interval to a set. -/
def add (s : IntervalSet) (new : Interval) : IntervalSet :=
  ⟨new.place s.descending, new.pairwise_place s.separated⟩

@[simp] theorem mem_add {s : IntervalSet} {new : Interval} {x : Int32} :
    x ∈ s.add new ↔ x ∈ new ∨ x ∈ s := by
  rw [mem_iff_descending, mem_iff_descending]
  exact Interval.exists_mem_place

/-- Adds the numbers of some bounds to a set. Reversed bounds have none; others may not begin
below zero. -/
def insert (s : IntervalSet) (bounds : Bounds) : Except Error IntervalSet :=
  if ordered : bounds.low ≤ bounds.high then
    if nonneg : 0 ≤ bounds.low then
      return s.add ⟨bounds.low, bounds.high, nonneg, ordered⟩
    else
      throw (.negative bounds)
  else
    return s

/-- Adds the numbers of a member to a set. -/
def insertMember (s : IntervalSet) (member : Member) : Except Error IntervalSet :=
  s.insert member.bounds

/-- The set of all numbers of the given members. -/
def ofMembers (members : List Member) : Except Error IntervalSet :=
  members.foldlM insertMember empty

/-- The intervals of a set as members. -/
def members (s : IntervalSet) : List Member := s.intervals.map (·.bounds.member)

/-- The member that a row of one number or two stands for. -/
def memberOfRow (index : Nat) : List Int32 → Except Error Member
  | [value] => return .single value
  | [low, high] => return .range low high
  | row => throw (.rowLength index row.length)

/-- The set of all numbers of a table, each of whose rows is a single number or a pair of bounds.
The rows are checked before any of them is inserted. -/
def ofRows (rows : List (List Int32)) : Except Error IntervalSet := do
  let members ← rows.zipIdx.mapM fun (row, index) => memberOfRow index row
  ofMembers members

end IntervalSet

end PageSelection
