import PageSelection.Proofs.Checked.Basic
import PageSelection.Proofs.IntervalSet.Construction
import PageSelection.Proofs.IntervalSet.Placement

/-!
# Insertion in place never fails

The intervals of a set can be kept in an array in ascending order, as bare pairs of machine integers
that carry no proof of anything. A new pair is put at the end of it and then moved towards the
front: it is merged with its predecessor if the two touch, changes places with it if it belongs
before it, and otherwise has arrived. Much could go wrong on the way. An index could lie outside of
the array, which shrinks with each merge; the distance of two pairs could be no machine integer; and
the bounds of a merged pair could be reversed.

None of this happens when the array holds the intervals of a set. At any point of the walk it
consists of intervals that are still ahead, of one interval, and of what has been passed
(`walk_eq_some`); that the one in the middle has grown changes nothing, for the hull of two
intervals is an interval again. So the walk ends where `Interval.place` does, and building a set
member by member in place comes to the same as building it from intervals (`ofMembers_eq_some`).
-/

namespace PageSelection.Checked

open IntervalSet (Error)

/-! ### The walk towards the front -/

/-- Moves the pair at the given index towards the front, until it is in order with its
predecessor. -/
def walk : Nat → List Bounds → Option (List Bounds)
  | 0, cells => some cells
  | index + 1, cells => do
    let prev ← cells[index]?
    let cur ← cells[index + 1]?
    let gap ← difference? (max prev.low cur.low) (min prev.high cur.high)
    if gap ≤ 1 then
      let merged ← bounds? (min prev.low cur.low) (max prev.high cur.high)
      walk index ((cells.set index merged).eraseIdx (index + 1))
    else if cur.low < prev.low then
      walk index ((cells.set index cur).set (index + 1) prev)
    else
      some cells

/-- The intervals of a set as an array of bare pairs. -/
def cellsOf (s : IntervalSet) : List Bounds := s.intervals.map Interval.bounds

/-- Inserts bounds into an array of pairs. -/
def insert (cells : List Bounds) (b : Bounds) : Option (Except Error (List Bounds)) :=
  if b.high < b.low then some (.ok cells)
  else if b.low < 0 then some (.error (.negative b))
  else do
    let new ← bounds? b.low b.high
    let last ← predecessor? (cells ++ [new]).length
    let moved ← walk last (cells ++ [new])
    return .ok moved

/-- Inserts members into an array of pairs, one after another. -/
def insertAll (cells : List Bounds) : List Member → Option (Except Error (List Bounds))
  | [] => some (.ok cells)
  | m :: members => do
    match ← insert cells m.bounds with
    | .ok cells => insertAll cells members
    | .error e => return .error e

/-- The array of pairs that members build. -/
def ofMembers (members : List Member) : Option (Except Error (List Bounds)) := insertAll [] members

/-! ### Two intervals side by side -/

/-- The distance of two intervals is a machine integer. -/
theorem difference?_bounds (i j : Interval) :
    difference? (max i.bounds.low j.bounds.low) (min i.bounds.high j.bounds.high) =
      some (i.gap j) := by
  unfold difference?
  rw [Numeral.fit?_eq_some_iff, Interval.toInt_gap, toInt_max, toInt_min]
  rfl

/-- The bounds of two intervals that are merged are in order. -/
theorem bounds?_hull (i j : Interval) :
    bounds? (min i.bounds.low j.bounds.low) (max i.bounds.high j.bounds.high) =
      some (i.hull j).bounds :=
  bounds?_of_le (i.hull j).ordered

/-- **A step of the walk.** Between what is ahead and what has been passed, the two intervals in the
middle are merged, change places, or stay. -/
theorem walk_step (ahead passed : List Bounds) (prev cur : Interval) :
    walk (ahead.length + 1) (ahead ++ prev.bounds :: cur.bounds :: passed) =
      if prev.touches cur then walk ahead.length (ahead ++ (prev.hull cur).bounds :: passed)
      else if cur.low < prev.low then
        walk ahead.length (ahead ++ cur.bounds :: prev.bounds :: passed)
      else some (ahead ++ prev.bounds :: cur.bounds :: passed) := by
  have hprev : (ahead ++ prev.bounds :: cur.bounds :: passed)[ahead.length]? =
      some prev.bounds := by simp
  have hcur : (ahead ++ prev.bounds :: cur.bounds :: passed)[ahead.length + 1]? =
      some cur.bounds := by simp
  rw [walk, hprev, hcur]
  -- both reads succeed, and so do the difference and the bounds that are made of them
  simp only [Option.bind_eq_bind, Option.bind_some, difference?_bounds, bounds?_hull,
    Interval.touches, decide_eq_true_eq]
  congr 1
  · simp [List.eraseIdx_append_of_length_le]
  · show (if cur.low < prev.low then _ else _) = _
    simp

/-- **The walk in place never fails.** It takes an interval to where it belongs among the intervals
that are ahead, and does not touch what has been passed. -/
theorem walk_eq_some (new : Interval) (stored : List Interval) (passed : List Bounds) :
    walk stored.length (stored.reverse.map Interval.bounds ++ new.bounds :: passed) =
      some ((new.place stored).reverse.map Interval.bounds ++ passed) := by
  induction stored generalizing new passed with
  | nil => rfl
  | cons top rest ih =>
    -- the highest interval ahead stands right in front of the new one
    have hcells : (top :: rest).reverse.map Interval.bounds ++ new.bounds :: passed =
        rest.reverse.map Interval.bounds ++ top.bounds :: new.bounds :: passed := by simp
    have hstep := walk_step (rest.reverse.map Interval.bounds) passed top new
    rw [List.length_map, List.length_reverse] at hstep
    rw [hcells, List.length_cons, hstep, Interval.place]
    split
    · -- merged: the walk goes on with the hull
      rw [ih]
    · split
      · -- passed: the top is behind the new interval from now on
        rw [ih, List.reverse_cons, List.map_append, List.append_assoc]
        rfl
      · -- the new interval has arrived
        simp

/-! ### Building a set -/

/-- Behind the intervals of a set, a new pair has the index of their number. -/
theorem predecessor?_length_cellsOf (s : IntervalSet) (new : Bounds) :
    predecessor? (cellsOf s ++ [new]).length = some s.descending.length := by
  simp [cellsOf, IntervalSet.intervals, predecessor?]

/-- **One member.** Inserting it in place never fails, and leaves the intervals that inserting it
into the set leaves. -/
theorem insert_eq_some (s : IntervalSet) (b : Bounds) :
    insert (cellsOf s) b = some ((s.insert b).map cellsOf) := by
  unfold insert
  by_cases hreversed : b.high < b.low
  · rw [if_pos hreversed, IntervalSet.insert_of_reversed s (Int32.lt_iff_toInt_lt.mp hreversed)]
    rfl
  rw [if_neg hreversed]
  rw [Int32.lt_iff_toInt_lt, Int.not_lt] at hreversed
  by_cases hnegative : b.low < 0
  · rw [if_pos hnegative]
    rw [Int32.lt_iff_toInt_lt, Int32.toInt_zero] at hnegative
    rw [IntervalSet.insert_of_isNegative s ⟨hreversed, hnegative⟩]
    rfl
  rw [if_neg hnegative]
  rw [Int32.lt_iff_toInt_lt, Int32.toInt_zero, Int.not_lt] at hnegative
  -- what is left are the bounds of an interval, which walks to its place
  obtain ⟨new, rfl⟩ := Interval.exists_bounds_eq hnegative hreversed
  have hbounds : bounds? new.bounds.low new.bounds.high = some new.bounds :=
    bounds?_of_le new.ordered
  have hwalk : walk s.descending.length (cellsOf s ++ [new.bounds]) =
      some (cellsOf (s.add new)) := by
    have hstored := walk_eq_some new s.descending []
    rw [List.append_nil] at hstored
    exact hstored
  simp only [hbounds, predecessor?_length_cellsOf, hwalk, Option.bind_eq_bind, Option.bind_some,
    IntervalSet.insert_bounds]
  rfl

/-- **A run of members.** -/
theorem insertAll_eq_some (s : IntervalSet) (members : List Member) :
    insertAll (cellsOf s) members =
      some ((members.foldlM IntervalSet.insertMember s).map cellsOf) := by
  induction members generalizing s with
  | nil => rfl
  | cons m members ih =>
    rw [insertAll, insert_eq_some, List.foldlM_cons, IntervalSet.insertMember]
    -- a refused member ends both constructions, any other is inserted in both
    cases s.insert m.bounds with
    | error e => rfl
    | ok t => exact ih t

/-- **Building a set in place never fails.** The members build the intervals of the set that they
build, and are refused for the same reason. -/
theorem ofMembers_eq_some (members : List Member) :
    ofMembers members = some ((IntervalSet.ofMembers members).map cellsOf) :=
  insertAll_eq_some .empty members

end PageSelection.Checked
