import PageSelection.Proofs.IntervalSet.Canonical

/-!
# The membership test against a linear scan

The membership test looks at a few intervals only. Which ones they are has no influence on the
result: separated intervals share no number, so at most one of them matches (`single_position`), and
then there is only one way for a search to end (`Search.run_eq_iff`). If some interval has the
number, the search ends at the interval to which a scan from the lowest one leads
(`run_position_eq_found_iff`). If none has it, the search ends with a cut
(`run_position_eq_missing_iff`): below it all intervals end before the number, and above it they all
begin after it, be it in front of the first interval, in a gap, or behind the last one.
-/

namespace PageSelection.IntervalSet

/-- At most one interval of a set has a given number. -/
theorem single_position (s : IntervalSet) (x : Int32) (a b : Nat)
    (ha : a < s.intervals.toArray.size) (hb : b < s.intervals.toArray.size)
    (hmatch : position x s.intervals.toArray[a] = .eq)
    (hmatch' : position x s.intervals.toArray[b] = .eq) : a = b := by
  rw [position_eq_eq_iff] at hmatch hmatch'
  rcases Nat.lt_trichotomy a b with hlt | heq | hlt
  · exact absurd hmatch' ((s.before_of_index_lt ha hb hlt).not_mem hmatch)
  · exact heq
  · exact absurd hmatch ((s.before_of_index_lt hb ha hlt).not_mem hmatch')

/-- The search for a number ends with whatever settles the intervals. -/
theorem run_position_eq_iff {s : IntervalSet} {x : Int32} {r : Search} :
    Search.run (position x) s.intervals.toArray = r ↔
      Search.Settles (position x) s.intervals.toArray r :=
  Search.run_eq_iff (s.ascends_position x) (s.single_position x)

/-- **Halving finds what a scan finds.** -/
theorem run_position_eq_found_iff {s : IntervalSet} {x : Int32} {k : Nat} :
    Search.run (position x) s.intervals.toArray = .found k ↔
      s.intervals.findIdx? (·.contains x) = some k := by
  rw [run_position_eq_iff, List.findIdx?_eq_some_iff_getElem]
  constructor
  · rintro ⟨hk, hmatch⟩
    have hmem : x ∈ s.intervals[k] := position_eq_eq_iff.mp hmatch
    refine ⟨hk, Interval.contains_iff.mpr hmem, fun j hj hcontains => ?_⟩
    -- an earlier interval with the number would be another match
    have hmatch' : position x s.intervals.toArray[j] = .eq :=
      position_eq_eq_iff.mpr (Interval.contains_iff.mp hcontains)
    exact absurd (s.single_position x j k (Nat.lt_trans hj hk) hk hmatch' hmatch) (Nat.ne_of_lt hj)
  · rintro ⟨hk, hcontains, -⟩
    exact ⟨hk, position_eq_eq_iff.mpr (Interval.contains_iff.mp hcontains)⟩

/-- **Where the number would belong.** -/
theorem run_position_eq_missing_iff {s : IntervalSet} {x : Int32} {k : Nat} :
    Search.run (position x) s.intervals.toArray = .missing k ↔
      k ≤ s.intervals.length ∧ (∀ i ∈ s.intervals.take k, i.high < x) ∧
        ∀ i ∈ s.intervals.drop k, x < i.low := by
  rw [run_position_eq_iff]
  constructor
  · rintro ⟨hk, hbelow, habove⟩
    refine ⟨hk, fun i hi => ?_, fun i hi => ?_⟩
    · obtain ⟨j, hj, rfl⟩ := List.mem_take_iff_getElem.mp hi
      obtain ⟨hlt, hinside⟩ := Nat.lt_min.mp hj
      exact Int32.lt_iff_toInt_lt.mpr (position_eq_lt_iff.mp (hbelow j hinside hlt))
    · obtain ⟨j, hj, rfl⟩ := List.mem_drop_iff_getElem.mp hi
      have hinside : k + j < s.intervals.length := by omega
      exact Int32.lt_iff_toInt_lt.mpr
        (position_eq_gt_iff.mp (habove (k + j) hinside (Nat.le_add_right k j)))
  · rintro ⟨hk, hbelow, habove⟩
    refine ⟨hk, fun j hj hlt => ?_, fun j hj hge => ?_⟩
    · have hmem : s.intervals.toArray[j] ∈ s.intervals.take k :=
        List.mem_take_iff_getElem.mpr ⟨j, Nat.lt_min.mpr ⟨hlt, hj⟩, rfl⟩
      exact position_eq_lt_iff.mpr (Int32.lt_iff_toInt_lt.mp (hbelow _ hmem))
    · obtain ⟨n, rfl⟩ := Nat.exists_eq_add_of_le hge
      have hinside : n + k < s.intervals.length := Nat.add_comm k n ▸ hj
      have hmem : s.intervals.toArray[k + n] ∈ s.intervals.drop k :=
        List.mem_drop_iff_getElem.mpr ⟨n, hinside, rfl⟩
      exact position_eq_gt_iff.mpr (Int32.lt_iff_toInt_lt.mp (habove _ hmem))

/-- **The membership test is a linear scan.** For every set, however it has been built and however
many intervals it has, and every machine integer, the test succeeds just when a scan of the
intervals comes to one that has the number between its ends, which is to say when the number is
among those that the set enumerates. The search behind it ends at the very interval that the scan
finds; and where the scan finds none, it ends between the intervals that lie below the number and
those that lie above it. -/
theorem contains_agrees_with_scan (s : IntervalSet) (x : Int32) :
    s.contains x = s.intervals.any (·.contains x) ∧
    (s.contains x = true ↔ ∃ i ∈ s.intervals, i.low ≤ x ∧ x ≤ i.high) ∧
    (s.contains x = true ↔ x ∈ s.toList) ∧
    ∀ k,
      (Search.run (position x) s.intervals.toArray = .found k ↔
        s.intervals.findIdx? (·.contains x) = some k) ∧
      (Search.run (position x) s.intervals.toArray = .missing k ↔
        k ≤ s.intervals.length ∧ (∀ i ∈ s.intervals.take k, i.high < x) ∧
          ∀ i ∈ s.intervals.drop k, x < i.low) := by
  refine ⟨?_, ?_, ?_, fun k => ⟨run_position_eq_found_iff, run_position_eq_missing_iff⟩⟩
  · rw [Bool.eq_iff_iff, contains_iff, mem_iff, List.any_eq_true]
    simp only [Interval.contains_iff]
  · exact contains_iff
  · rw [contains_iff, mem_toList]

end PageSelection.IntervalSet
