import Mathlib.Tactic.ByContra
import PageSelection.IntervalSet.Query
import PageSelection.Proofs.Numeral
import PageSelection.Proofs.Search

/-!
# A set has one stored form

Two lists of separated intervals with the same numbers are the same list
(`Interval.eq_of_forall_mem_iff`). The argument compares the two lowest intervals. Each begins with
the least number of all, so they begin alike; and if one of them ended earlier, the number just
past its end would lie in the other list and be missing from its own, for whatever follows a
separated interval begins at least two above its end. So the lowest intervals agree, and since
neither shares a number with what follows it, the rest of the two lists have the same numbers too.

For sets this is extensionality (`IntervalSet.ext_mem`). The membership test of a set searches its
intervals by halving; their positions relative to a number ascend (`IntervalSet.ascends_position`),
and so it is exact (`IntervalSet.contains_iff`).
-/

namespace PageSelection

namespace Interval

/-! ### Numbers of separated intervals -/

/-- The low end of an interval is one of its numbers. -/
theorem low_mem (i : Interval) : i.low ∈ i :=
  mem_iff.mpr ⟨Int.le_refl _, i.low_le_high⟩

/-- A number of an interval is no number of an interval further up. -/
theorem Before.not_mem {i j : Interval} (h : i.Before j) {x : Int32} (hx : x ∈ i) : x ∉ j := by
  intro hx'
  rw [mem_iff] at hx hx'
  simp only [Before] at h
  omega

/-- If all numbers of `j` lie in a list that begins with `i`, then `j` does not begin below `i`. -/
theorem low_le_of_covered {i j : Interval} {rest : List Interval}
    (hrest : ∀ k ∈ rest, i.Before k) (hcover : ∀ x ∈ j, ∃ k ∈ i :: rest, x ∈ k) :
    i.low.toInt ≤ j.low.toInt := by
  obtain ⟨k, hk, hmem⟩ := hcover j.low j.low_mem
  have hlow := (mem_iff.mp hmem).1
  rcases List.mem_cons.mp hk with rfl | hk
  · exact hlow
  · -- whatever follows `i` begins above all of `i`
    have hbefore := hrest k hk
    have hi := i.low_le_high
    simp only [Before] at hbefore
    omega

/-- If all numbers of `j` lie in a separated list whose first interval begins like `j`, then that
interval does not end before `j` does. -/
theorem high_le_of_covered {i j : Interval} {rest : List Interval}
    (hrest : ∀ k ∈ rest, i.Before k) (hlow : i.low.toInt = j.low.toInt)
    (hcover : ∀ x ∈ j, ∃ k ∈ i :: rest, x ∈ k) : j.high.toInt ≤ i.high.toInt := by
  by_contra hshort
  have hi := i.low_le_high
  have hpast : i.high.toInt + 1 ≤ j.high.toInt := by omega
  -- the number just past the end of `i` belongs to `j`, and to nothing in the list
  obtain ⟨x, hx⟩ : ∃ x : Int32, x.toInt = i.high.toInt + 1 :=
    exists_toInt_eq (Int.le_add_one (Int.le_refl i.high.toInt)) hpast
  obtain ⟨k, hk, hmem⟩ := hcover x (mem_iff.mpr ⟨by omega, by omega⟩)
  have hbounds := mem_iff.mp hmem
  rcases List.mem_cons.mp hk with rfl | hk
  · omega
  · have hbefore := hrest k hk
    simp only [Before] at hbefore
    omega

/-- Whatever the rest of a separated list covers is covered by the rest of another list with the
same numbers and the same first interval. -/
theorem covered_rest {i : Interval} {is js : List Interval} (his : ∀ k ∈ is, i.Before k)
    {x : Int32} (hsub : (∃ k ∈ i :: is, x ∈ k) → ∃ k ∈ i :: js, x ∈ k)
    (hx : ∃ k ∈ is, x ∈ k) : ∃ k ∈ js, x ∈ k := by
  obtain ⟨k, hk, hmem⟩ := hx
  obtain ⟨k', hk', hmem'⟩ := hsub ⟨k, List.mem_cons_of_mem i hk, hmem⟩
  rcases List.mem_cons.mp hk' with rfl | hk'
  · exact absurd hmem ((his k hk).not_mem hmem')
  · exact ⟨k', hk', hmem'⟩

/-- **Uniqueness of the stored form.** Separated lists with the same numbers are equal. -/
theorem eq_of_forall_mem_iff {is js : List Interval} (his : is.Pairwise Before)
    (hjs : js.Pairwise Before) (h : ∀ x : Int32, (∃ i ∈ is, x ∈ i) ↔ ∃ j ∈ js, x ∈ j) :
    is = js := by
  induction is generalizing js with
  | nil =>
    cases js with
    | nil => rfl
    | cons j js =>
      obtain ⟨i, hi, -⟩ := (h j.low).mpr ⟨j, List.mem_cons_self, j.low_mem⟩
      exact absurd hi List.not_mem_nil
  | cons i is ih =>
    cases js with
    | nil =>
      obtain ⟨j, hj, -⟩ := (h i.low).mp ⟨i, List.mem_cons_self, i.low_mem⟩
      exact absurd hj List.not_mem_nil
    | cons j js =>
      obtain ⟨hi, his'⟩ := List.pairwise_cons.mp his
      obtain ⟨hj, hjs'⟩ := List.pairwise_cons.mp hjs
      -- each of the two lowest intervals is covered by the other list, so their ends agree
      have hcover : ∀ x ∈ j, ∃ k ∈ i :: is, x ∈ k :=
        fun x hx => (h x).mpr ⟨j, List.mem_cons_self, hx⟩
      have hcover' : ∀ x ∈ i, ∃ k ∈ j :: js, x ∈ k :=
        fun x hx => (h x).mp ⟨i, List.mem_cons_self, hx⟩
      have hlow : i.low.toInt = j.low.toInt :=
        Int.le_antisymm (low_le_of_covered hi hcover) (low_le_of_covered hj hcover')
      have hhigh : i.high.toInt = j.high.toInt :=
        Int.le_antisymm (high_le_of_covered hj hlow.symm hcover')
          (high_le_of_covered hi hlow hcover)
      obtain rfl : i = j := ext_ends (Int32.toInt_inj.mp hlow) (Int32.toInt_inj.mp hhigh)
      -- without it, the two lists still have the same numbers
      have hrest : ∀ x : Int32, (∃ k ∈ is, x ∈ k) ↔ ∃ k ∈ js, x ∈ k :=
        fun x => ⟨covered_rest hi (h x).mp, covered_rest hj (h x).mpr⟩
      rw [ih his' hjs' hrest]

end Interval

namespace IntervalSet

/-! ### Sets -/

/-- **Extensionality.** Sets with the same numbers are equal. -/
theorem ext_mem {s t : IntervalSet} (h : ∀ x, x ∈ s ↔ x ∈ t) : s = t :=
  ext_intervals (Interval.eq_of_forall_mem_iff s.pairwise_intervals t.pairwise_intervals h)

theorem position_eq_lt_iff {x : Int32} {i : Interval} :
    position x i = .lt ↔ i.high.toInt < x.toInt := by
  rw [← Int32.lt_iff_toInt_lt]
  unfold position
  split
  · next h => simp [h]
  · next h =>
    split
    · simp [h]
    · simp [h]

theorem position_eq_gt_iff {x : Int32} {i : Interval} :
    position x i = .gt ↔ x.toInt < i.low.toInt := by
  have hi := i.low_le_high
  rw [← Int32.lt_iff_toInt_lt]
  unfold position
  split
  · next h =>
    have hhigh := Int32.lt_iff_toInt_lt.mp h
    have hlow : ¬ x < i.low := by
      rw [Int32.lt_iff_toInt_lt]
      omega
    simp [hlow]
  · split
    · next h => simp [h]
    · next h => simp [h]

theorem position_eq_eq_iff {x : Int32} {i : Interval} : position x i = .eq ↔ x ∈ i := by
  have hlt := position_eq_lt_iff (x := x) (i := i)
  have hgt := position_eq_gt_iff (x := x) (i := i)
  rw [Interval.mem_iff]
  cases hpos : position x i with
  | lt =>
    have hhigh := hlt.mp hpos
    refine ⟨fun h => absurd h (by decide), fun h => ?_⟩
    omega
  | eq =>
    rw [hpos] at hlt hgt
    have hhigh : ¬ i.high.toInt < x.toInt := fun h => by cases hlt.mpr h
    have hlow : ¬ x.toInt < i.low.toInt := fun h => by cases hgt.mpr h
    exact ⟨fun _ => ⟨by omega, by omega⟩, fun _ => rfl⟩
  | gt =>
    have hlow := hgt.mp hpos
    refine ⟨fun h => absurd h (by decide), fun h => ?_⟩
    omega

/-- Of two places in the array of intervals, the one with the smaller index lies lower. -/
theorem before_of_index_lt (s : IntervalSet) {a b : Nat} (ha : a < s.intervals.toArray.size)
    (hb : b < s.intervals.toArray.size) (hlt : a < b) :
    (s.intervals.toArray[a]).Before s.intervals.toArray[b] :=
  List.pairwise_iff_getElem.mp s.pairwise_intervals a b ha hb hlt

/-- Seen from a number, the intervals of a set come first below it, then around it, then above. -/
theorem ascends_position (s : IntervalSet) (x : Int32) :
    Search.Ascends (position x) s.intervals.toArray := by
  intro a b ha hb hab
  rcases Nat.eq_or_lt_of_le hab with rfl | hlt
  · exact ⟨id, id⟩
  · have hbefore := s.before_of_index_lt ha hb hlt
    have hlow := (s.intervals.toArray[a]).low_le_high
    have hhigh := (s.intervals.toArray[b]).low_le_high
    simp only [Interval.Before] at hbefore
    rw [position_eq_lt_iff, position_eq_lt_iff, position_eq_gt_iff, position_eq_gt_iff]
    exact ⟨fun h => by omega, fun h => by omega⟩

/-- **The membership test is exact.** -/
@[simp] theorem contains_iff {s : IntervalSet} {x : Int32} : s.contains x = true ↔ x ∈ s := by
  rw [contains, Search.isFound_run_iff (s.ascends_position x), mem_iff]
  simp only [List.mem_toArray, position_eq_eq_iff]

/-- Two sets with the same answers to the membership test are equal. -/
theorem eq_of_contains {s t : IntervalSet} (h : ∀ x, s.contains x = t.contains x) : s = t := by
  refine ext_mem fun x => ?_
  rw [← contains_iff, ← contains_iff, h x]

end IntervalSet

end PageSelection
