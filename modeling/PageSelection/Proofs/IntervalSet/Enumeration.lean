import Mathlib.Algebra.Ring.Int.Defs
import Mathlib.Data.Finset.Card
import Mathlib.Data.Int.Range
import PageSelection.Proofs.Selection.Classification

/-!
# The numbers of a set in ascending order

`toList` writes out one interval after another. Within an interval the numbers ascend, and because
intervals are separated, whatever comes from a later one is larger than all that came before
(`pairwise_toList`). So nothing is listed twice, and the questions about the number of the elements
and about the two ends, which are answered from the intervals alone, have the answers that the list
gives: `length_toList`, `head?_toList`, `getLast?_toList`, and `slice_eq` for a stretch of it.

A set that members build has exactly their numbers. Each of them is listed once, however many of the
members share it, and so the number of elements is that of the integers which some member covers
(`size_eq_card_covered`).
-/

namespace PageSelection

namespace Interval

/-! ### The numbers of one interval -/

@[simp] theorem length_values (i : Interval) : i.values.length = i.size := by
  rw [values, List.length_map, List.length_range]

/-- The numbers of an interval ascend. -/
theorem pairwise_values (i : Interval) : i.values.Pairwise (· < ·) := by
  rw [values, List.pairwise_map]
  refine List.pairwise_lt_range.imp_of_mem fun {a b} ha hb hlt => ?_
  rw [Int32.lt_iff_toInt_lt, toInt_nth (List.mem_range.mp ha), toInt_nth (List.mem_range.mp hb)]
  omega

theorem head?_values (i : Interval) : i.values.head? = some i.low := by
  have hpos : 0 < i.size := Nat.succ_pos _
  have hfirst : i.nth 0 = i.low := by
    rw [← Int32.toInt_inj, toInt_nth hpos]
    exact Int.add_zero _
  rw [values, List.head?_map, List.head?_range, if_neg hpos.ne', Option.map_some, hfirst]

theorem getLast?_values (i : Interval) : i.values.getLast? = some i.high := by
  have hpos : 0 < i.size := Nat.succ_pos _
  have hlast : i.nth (i.size - 1) = i.high := by
    have hsize := i.toInt_size
    rw [← Int32.toInt_inj, toInt_nth (Nat.sub_one_lt_of_lt hpos)]
    omega
  rw [values, List.getLast?_map, List.getLast?_range, if_neg hpos.ne', Option.map_some, hlast]

/-- All numbers of an interval are smaller than those of an interval further up. -/
theorem Before.lt_of_mem {i j : Interval} (h : i.Before j) {x y : Int32} (hx : x ∈ i)
    (hy : y ∈ j) : x < y := by
  have hx' := (mem_iff.mp hx).2
  have hy' := (mem_iff.mp hy).1
  simp only [Before] at h
  rw [Int32.lt_iff_toInt_lt]
  omega

end Interval

namespace IntervalSet

/-! ### The numbers of a set -/

/-- **The numbers of a set ascend.** -/
theorem pairwise_toList (s : IntervalSet) : s.toList.Pairwise (· < ·) := by
  rw [toList, List.pairwise_flatMap]
  refine ⟨fun i _ => i.pairwise_values, s.pairwise_intervals.imp fun hbefore x hx y hy => ?_⟩
  exact hbefore.lt_of_mem (Interval.mem_values.mp hx) (Interval.mem_values.mp hy)

/-- No number is listed twice. -/
theorem nodup_toList (s : IntervalSet) : s.toList.Nodup :=
  s.pairwise_toList.imp Int32.ne_of_lt

/-- No number of a set is negative. -/
theorem toInt_nonneg_of_mem {s : IntervalSet} {x : Int32} (hx : x ∈ s) : 0 ≤ x.toInt := by
  obtain ⟨i, -, hmem⟩ := hx
  exact Int.le_trans i.low_nonneg (Interval.mem_iff.mp hmem).1

/-- The numbers are listed once for each that is counted. -/
theorem length_toList (s : IntervalSet) : s.toList.length = s.size := by
  unfold toList size
  induction s.intervals with
  | nil => rfl
  | cons i is ih => rw [List.flatMap_cons, List.length_append, Interval.length_values, ih]; rfl

/-- The size of a set is the sum of the lengths of its intervals. -/
theorem toInt_size (s : IntervalSet) :
    (s.size : Int) = (s.intervals.map fun i => i.high.toInt - i.low.toInt + 1).sum := by
  unfold size
  induction s.intervals with
  | nil => rfl
  | cons i is ih =>
    rw [List.foldr_cons, List.map_cons, List.sum_cons, Int.natCast_add, ih, i.toInt_size]

theorem head?_toList (s : IntervalSet) : s.toList.head? = s.first? := by
  unfold toList first?
  cases s.intervals with
  | nil => rfl
  | cons i is => rw [List.flatMap_cons, List.head?_append, Interval.head?_values]; rfl

theorem getLast?_toList (s : IntervalSet) : s.toList.getLast? = s.last? := by
  unfold toList last?
  rcases List.eq_nil_or_concat s.intervals with hnil | ⟨is, i, hlast⟩
  · rw [hnil]
    rfl
  · rw [hlast, List.concat_eq_append, List.flatMap_append, List.flatMap_singleton,
      List.getLast?_append, Interval.getLast?_values, List.getLast?_concat]
    rfl

/-- A slice of some intervals is the stretch of their numbers that it stands for. -/
theorem sliceOf_eq (is : List Interval) (skip limit : Nat) :
    sliceOf is skip limit = ((is.flatMap Interval.values).drop skip).take limit := by
  induction is generalizing skip limit with
  | nil => simp [sliceOf]
  | cons i is ih =>
    rw [sliceOf, ih, Interval.slice_eq, List.flatMap_cons, List.drop_append, List.take_append,
      List.length_drop, Interval.length_values]

theorem slice_eq (s : IntervalSet) (skip limit : Nat) :
    s.slice skip limit = (s.toList.drop skip).take limit :=
  sliceOf_eq s.intervals skip limit

/-- A set without numbers has no intervals. -/
theorem toList_eq_nil_iff {s : IntervalSet} : s.toList = [] ↔ s.isEmpty = true := by
  unfold isEmpty
  rw [List.isEmpty_iff]
  constructor
  · intro hnil
    rw [List.eq_nil_iff_forall_not_mem]
    intro i hi
    -- the low end of an interval would be listed
    have hlow : i.low ∈ s.toList := mem_toList.mpr (mem_iff_descending.mpr ⟨i, hi, i.low_mem⟩)
    rw [hnil] at hlow
    cases hlow
  · intro hnil
    unfold toList intervals
    rw [hnil]
    rfl

/-! ### Counting the numbers of members -/

/-- The integers that some of the members have, each of them once. -/
def covered (members : List Member) : Finset Int :=
  (members.flatMap fun m => Int.range m.bounds.low.toInt (m.bounds.high.toInt + 1)).toFinset

theorem mem_covered {members : List Member} {x : Int} :
    x ∈ covered members ↔ ∃ m ∈ members, m.bounds.low.toInt ≤ x ∧ x ≤ m.bounds.high.toInt := by
  simp only [covered, List.mem_toFinset, List.mem_flatMap, Int.mem_range_iff, Int.lt_add_one_iff]

/-- The integers of the list are those that the members cover. -/
theorem toFinset_map_toList {members : List Member} {s : IntervalSet}
    (h : ∀ x, x ∈ s ↔ ∃ m ∈ members, x ∈ m.bounds) :
    (s.toList.map Int32.toInt).toFinset = covered members := by
  ext x
  rw [mem_covered, ← exists_between_intervals_iff h, exists_between_iff_exists_mem,
    List.mem_toFinset, List.mem_map]
  simp only [mem_toList, mem_iff, Interval.mem_iff, and_comm]

/-- **Overlapping members are counted once.** -/
theorem size_eq_card_covered {members : List Member} {s : IntervalSet}
    (h : ∀ x, x ∈ s ↔ ∃ m ∈ members, x ∈ m.bounds) : s.size = (covered members).card := by
  have hnodup : (s.toList.map Int32.toInt).Nodup :=
    s.nodup_toList.map fun _ _ => Int32.toInt_inj.mp
  calc s.size
      = (s.toList.map Int32.toInt).length := by rw [List.length_map, length_toList]
    _ = (s.toList.map Int32.toInt).toFinset.card := (List.toFinset_card_of_nodup hnodup).symm
    _ = (covered members).card := by rw [toFinset_map_toList h]

/-- `BuiltFrom members s` holds when the set `s` is what the given members make: as they are, by
the rows of a table that stand for them, or by a text that lists their bounds. A single number or a
range is an only member. -/
inductive BuiltFrom (members : List Member) : IntervalSet → Prop
  | members {s : IntervalSet} (h : ofMembers members = .ok s) : BuiltFrom members s
  | rows (rows : List (List Int32)) {s : IntervalSet} (hrows : List.Forall₂ RowOf rows members)
      (h : ofRows rows = .ok s) : BuiltFrom members s
  | text (text : String) {items : List RangeList.Item} {s : IntervalSet}
      (hparse : RangeList.parse text = .ok items)
      (hitems : items.map (·.bounds) = members.map (·.bounds))
      (h : ofText text = .ok s) : BuiltFrom members s

/-- All constructors come down to the members. -/
theorem BuiltFrom.ofMembers_eq {members : List Member} {s : IntervalSet}
    (h : BuiltFrom members s) : ofMembers members = .ok s := by
  cases h with
  | members h => exact h
  | rows rows hrows h =>
    unfold ofRows at h
    rw [mapM_memberOfRow_eq_ok hrows 0] at h
    exact h
  | @text text items _ hparse hitems h =>
    -- the items are members with the same bounds
    unfold ofText ofItems at h
    rw [hparse] at h
    have hbuilt : ofMembers (items.map (·.bounds.member)) = .ok s := h
    rw [ofMembers_eq_foldlM_bounds, List.map_map] at hbuilt
    rw [ofMembers_eq_foldlM_bounds, ← hitems]
    exact hbuilt

/-- **Counts and ends are those of the enumeration.** The numbers of a set are listed in strictly
ascending order, without repetition, and none of them is negative; a slice is a stretch of this
list. The size of the set, which is the sum of the lengths of its intervals, is the number of the
elements, and also the number of the integers that the members cover from which the set has been
built, those that several members share counted once. The ends of the set are those of the list, and
a set is empty, has the size 0 or lacks one of the ends just when the list is empty. -/
theorem counts_agree_with_toList (s : IntervalSet) :
    (s.toList.Pairwise (· < ·) ∧ s.toList.Nodup ∧ ∀ x ∈ s.toList, 0 ≤ x.toInt) ∧
    (∀ skip limit, s.slice skip limit = (s.toList.drop skip).take limit) ∧
    (s.size = s.toList.length ∧
      (s.size : Int) = (s.intervals.map fun i => i.high.toInt - i.low.toInt + 1).sum ∧
      ∀ members, BuiltFrom members s → s.size = (covered members).card) ∧
    (s.first? = s.toList.head? ∧ s.last? = s.toList.getLast?) ∧
    (s.isEmpty = true ↔ s.toList = []) ∧ (s.size = 0 ↔ s.toList = []) ∧
    (s.first? = none ↔ s.toList = []) ∧ (s.last? = none ↔ s.toList = []) := by
  refine ⟨⟨s.pairwise_toList, s.nodup_toList, ?_⟩, s.slice_eq,
    ⟨s.length_toList.symm, s.toInt_size, ?_⟩, ⟨s.head?_toList.symm, s.getLast?_toList.symm⟩,
    toList_eq_nil_iff.symm, ?_, ?_, ?_⟩
  · intro x hx
    exact toInt_nonneg_of_mem (mem_toList.mp hx)
  · intro members hbuilt
    exact size_eq_card_covered (ofMembers_eq_ok_iff.mp hbuilt.ofMembers_eq).2
  · rw [← length_toList, List.length_eq_zero_iff]
  · rw [← head?_toList, List.head?_eq_none_iff]
  · rw [← getLast?_toList, List.getLast?_eq_none_iff]

/-- A text whose items overlap, repeat a number and are reversed selects eight integers. -/
theorem counts_of_overlapping_items :
    ∃ s, BuiltFrom [.range 4 9, .single 1, .range 9 2, .range 3 5, .single 1] s ∧ s.size = 8 ∧
      (covered [.range 4 9, .single 1, .range 9 2, .range 3 5, .single 1]).card = 8 := by
  obtain ⟨s, hsize, hbuilt⟩ : ∃ s : IntervalSet, s.size = 8 ∧
      BuiltFrom [.range 4 9, .single 1, .range 9 2, .range 3 5, .single 1] s :=
    ⟨⟨[⟨3, 9, by decide, by decide⟩, ⟨1, 1, by decide, by decide⟩], by decide⟩, by decide,
      .text "4-9, 1,9-2,3:5,1" rfl rfl rfl⟩
  obtain ⟨-, -, ⟨-, -, hcard⟩, -⟩ := counts_agree_with_toList s
  exact ⟨s, hbuilt, hsize, by rw [← hcard _ hbuilt, hsize]⟩

end IntervalSet

end PageSelection
