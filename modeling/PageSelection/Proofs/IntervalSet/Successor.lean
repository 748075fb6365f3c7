import PageSelection.Proofs.IntervalSet.Enumeration

/-!
# The next number of a set

`next?` looks at the ends of the intervals and stops at the first one that has an answer; it never
goes through the numbers one by one. But the answer of a single interval is the first of its numbers
above `x` (`Interval.find?_values`), so the answer of the set is the first such number of the whole
enumeration (`next?_eq_find?`), and since the enumeration ascends, the first is also the least.

Asking for the next number of each answer goes through the enumeration. What is left to come shrinks
by exactly one element with each answer (`filter_lt_of_find?`), which is the induction behind
`walk_eq`, over gaps and ends of intervals alike.
-/

namespace PageSelection

/-! ### Ascending lists -/

section Ascending

variable {xs : List Int32} {x y : Int32}

/-- In an ascending list, the first element above a number is the least one. -/
theorem least_of_find?_lt (h : xs.Pairwise (· < ·)) (hfind : xs.find? (x < ·) = some y) :
    y ∈ xs ∧ x < y ∧ ∀ z ∈ xs, x < z → y ≤ z := by
  obtain ⟨hy, before, after, rfl, hbefore⟩ := List.find?_eq_some_iff_append.mp hfind
  refine ⟨by simp, by simpa using hy, fun z hz hxz => ?_⟩
  -- what stands in front of the first one is not above `x`, and the rest is above the first one
  rcases List.mem_append.mp hz with hz | hz
  · have hnot : ¬ x < z := by simpa using hbefore z hz
    exact absurd hxz hnot
  · rcases List.mem_cons.mp hz with rfl | hz
    · exact Int32.le_refl z
    · have hafter := (List.pairwise_cons.mp (List.pairwise_append.mp h).2.1).1
      exact Int32.le_of_lt (hafter z hz)

/-- Nothing is found just when no element is above the number. -/
theorem find?_lt_eq_none_iff : xs.find? (x < ·) = none ↔ ∀ z ∈ xs, z ≤ x := by
  simp only [List.find?_eq_none, decide_eq_true_eq, Int32.not_lt]

theorem find?_lt_eq_some_iff (h : xs.Pairwise (· < ·)) :
    xs.find? (x < ·) = some y ↔ y ∈ xs ∧ x < y ∧ ∀ z ∈ xs, x < z → y ≤ z := by
  constructor
  · exact least_of_find?_lt h
  · rintro ⟨hy, hxy, hleast⟩
    cases hfind : xs.find? (x < ·) with
    | none => exact absurd hxy (Int32.not_lt.mpr (find?_lt_eq_none_iff.mp hfind y hy))
    | some z =>
      -- of two least elements, neither is above the other
      obtain ⟨hz, hxz, hleast'⟩ := least_of_find?_lt h hfind
      rw [Int32.le_antisymm (hleast' y hy hxy) (hleast z hz hxz)]

/-- **One element at a time.** Above the first element that is found, there is what was above the
number, without that element. -/
theorem filter_lt_of_find? (h : xs.Pairwise (· < ·)) (hfind : xs.find? (x < ·) = some y) :
    xs.filter (x < ·) = y :: xs.filter (y < ·) := by
  obtain ⟨hy, before, after, rfl, hbefore⟩ := List.find?_eq_some_iff_append.mp hfind
  have hxy : x < y := by simpa using hy
  have hle : ∀ z ∈ before, z ≤ x := fun z hz => by simpa using hbefore z hz
  have hafter : ∀ z ∈ after, y < z :=
    (List.pairwise_cons.mp (List.pairwise_append.mp h).2.1).1
  -- neither bound keeps anything in front of `y`, and both keep everything behind it
  have hnone : ∀ w, x ≤ w → before.filter (w < ·) = [] := by
    intro w hw
    rw [List.filter_eq_nil_iff]
    intro z hz
    rw [decide_eq_true_eq, Int32.not_lt]
    exact Int32.le_trans (hle z hz) hw
  have hall : ∀ w, w ≤ y → after.filter (w < ·) = after := by
    intro w hw
    rw [List.filter_eq_self]
    intro z hz
    exact decide_eq_true (Int32.lt_of_le_of_lt hw (hafter z hz))
  calc (before ++ y :: after).filter (x < ·)
      = y :: after := by
        rw [List.filter_append, hnone x (Int32.le_refl x), List.nil_append,
          List.filter_cons, if_pos hy, hall x (Int32.le_of_lt hxy)]
    _ = y :: (before ++ y :: after).filter (y < ·) := by
        rw [List.filter_append, hnone y (Int32.le_of_lt hxy), List.nil_append,
          List.filter_cons, if_neg (by simp), hall y (Int32.le_refl y)]

end Ascending

/-! ### One interval -/

/-- The first number of an interval above `x`, if there is one, is its low end or follows `x`. -/
theorem Interval.find?_values (i : Interval) (x : Int32) :
    i.values.find? (x < ·) =
      if x < i.low then some i.low else if x < i.high then some (x + 1) else none := by
  split
  · next hlow =>
    rw [find?_lt_eq_some_iff i.pairwise_values]
    refine ⟨mem_values.mpr i.low_mem, hlow, fun z hz _ => ?_⟩
    exact Int32.le_iff_toInt_le.mpr (mem_iff.mp (mem_values.mp hz)).1
  · next hlow =>
    have hlow' := Int32.le_iff_toInt_le.mp (Int32.not_lt.mp hlow)
    split
    · next hhigh =>
      have hnext := toInt_add_one hhigh
      have hhigh' := Int32.lt_iff_toInt_lt.mp hhigh
      rw [find?_lt_eq_some_iff i.pairwise_values, mem_values, mem_iff, Int32.lt_iff_toInt_lt]
      refine ⟨⟨by omega, by omega⟩, by omega, fun z _ hxz => ?_⟩
      rw [Int32.lt_iff_toInt_lt] at hxz
      rw [Int32.le_iff_toInt_le]
      omega
    · next hhigh =>
      rw [find?_lt_eq_none_iff]
      intro z hz
      have hz' := Int32.le_iff_toInt_le.mpr (mem_iff.mp (mem_values.mp hz)).2
      exact Int32.le_trans hz' (Int32.not_lt.mp hhigh)

namespace IntervalSet

/-! ### All intervals -/

/-- **The next number is the first one of the enumeration above `x`.** -/
theorem next?_eq_find? (s : IntervalSet) (x : Int32) : s.next? x = s.toList.find? (x < ·) := by
  unfold next? toList
  simp only [List.find?_flatMap, Interval.find?_values]

/-- **Repeated questions.** Asked for the number after each answer, a set gives all of its numbers
above `x` in turn, and then none. -/
theorem walk_eq (s : IntervalSet) (x : Int32) (limit : Nat) :
    s.walk x limit = ((s.toList.filter (x < ·)).map some ++ [none]).take limit := by
  induction limit generalizing x with
  | zero => rfl
  | succ limit ih =>
    rw [walk, next?_eq_find?]
    cases hfind : s.toList.find? (x < ·) with
    | none =>
      have hnil : s.toList.filter (x < ·) = [] :=
        List.filter_eq_nil_iff.mpr (List.find?_eq_none.mp hfind)
      rw [hnil]
      simp
    | some y =>
      show some y :: s.walk y limit = _
      rw [filter_lt_of_find? s.pairwise_toList hfind, List.map_cons, List.cons_append,
        List.take_succ_cons, ih]

end IntervalSet

/-- **The next number is the least one above.** For every set and every machine integer `x`, the
answer is the first element of the enumeration above `x`, which is the least number of the set above
`x`, and there is no answer just when no number is. So asking for the next number of each answer,
from `x` on, goes through all numbers above `x` in ascending order and once each, and ends. The
pages of a selection are such a set: from below its first page, the first page is next, and from
its last page on there is none. -/
theorem next?_agrees_with_toList :
    (∀ (s : IntervalSet) (x : Int32),
      s.next? x = s.toList.find? (x < ·) ∧
      (∀ y, s.next? x = some y ↔ y ∈ s.toList ∧ x < y ∧ ∀ z ∈ s.toList, x < z → y ≤ z) ∧
      (s.next? x = none ↔ ∀ z ∈ s.toList, z ≤ x) ∧
      (s.toList.filter (x < ·)).Pairwise (· < ·) ∧
      ∀ limit, s.walk x limit = ((s.toList.filter (x < ·)).map some ++ [none]).take limit) ∧
    ∀ (p : Selection) (x : Int32),
      p.pages.next? x = p.pages.toList.find? (x < ·) ∧
      (p.pages.next? x = some p.firstPage ↔ x < p.firstPage) ∧
      (p.pages.next? x = none ↔ p.lastPage ≤ x) := by
  refine ⟨fun s x => ⟨s.next?_eq_find? x, fun y => ?_, ?_, ?_, s.walk_eq x⟩,
    fun p x => ⟨p.pages.next?_eq_find? x, ?_, ?_⟩⟩
  · rw [IntervalSet.next?_eq_find?, find?_lt_eq_some_iff s.pairwise_toList]
  · rw [IntervalSet.next?_eq_find?, find?_lt_eq_none_iff]
  · exact s.pairwise_toList.filter _
  · obtain ⟨hmem, hfirst⟩ := p.firstPage_spec
    rw [IntervalSet.next?_eq_find?, find?_lt_eq_some_iff p.pages.pairwise_toList]
    refine ⟨fun h => h.2.1, fun hx => ⟨IntervalSet.mem_toList.mpr hmem, hx, fun z hz _ => ?_⟩⟩
    exact hfirst z (IntervalSet.mem_toList.mp hz)
  · obtain ⟨hmem, hlast⟩ := p.lastPage_spec
    rw [IntervalSet.next?_eq_find?, find?_lt_eq_none_iff]
    refine ⟨fun h => h _ (IntervalSet.mem_toList.mpr hmem), fun hx z hz => ?_⟩
    exact Int32.le_trans (hlast z (IntervalSet.mem_toList.mp hz)) hx

end PageSelection
