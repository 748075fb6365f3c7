import PageSelection.IntervalSet.Query

/-!
# The ends of separated intervals

In a list of separated intervals the first one holds the least number of all, and the last one the
greatest. Both follow from the order of the list alone, since an interval that lies before another
one begins and ends below it. Separated intervals share no number either, and so a set has no more
numbers than there are machine integers from 0 on (`IntervalSet.size_le`).
-/

namespace PageSelection.Interval

theorem Before.low_le {i j : Interval} (h : i.Before j) : i.low.toInt ≤ j.low.toInt := by
  have hi := i.low_le_high
  simp only [Before] at h
  omega

theorem Before.high_le {i j : Interval} (h : i.Before j) : i.high.toInt ≤ j.high.toInt := by
  have hj := j.low_le_high
  simp only [Before] at h
  omega

/-- No interval begins below the first one. -/
theorem low_head_le {is : List Interval} (h : is.Pairwise Before) (hne : is ≠ []) :
    ∀ i ∈ is, (is.head hne).low.toInt ≤ i.low.toInt := by
  obtain ⟨first, rest, rfl⟩ := List.exists_cons_of_ne_nil hne
  intro i hi
  rcases List.mem_cons.mp hi with rfl | hi
  · exact Int.le_refl _
  · exact ((List.pairwise_cons.mp h).1 i hi).low_le

/-- No interval ends above the last one. -/
theorem high_le_getLast {is : List Interval} (h : is.Pairwise Before) (hne : is ≠ []) :
    ∀ i ∈ is, i.high.toInt ≤ (is.getLast hne).high.toInt := by
  intro i hi
  -- every other interval stands in front of the last one, and so lies before it
  rw [← List.dropLast_concat_getLast hne] at h hi
  rcases List.mem_append.mp hi with hi | hi
  · exact ((List.pairwise_append.mp h).2.2 i hi _ List.mem_cons_self).high_le
  · obtain rfl := List.mem_singleton.mp hi
    exact Int.le_refl _

/-! ### How many numbers there are -/

/-- An interval has all numbers from its low end to its high end. -/
theorem toInt_size (i : Interval) : (i.size : Int) = i.high.toInt - i.low.toInt + 1 := by
  have hi := i.low_le_high
  unfold size
  omega

/-- Separated intervals that begin at `k` or above have no more numbers than there are machine
integers from `k` on. -/
theorem foldr_size_le {is : List Interval} (h : is.Pairwise Before) {k : Int} (hk : k ≤ 2147483648)
    (hlow : ∀ i ∈ is, k ≤ i.low.toInt) :
    ((is.foldr (fun i rest => i.size + rest) 0 : Nat) : Int) ≤ 2147483648 - k := by
  induction is generalizing k with
  | nil => exact Int.sub_nonneg_of_le hk
  | cons i is ih =>
    obtain ⟨hbefore, htail⟩ := List.pairwise_cons.mp h
    have hsize := i.toInt_size
    have hi := i.high_le
    have hstart := hlow i List.mem_cons_self
    -- the others begin behind the end of the first one
    have hrest := ih htail (k := i.high.toInt + 1) (by omega) fun j hj => by
      have hj := hbefore j hj
      simp only [Before] at hj
      omega
    rw [List.foldr_cons]
    omega

/-- No interval has more numbers than there are machine integers from 0 on. -/
theorem size_le (i : Interval) : i.size ≤ 2147483648 := by
  have hsize := i.toInt_size
  have hlow := i.low_nonneg
  have hhigh := i.high_le
  omega

end PageSelection.Interval

/-- No set has more numbers than there are machine integers from 0 on. -/
theorem PageSelection.IntervalSet.size_le (s : IntervalSet) : s.size ≤ 2147483648 := by
  have h := Interval.foldr_size_le s.pairwise_intervals (k := 0) (by decide) fun i _ => i.low_nonneg
  unfold size
  omega
