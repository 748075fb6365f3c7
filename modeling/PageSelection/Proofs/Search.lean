import Mathlib.Tactic.ByContra
import PageSelection.Search

/-!
# Binary search is exact

`Search.run` halves a window whose two sides are already decided: what stands below the window
comes before the target, and what stands above it comes after the target. The comparator has to be
monotone along the array for that (`Search.Ascends`): once an element does not come before the
target no later one does, and once an element comes after the target all later ones do.

* `window_spec` carries the two decided sides through the recursion. A window that has become empty
  leaves a clean cut between the elements before the target and those after it.
* `run_spec` is the same for the whole array, where both sides are empty at first.
* `isFound_run_iff` is what a membership test needs: the search finds something exactly when some
  element matches.
* `run_eq_iff` pins the result itself down. Where no two elements match, an array is settled in one
  way only, so the order of the probes has no influence on what is found.
-/

namespace PageSelection.Search

variable {α : Type} {order : α → Ordering} {xs : Array α}

/-- The elements that come before the target stand first, and those that come after it last. -/
def Ascends (order : α → Ordering) (xs : Array α) : Prop :=
  ∀ i j (hi : i < xs.size) (hj : j < xs.size), i ≤ j →
    (order xs[j] = .lt → order xs[i] = .lt) ∧ (order xs[i] = .gt → order xs[j] = .gt)

/-- What a search has established when it ends: the index of a match, or a cut of the array with
the smaller elements below and the larger ones above. -/
def Settles (order : α → Ordering) (xs : Array α) : Search → Prop
  | found index => ∃ h : index < xs.size, order xs[index] = .eq
  | missing index => index ≤ xs.size ∧
      (∀ j (hj : j < xs.size), j < index → order xs[j] = .lt) ∧
      (∀ j (hj : j < xs.size), index ≤ j → order xs[j] = .gt)

/-- **The window invariant.** A search of the window `[lo, hi)` settles the whole array, provided
that everything below the window comes before the target and everything above it after it. -/
theorem window_spec (hmono : Ascends order xs) {lo hi : Nat} (inside : hi ≤ xs.size)
    (hle : lo ≤ hi) (hbelow : ∀ j (hj : j < xs.size), j < lo → order xs[j] = .lt)
    (habove : ∀ j (hj : j < xs.size), hi ≤ j → order xs[j] = .gt) :
    Settles order xs (window order xs lo hi inside) := by
  fun_induction window order xs lo hi inside with
  | case1 lo hi inside hlt mid hmid hprobe ih =>
    -- the probe comes before the target, and so does everything below it
    have hmiddle : mid = lo + (hi - lo) / 2 := rfl
    refine ih (by omega) (fun j hj hjmid => ?_) habove
    exact (hmono j mid hj hmid (by omega)).1 hprobe
  | case2 lo hi inside hlt mid hmid hprobe =>
    -- the probe matches
    exact ⟨hmid, hprobe⟩
  | case3 lo hi inside hlt mid hmid hprobe ih =>
    -- the probe comes after the target, and so does everything above it
    have hmiddle : mid = lo + (hi - lo) / 2 := rfl
    refine ih (by omega) hbelow (fun j hj hjmid => ?_)
    exact (hmono mid j hmid hj hjmid).2 hprobe
  | case4 lo hi inside hempty =>
    -- nothing is left between the two sides, so they meet in a cut
    obtain rfl : lo = hi := by omega
    exact ⟨inside, hbelow, habove⟩

/-- A search of the whole array settles it. -/
theorem run_spec (hmono : Ascends order xs) : Settles order xs (run order xs) := by
  refine window_spec hmono _ (Nat.zero_le _) ?_ ?_
  · intro j _ hj
    exact absurd hj (Nat.not_lt_zero j)
  · intro j hj hge
    exact absurd hj (Nat.not_lt.mpr hge)

/-- No element matches on either side of a cut. -/
theorem Settles.ne_eq {index j : Nat} (h : Settles order xs (missing index)) (hj : j < xs.size) :
    order xs[j] ≠ .eq := by
  obtain ⟨-, hbelow, habove⟩ := h
  intro heq
  rcases Nat.lt_or_ge j index with hlt | hge
  · rw [hbelow j hj hlt] at heq
    cases heq
  · rw [habove j hj hge] at heq
    cases heq

/-- **A search finds something exactly when some element matches.** -/
theorem isFound_run_iff (hmono : Ascends order xs) :
    (run order xs).isFound = true ↔ ∃ x ∈ xs, order x = .eq := by
  have hspec := run_spec hmono
  cases hrun : run order xs with
  | found index =>
    rw [hrun] at hspec
    obtain ⟨hindex, heq⟩ := hspec
    exact ⟨fun _ => ⟨xs[index], Array.getElem_mem hindex, heq⟩, fun _ => rfl⟩
  | missing index =>
    rw [hrun] at hspec
    refine ⟨fun h => absurd h (by simp [isFound]), ?_⟩
    rintro ⟨x, hx, heq⟩
    obtain ⟨j, hj, rfl⟩ := Array.getElem_of_mem hx
    exact absurd heq (hspec.ne_eq hj)

/-- Two cuts are at the same place, for an element between them would be on both sides. -/
theorem Settles.cut_le {index index' : Nat} (h : Settles order xs (missing index))
    (h' : Settles order xs (missing index')) : index ≤ index' := by
  obtain ⟨hinside, hbelow, -⟩ := h
  obtain ⟨-, -, habove'⟩ := h'
  by_contra hlt
  have hindex' : index' < xs.size := by omega
  have hbefore := hbelow index' hindex' (by omega)
  rw [habove' index' hindex' (Nat.le_refl index')] at hbefore
  cases hbefore

/-- An array without two matches is settled in one way only. -/
theorem Settles.unique
    (hsingle : ∀ i j (hi : i < xs.size) (hj : j < xs.size),
      order xs[i] = .eq → order xs[j] = .eq → i = j)
    {r r' : Search} (h : Settles order xs r) (h' : Settles order xs r') : r = r' := by
  cases r with
  | found i =>
    obtain ⟨hi, heq⟩ := h
    cases r' with
    | found j =>
      obtain ⟨hj, heq'⟩ := h'
      rw [hsingle i j hi hj heq heq']
    | missing cut => exact absurd heq (h'.ne_eq hi)
  | missing cut =>
    cases r' with
    | found j =>
      obtain ⟨hj, heq'⟩ := h'
      exact absurd heq' (h.ne_eq hj)
    | missing cut' => rw [Nat.le_antisymm (h.cut_le h') (h'.cut_le h)]

/-- **The result of a search, whatever it probes on the way.** -/
theorem run_eq_iff (hmono : Ascends order xs)
    (hsingle : ∀ i j (hi : i < xs.size) (hj : j < xs.size),
      order xs[i] = .eq → order xs[j] = .eq → i = j)
    {r : Search} : run order xs = r ↔ Settles order xs r := by
  constructor
  · rintro rfl
    exact run_spec hmono
  · exact (run_spec hmono).unique hsingle

end PageSelection.Search
