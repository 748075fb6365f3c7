import PageSelection.IntervalSet.Insert
import PageSelection.Proofs.IntervalSet.Canonical

/-!
# What a list of members builds

Members are taken one after another, and all that is taken of them are their bounds. A member whose
bounds are in order but begin below zero ends the construction with an error; any other adds its
numbers, which are none at all when its bounds are reversed. So the outcome is decided by the first
negative member in the list, and if there is none by the numbers that the members have.

* `insert_of_isNegative` and `exists_insert` say what the bounds of one member do,
  `foldlM_insertMember_eq_error` and `exists_foldlM_insertMember` what a list of members does to any
  set.
* `ofMembers_eq_ok_iff` pins the result down completely: a list of members builds `s` exactly when
  none of them is negative and `s` has their numbers. That the numbers determine `s` is the
  uniqueness of the stored form.
* `ofMembers_eq_error_iff` is the other half: the error names the first negative member.

`ofMembers_canonical_exact` says the same in terms of plain integers, and adds the canonical form.
-/

namespace PageSelection

/-- Either no element of a list has a property, or there is a first one that has it. -/
theorem forall_not_or_exists_append {α : Type} (p : α → Prop) [DecidablePred p] (xs : List α) :
    (∀ x ∈ xs, ¬ p x) ∨
      ∃ before x after, xs = before ++ x :: after ∧ (∀ y ∈ before, ¬ p y) ∧ p x := by
  cases hfind : xs.find? (fun x => decide (p x)) with
  | none =>
    refine .inl fun x hx => ?_
    simpa using List.find?_eq_none.mp hfind x hx
  | some x =>
    obtain ⟨hx, before, after, rfl, hbefore⟩ := List.find?_eq_some_iff_append.mp hfind
    exact .inr ⟨before, x, after, rfl, fun y hy => by simpa using hbefore y hy, by simpa using hx⟩

namespace Bounds

/-- The bounds are in order, but begin below zero. -/
def IsNegative (b : Bounds) : Prop := b.low.toInt ≤ b.high.toInt ∧ b.low.toInt < 0

instance : DecidablePred IsNegative := fun _ => inferInstanceAs (Decidable (_ ∧ _))

/-- Reversed bounds have no numbers. -/
theorem not_mem_of_reversed {b : Bounds} (h : ¬ b.low ≤ b.high) {x : Int32} : x ∉ b := by
  rw [mem_iff]
  rw [Int32.le_iff_toInt_le] at h
  omega

end Bounds

namespace IntervalSet

/-! ### One member -/

/-- A negative member is refused. -/
theorem insert_of_isNegative (s : IntervalSet) {b : Bounds} (h : b.IsNegative) :
    s.insert b = .error (.negative b) := by
  obtain ⟨hordered, hnegative⟩ := h
  have hle : b.low ≤ b.high := Int32.le_iff_toInt_le.mpr hordered
  have hlt : ¬ 0 ≤ b.low := by
    rw [Int32.le_iff_toInt_le, Int32.toInt_zero]
    omega
  unfold insert
  rw [dif_pos hle, dif_neg hlt]
  rfl

/-- **One step of the construction.** Every other member adds its numbers. -/
theorem exists_insert (s : IntervalSet) {b : Bounds} (h : ¬ b.IsNegative) :
    ∃ t, s.insert b = .ok t ∧ ∀ x, x ∈ t ↔ x ∈ s ∨ x ∈ b := by
  by_cases hle : b.low ≤ b.high
  · -- bounds in order are those of an interval, since they are not negative
    have hnonneg : 0 ≤ b.low := by
      rw [Int32.le_iff_toInt_le, Int32.toInt_zero]
      have hordered := Int32.le_iff_toInt_le.mp hle
      by_contra hlt
      exact h ⟨hordered, by omega⟩
    refine ⟨s.add ⟨b.low, b.high, hnonneg, hle⟩, ?_, fun x => ?_⟩
    · unfold insert
      rw [dif_pos hle, dif_pos hnonneg]
      rfl
    · rw [mem_add, or_comm]
      exact Iff.rfl
  · -- reversed bounds leave the set as it is, and have no numbers that could be missing
    refine ⟨s, ?_, fun x => ?_⟩
    · unfold insert
      rw [dif_neg hle]
      rfl
    · have hnone : x ∉ b := Bounds.not_mem_of_reversed hle
      simp [hnone]

/-! ### A list of members -/

/-- Nothing but the bounds of members matters. -/
theorem ofMembers_eq_foldlM_bounds (members : List Member) :
    ofMembers members = (members.map (·.bounds)).foldlM insert empty := by
  rw [List.foldlM_map]
  rfl

/-- The first negative member ends the construction, whatever stands before or behind it. -/
theorem foldlM_insertMember_eq_error {before after : List Member} {m : Member}
    (hbefore : ∀ a ∈ before, ¬ a.bounds.IsNegative) (hm : m.bounds.IsNegative) (s : IntervalSet) :
    (before ++ m :: after).foldlM insertMember s = .error (.negative m.bounds) := by
  induction before generalizing s with
  | nil =>
    have hrefused : s.insertMember m = .error (.negative m.bounds) := insert_of_isNegative s hm
    rw [List.nil_append, List.foldlM_cons, hrefused]
    rfl
  | cons a before ih =>
    obtain ⟨t, hinsert, -⟩ := exists_insert s (hbefore a List.mem_cons_self)
    have hadded : s.insertMember a = .ok t := hinsert
    rw [List.cons_append, List.foldlM_cons, hadded]
    exact ih (fun a' ha' => hbefore a' (List.mem_cons_of_mem a ha')) t

/-- **A run of the construction.** Without a negative member it succeeds, and adds the numbers of
all members. -/
theorem exists_foldlM_insertMember {members : List Member}
    (h : ∀ m ∈ members, ¬ m.bounds.IsNegative) (s : IntervalSet) :
    ∃ t, members.foldlM insertMember s = .ok t ∧
      ∀ x, x ∈ t ↔ x ∈ s ∨ ∃ m ∈ members, x ∈ m.bounds := by
  induction members generalizing s with
  | nil => exact ⟨s, rfl, fun x => by simp⟩
  | cons m members ih =>
    obtain ⟨t, hinsert, hmem⟩ := exists_insert s (h m List.mem_cons_self)
    obtain ⟨u, hfold, hmem'⟩ := ih (fun m' hm' => h m' (List.mem_cons_of_mem m hm')) t
    have hadded : s.insertMember m = .ok t := hinsert
    refine ⟨u, ?_, fun x => ?_⟩
    · rw [List.foldlM_cons, hadded]
      exact hfold
    · rw [hmem' x, hmem x, or_assoc]
      simp

/-- Either no member is negative, or there is a first one that is. -/
theorem forall_or_exists_first (members : List Member) :
    (∀ m ∈ members, ¬ m.bounds.IsNegative) ∨
      ∃ before m after, members = before ++ m :: after ∧
        (∀ a ∈ before, ¬ a.bounds.IsNegative) ∧ m.bounds.IsNegative :=
  forall_not_or_exists_append (fun m : Member => m.bounds.IsNegative) members

/-- **When a set is built, and which.** -/
theorem ofMembers_eq_ok_iff {members : List Member} {s : IntervalSet} :
    ofMembers members = .ok s ↔
      (∀ m ∈ members, ¬ m.bounds.IsNegative) ∧ ∀ x, x ∈ s ↔ ∃ m ∈ members, x ∈ m.bounds := by
  unfold ofMembers
  rcases forall_or_exists_first members with hnone | ⟨before, m, after, rfl, hbefore, hm⟩
  · -- the construction ends with some set, and no other set has the same numbers
    obtain ⟨t, hfold, hmem⟩ := exists_foldlM_insertMember hnone empty
    have hmem' : ∀ x, x ∈ t ↔ ∃ m ∈ members, x ∈ m.bounds := fun x => by
      simp [hmem x, not_mem_empty]
    rw [hfold]
    constructor
    · intro h
      cases h
      exact ⟨hnone, hmem'⟩
    · rintro ⟨-, hs⟩
      rw [ext_mem fun x => (hmem' x).trans (hs x).symm]
  · rw [foldlM_insertMember_eq_error hbefore hm]
    refine ⟨nofun, ?_⟩
    rintro ⟨hnone, -⟩
    exact absurd hm (hnone m (by simp))

/-- **When no set is built, and why.** The error names the bounds of the first negative member. -/
theorem ofMembers_eq_error_iff {members : List Member} {e : Error} :
    ofMembers members = .error e ↔
      ∃ before m after, members = before ++ m :: after ∧
        (∀ a ∈ before, ¬ a.bounds.IsNegative) ∧ m.bounds.IsNegative ∧ e = .negative m.bounds := by
  unfold ofMembers
  constructor
  · intro h
    rcases forall_or_exists_first members with hnone | ⟨before, m, after, rfl, hbefore, hm⟩
    · obtain ⟨t, hfold, -⟩ := exists_foldlM_insertMember hnone empty
      rw [hfold] at h
      cases h
    · rw [foldlM_insertMember_eq_error hbefore hm] at h
      cases h
      exact ⟨before, m, after, rfl, hbefore, hm, rfl⟩
  · rintro ⟨before, m, after, rfl, hbefore, hm, rfl⟩
    exact foldlM_insertMember_eq_error hbefore hm empty

/-- A list of members builds a set exactly when none of them is negative. -/
theorem exists_ofMembers_iff {members : List Member} :
    (∃ s, ofMembers members = .ok s) ↔ ∀ m ∈ members, ¬ m.bounds.IsNegative := by
  constructor
  · rintro ⟨s, hs⟩
    exact (ofMembers_eq_ok_iff.mp hs).1
  · intro h
    obtain ⟨s, hs, -⟩ := exists_foldlM_insertMember h empty
    exact ⟨s, hs⟩

/-! ### The construction in terms of integers -/

/-- The integers between two bounds are those of their machine integers. -/
theorem exists_between_iff_exists_mem {α : Type} {as : List α} {low high : α → Int32} {x : Int} :
    (∃ a ∈ as, (low a).toInt ≤ x ∧ x ≤ (high a).toInt) ↔
      ∃ w : Int32, w.toInt = x ∧
        ∃ a ∈ as, (low a).toInt ≤ w.toInt ∧ w.toInt ≤ (high a).toInt := by
  constructor
  · rintro ⟨a, ha, hlow, hhigh⟩
    obtain ⟨w, rfl⟩ := exists_toInt_eq hlow hhigh
    exact ⟨w, rfl, a, ha, hlow, hhigh⟩
  · rintro ⟨w, rfl, h⟩
    exact h

/-- A set that members build covers the integers that the members cover, and no others. -/
theorem exists_between_intervals_iff {members : List Member} {s : IntervalSet}
    (h : ∀ w, w ∈ s ↔ ∃ m ∈ members, w ∈ m.bounds) (x : Int) :
    (∃ i ∈ s.intervals, i.low.toInt ≤ x ∧ x ≤ i.high.toInt) ↔
      ∃ m ∈ members, m.bounds.low.toInt ≤ x ∧ x ≤ m.bounds.high.toInt := by
  rw [exists_between_iff_exists_mem,
    exists_between_iff_exists_mem]
  have hw : ∀ w : Int32,
      (∃ i ∈ s.intervals, i.low.toInt ≤ w.toInt ∧ w.toInt ≤ i.high.toInt) ↔
        ∃ m ∈ members, m.bounds.low.toInt ≤ w.toInt ∧ w.toInt ≤ m.bounds.high.toInt :=
    fun w => by simpa only [mem_iff, Interval.mem_iff, Bounds.mem_iff] using h w
  simp only [hw]

/-- **Members build a canonical set of exactly their numbers.** The construction succeeds just
when no member with `low ≤ high` begins below zero. The stored intervals are then non-empty, not
negative, and separated by at least one missing integer, and an integer lies in one of them just
when it lies between the bounds of some member. A failure names the bounds of the first negative
member of the list. -/
theorem ofMembers_canonical_exact (members : List Member) :
    ((∃ s, ofMembers members = .ok s) ↔
      ∀ m ∈ members, m.bounds.low.toInt ≤ m.bounds.high.toInt → ¬ m.bounds.low.toInt < 0) ∧
    (∀ s, ofMembers members = .ok s →
      (∀ i ∈ s.intervals, 0 ≤ i.low.toInt ∧ i.low.toInt ≤ i.high.toInt) ∧
      (s.intervals.Pairwise fun i j => i.high.toInt + 1 < j.low.toInt) ∧
      ∀ x : Int, (∃ i ∈ s.intervals, i.low.toInt ≤ x ∧ x ≤ i.high.toInt) ↔
        ∃ m ∈ members, m.bounds.low.toInt ≤ x ∧ x ≤ m.bounds.high.toInt) ∧
    (∀ e, ofMembers members = .error e ↔
      ∃ before m after, members = before ++ m :: after ∧
        (∀ a ∈ before,
          ¬ (a.bounds.low.toInt ≤ a.bounds.high.toInt ∧ a.bounds.low.toInt < 0)) ∧
        (m.bounds.low.toInt ≤ m.bounds.high.toInt ∧ m.bounds.low.toInt < 0) ∧
        e = .negative m.bounds) := by
  refine ⟨?_, fun s hs => ⟨fun i _ => ⟨i.low_nonneg, i.low_le_high⟩, s.pairwise_intervals, ?_⟩,
    fun e => ofMembers_eq_error_iff⟩
  · rw [exists_ofMembers_iff]
    simp only [Bounds.IsNegative, not_and]
  · exact exists_between_intervals_iff (ofMembers_eq_ok_iff.mp hs).2

/-- Members that only make up an interval together, and a failure behind members that are
reversed or in order. -/
theorem ofMembers_bridged_and_negative :
    (∃ s, ofMembers [.range 12 20, .range 5 7, .range 30 3, .range 9 11, .single 8] = .ok s ∧
      (∃ i ∈ s.intervals, i.low.toInt ≤ 8 ∧ 8 ≤ i.high.toInt) ∧
      ¬ ∃ i ∈ s.intervals, i.low.toInt ≤ 25 ∧ 25 ≤ i.high.toInt) ∧
    ofMembers [.single 3, .range (-1) (-2), .range (-7) 2, .single (-9)] =
      .error (.negative ⟨-7, 2⟩) := by
  obtain ⟨hbuilt, hset, -⟩ := ofMembers_canonical_exact
    [.range 12 20, .range 5 7, .range 30 3, .range 9 11, .single 8]
  obtain ⟨s, hs⟩ := hbuilt.mpr (by decide)
  obtain ⟨-, -, hmem⟩ := hset s hs
  refine ⟨⟨s, hs, (hmem 8).mpr (by decide), fun h => absurd ((hmem 25).mp h) (by decide)⟩, ?_⟩
  obtain ⟨-, -, herror⟩ := ofMembers_canonical_exact
    [.single 3, .range (-1) (-2), .range (-7) 2, .single (-9)]
  rw [herror]
  exact ⟨[.single 3, .range (-1) (-2)], .range (-7) 2, [.single (-9)], rfl, by decide, by decide,
    rfl⟩

end IntervalSet

end PageSelection
