import Mathlib.Data.List.Forall2
import PageSelection.Proofs.IntervalSet.Ends
import PageSelection.Proofs.OrderIndependence
import PageSelection.Proofs.RangeList.Phase

/-!
# Which members make a selection

Members can break several rules at once: they can begin below zero, select nothing, or select the
page 0. Which of these is reported depends neither on how a selection is asked for nor on the
merging of the members, but only on the members themselves.

* `ofSet_of_forall_not_mem`, `ofSet_of_zero_mem` and `exists_ofSet` say what the two checks of a set
  come to. A number below 1 in a set of numbers that are not negative is 0, and an interval that
  begins below 1 begins with it; so the page that is reported is always 0.
* `ofMembers_of_isNegative`, `ofMembers_of_isReversed`, `ofMembers_of_zero` and `exists_ofMembers`
  are the four outcomes for members, each under the conditions that it arises from.
* A table is a list of members once each of its rows is one or two numbers long, and is refused
  before any member is looked at if a row is not (`mapM_memberOfRow_eq_ok`,
  `mapM_memberOfRow_eq_error`).
* A page and a range check for themselves what the general construction would find out, and only
  the name of the error differs (`exists_ofMembers_singleton_iff`, `ofRange_eq_error`).

`members_classified` combines them. Its parts are named in `MembersClassified`, for the outcomes of
members, and in `Classification`, for all the ways to ask.
-/

namespace PageSelection

theorem lt_one_iff {x : Int32} : x < 1 ↔ x.toInt < 1 := by
  have hone : (1 : Int32).toInt = 1 := by decide
  rw [Int32.lt_iff_toInt_lt, hone]

/-- The only number below 1 that is not negative is 0. -/
theorem eq_zero_of_lt_one {x : Int32} (hnonneg : 0 ≤ x.toInt) (h : x < 1) : x = 0 := by
  have hle : x.toInt ≤ 0 := Int.lt_add_one_iff.mp (lt_one_iff.mp h)
  rw [← Int32.toInt_inj, Int32.toInt_zero]
  exact Int.le_antisymm hle hnonneg

namespace Bounds

instance (x : Int32) (b : Bounds) : Decidable (x ∈ b) := inferInstanceAs (Decidable (_ ∧ _))

theorem isReversed_iff {b : Bounds} : b.isReversed = true ↔ b.high.toInt < b.low.toInt := by
  unfold isReversed
  rw [decide_eq_true_eq, Int32.lt_iff_toInt_lt]

/-- Bounds that are not reversed begin with the first of their numbers. -/
theorem low_mem {b : Bounds} (h : ¬ b.isReversed = true) : b.low ∈ b := by
  rw [isReversed_iff, Int.not_lt] at h
  exact mem_iff.mpr ⟨Int.le_refl _, h⟩

/-- Bounds with a number are not reversed. -/
theorem not_isReversed_of_mem {b : Bounds} {x : Int32} (h : x ∈ b) : ¬ b.isReversed = true := by
  rw [isReversed_iff, Int.not_lt]
  exact Int.le_trans (mem_iff.mp h).1 (mem_iff.mp h).2

/-- Reversed bounds are not negative, however far below zero they are. -/
theorem not_isNegative_of_isReversed {b : Bounds} (h : b.isReversed = true) : ¬ b.IsNegative := by
  rw [isReversed_iff] at h
  rintro ⟨hordered, -⟩
  exact absurd hordered (Int.not_le.mpr h)

/-- Bounds that are not negative have the number 0 just when they begin with it. -/
theorem zero_mem_iff {b : Bounds} (h : ¬ b.IsNegative) :
    (0 : Int32) ∈ b ↔ ¬ b.isReversed = true ∧ b.low = 0 := by
  constructor
  · intro hmem
    refine ⟨not_isReversed_of_mem hmem, ?_⟩
    have hbounds := mem_iff.mp hmem
    rw [Int32.toInt_zero] at hbounds
    rw [← Int32.toInt_inj, Int32.toInt_zero]
    -- bounds with 0 that begin elsewhere begin below it, and so would be negative
    by_contra hlow
    exact h ⟨Int.le_trans hbounds.1 hbounds.2, Int.lt_iff_le_and_ne.mpr ⟨hbounds.1, hlow⟩⟩
  · rintro ⟨hordered, hlow⟩
    rw [← hlow]
    exact low_mem hordered

end Bounds

namespace Selection

/-! ### The checks of a set -/

/-- A set without numbers is refused as empty. -/
theorem ofSet_of_forall_not_mem {s : IntervalSet} (h : ∀ x, x ∉ s) :
    ofSet s = .error .empty := by
  have hnil : s.intervals = [] := by
    -- an interval would have its own low bound
    rw [List.eq_nil_iff_forall_not_mem]
    intro i hi
    exact h i.low ⟨i, hi, i.low_mem⟩
  unfold ofSet
  rw [dif_pos hnil]
  rfl

/-- A set with the number 0 is refused for the page 0. -/
theorem ofSet_of_zero_mem {s : IntervalSet} (h : (0 : Int32) ∈ s) :
    ofSet s = .error (.pageBelowOne 0 none) := by
  obtain ⟨i, hi, hmem⟩ := h
  unfold ofSet
  rw [dif_neg (List.ne_nil_of_mem hi)]
  split
  · next j hfind =>
    have hj : j.low < 1 := by simpa using List.find?_some hfind
    rw [eq_zero_of_lt_one j.low_nonneg hj]
    rfl
  · next hfind =>
    -- the interval with the number 0 begins below 1, so that one is found
    have hnot := List.find?_eq_none.mp hfind i hi
    rw [decide_eq_true_eq, lt_one_iff] at hnot
    have hlow := (Interval.mem_iff.mp hmem).1
    rw [Int32.toInt_zero] at hlow
    omega

/-- Every other set makes a selection. -/
theorem exists_ofSet {s : IntervalSet} (hne : ∃ x, x ∈ s) (hzero : (0 : Int32) ∉ s) :
    ∃ p, ofSet s = .ok p ∧ p.pages = s := by
  obtain ⟨x, i, hi, -⟩ := hne
  unfold ofSet
  rw [dif_neg (List.ne_nil_of_mem hi)]
  split
  · -- an interval that begins below 1 would have 0
    next j hfind =>
    have hj : j.low < 1 := by simpa using List.find?_some hfind
    refine absurd ⟨j, List.mem_of_find?_eq_some hfind, ?_⟩ hzero
    rw [← eq_zero_of_lt_one j.low_nonneg hj]
    exact j.low_mem
  · exact ⟨_, rfl, rfl⟩

/-! ### The ends of a selection -/

/-- The first page is a page, and there is none before it. -/
theorem firstPage_spec (p : Selection) :
    p.firstPage ∈ p.pages ∧ ∀ x ∈ p.pages, p.firstPage ≤ x := by
  refine ⟨⟨_, List.head_mem p.nonempty, Interval.low_mem _⟩, ?_⟩
  rintro x ⟨i, hi, hx⟩
  have hfirst := Interval.low_head_le p.pages.pairwise_intervals p.nonempty i hi
  exact Int32.le_iff_toInt_le.mpr (Int.le_trans hfirst (Interval.mem_iff.mp hx).1)

/-- The last page is a page, and there is none behind it. -/
theorem lastPage_spec (p : Selection) :
    p.lastPage ∈ p.pages ∧ ∀ x ∈ p.pages, x ≤ p.lastPage := by
  have hlast := List.getLast_mem p.nonempty
  refine ⟨⟨_, hlast, Interval.mem_iff.mpr ⟨Interval.low_le_high _, Int.le_refl _⟩⟩, ?_⟩
  rintro x ⟨i, hi, hx⟩
  have hlast := Interval.high_le_getLast p.pages.pairwise_intervals p.nonempty i hi
  exact Int32.le_iff_toInt_le.mpr (Int.le_trans (Interval.mem_iff.mp hx).2 hlast)

/-- Pages are numbered from 1. -/
theorem one_le_of_mem {p : Selection} {x : Int32} (hx : x ∈ p.pages) : 1 ≤ x := by
  obtain ⟨i, hi, hmem⟩ := hx
  have hlow := Int32.le_iff_toInt_le.mp (p.positive i hi)
  exact Int32.le_iff_toInt_le.mpr (Int.le_trans hlow (Interval.mem_iff.mp hmem).1)

/-! ### Members -/

/-- The first negative member is reported, whatever stands before or behind it. -/
theorem ofMembers_of_isNegative {before after : List Member} {m : Member}
    (hbefore : ∀ a ∈ before, ¬ a.bounds.IsNegative) (hm : m.bounds.IsNegative) :
    ofMembers (before ++ m :: after) = .error (.set (.negative m.bounds)) :=
  ofMembers_of_error
    (IntervalSet.ofMembers_eq_error_iff.mpr ⟨before, m, after, rfl, hbefore, hm, rfl⟩)

/-- Members without any numbers select nothing. -/
theorem ofMembers_of_isReversed {members : List Member}
    (h : ∀ m ∈ members, m.bounds.isReversed = true) : ofMembers members = .error .empty := by
  obtain ⟨s, hs⟩ := IntervalSet.exists_ofMembers_iff.mpr
    fun m hm => Bounds.not_isNegative_of_isReversed (h m hm)
  rw [ofMembers_of_ok hs]
  -- reversed members build a set, but one without any numbers
  refine ofSet_of_forall_not_mem fun x hx => ?_
  obtain ⟨m, hm, hmem⟩ := ((IntervalSet.ofMembers_eq_ok_iff.mp hs).2 x).mp hx
  exact Bounds.not_isReversed_of_mem hmem (h m hm)

/-- Members that are not negative, one of which begins with 0, select the page 0. -/
theorem ofMembers_of_zero {members : List Member} (h : ∀ m ∈ members, ¬ m.bounds.IsNegative)
    (hzero : ∃ m ∈ members, ¬ m.bounds.isReversed = true ∧ m.bounds.low = 0) :
    ofMembers members = .error (.pageBelowOne 0 none) := by
  obtain ⟨s, hs⟩ := IntervalSet.exists_ofMembers_iff.mpr h
  obtain ⟨m, hm, hlow⟩ := hzero
  rw [ofMembers_of_ok hs]
  refine ofSet_of_zero_mem (((IntervalSet.ofMembers_eq_ok_iff.mp hs).2 0).mpr ⟨m, hm, ?_⟩)
  exact (Bounds.zero_mem_iff (h m hm)).mpr hlow

/-- **All other members make a selection,** of exactly their numbers. -/
theorem exists_ofMembers {members : List Member} (h : ∀ m ∈ members, ¬ m.bounds.IsNegative)
    (hne : ∃ m ∈ members, ¬ m.bounds.isReversed = true)
    (hzero : ∀ m ∈ members, ¬ m.bounds.isReversed = true → m.bounds.low ≠ 0) :
    ∃ p, ofMembers members = .ok p ∧ IntervalSet.ofMembers members = .ok p.pages := by
  obtain ⟨s, hs⟩ := IntervalSet.exists_ofMembers_iff.mpr h
  have hmem := (IntervalSet.ofMembers_eq_ok_iff.mp hs).2
  obtain ⟨m, hm, hordered⟩ := hne
  obtain ⟨p, hp, hpages⟩ : ∃ p, ofSet s = .ok p ∧ p.pages = s := by
    -- the set has the low bound of a member in order, and 0 could only come from a low bound
    refine exists_ofSet
      ⟨m.bounds.low, (hmem m.bounds.low).mpr ⟨m, hm, Bounds.low_mem hordered⟩⟩ fun h0 => ?_
    obtain ⟨a, ha, ha0⟩ := (hmem 0).mp h0
    obtain ⟨hordered', hlow⟩ := (Bounds.zero_mem_iff (h a ha)).mp ha0
    exact hzero a ha hordered' hlow
  exact ⟨p, by rw [ofMembers_of_ok hs, hp], by rw [hs, hpages]⟩

/-- Members that are not negative are refused only as empty or for the page 0. -/
theorem ofMembers_eq_error {members : List Member} {e : Error}
    (hmembers : ∀ m ∈ members, ¬ m.bounds.IsNegative) (h : ofMembers members = .error e) :
    e = .empty ∨ e = .pageBelowOne 0 none := by
  by_cases hreversed : ∀ m ∈ members, m.bounds.isReversed = true
  · rw [ofMembers_of_isReversed hreversed] at h
    cases h
    exact .inl rfl
  by_cases hzero : ∃ m ∈ members, ¬ m.bounds.isReversed = true ∧ m.bounds.low = 0
  · rw [ofMembers_of_zero hmembers hzero] at h
    cases h
    exact .inr rfl
  · -- with a member in order and none for the page 0 there is a selection
    obtain ⟨p, hp, -⟩ :=
      exists_ofMembers hmembers (by simpa using hreversed) (by simpa using hzero)
    rw [hp] at h
    cases h

end Selection

/-! ### Tables -/

namespace IntervalSet

/-- The rows that stand for a member: its only number, or its two bounds. -/
inductive RowOf : List Int32 → Member → Prop
  | single (value : Int32) : RowOf [value] (.single value)
  | pair (low high : Int32) : RowOf [low, high] (.range low high)

theorem memberOfRow_of_rowOf {row : List Int32} {m : Member} (h : RowOf row m) (index : Nat) :
    memberOfRow index row = .ok m := by
  cases h <;> rfl

theorem exists_rowOf {row : List Int32} (h : row.length = 1 ∨ row.length = 2) :
    ∃ m, RowOf row m := by
  rcases h with h | h
  · obtain ⟨value, rfl⟩ := List.length_eq_one_iff.mp h
    exact ⟨_, .single value⟩
  · obtain ⟨low, high, rfl⟩ := List.length_eq_two.mp h
    exact ⟨_, .pair low high⟩

/-- A row of any other length is refused with its index and its length. -/
theorem memberOfRow_of_length {row : List Int32} (hone : row.length ≠ 1) (htwo : row.length ≠ 2)
    (index : Nat) : memberOfRow index row = .error (.rowLength index row.length) := by
  match row with
  | [] => rfl
  | [_] => exact absurd rfl hone
  | [_, _] => exact absurd rfl htwo
  | _ :: _ :: _ :: _ => rfl

/-- A table of rows that stand for members is these members. -/
theorem mapM_memberOfRow_eq_ok {rows : List (List Int32)} {members : List Member}
    (h : List.Forall₂ RowOf rows members) (k : Nat) :
    (rows.zipIdx k).mapM (fun (row, index) => memberOfRow index row) = .ok members := by
  induction h generalizing k with
  | nil => rfl
  | cons hrow _ ih =>
    rw [List.zipIdx_cons, List.mapM_cons]
    refine bind_eq_ok_iff.mpr ⟨_, memberOfRow_of_rowOf hrow k, ?_⟩
    exact bind_eq_ok_iff.mpr ⟨_, ih (k + 1), rfl⟩

/-- The first row of a wrong length is reported. -/
theorem mapM_memberOfRow_eq_error {before after : List (List Int32)} {row : List Int32}
    (hbefore : ∀ r ∈ before, r.length = 1 ∨ r.length = 2) (hone : row.length ≠ 1)
    (htwo : row.length ≠ 2) (k : Nat) :
    ((before ++ row :: after).zipIdx k).mapM (fun (row, index) => memberOfRow index row) =
      .error (.rowLength (k + before.length) row.length) := by
  -- the induction is on the rows in front, and `k` counts those that have been passed
  induction before generalizing k with
  | nil =>
    rw [List.nil_append, List.zipIdx_cons, List.mapM_cons]
    exact bind_eq_error_iff.mpr (.inl (memberOfRow_of_length hone htwo k))
  | cons r before ih =>
    rw [List.cons_append, List.zipIdx_cons, List.mapM_cons]
    -- the first row stands for a member, and the failure lies behind it
    obtain ⟨m, hm⟩ := exists_rowOf (hbefore r List.mem_cons_self)
    have hrest := ih (fun r' hr' => hbefore r' (List.mem_cons_of_mem r hr')) (k + 1)
    rw [Nat.add_assoc, Nat.add_comm 1] at hrest
    refine bind_eq_error_iff.mpr (.inr ⟨m, memberOfRow_of_rowOf hm k, ?_⟩)
    exact bind_eq_error_iff.mpr (.inl hrest)

end IntervalSet

namespace Selection

/-- **A table selects what its rows select as members.** -/
theorem ofRows_eq_ofMembers {rows : List (List Int32)} {members : List Member}
    (h : List.Forall₂ IntervalSet.RowOf rows members) : ofRows rows = ofMembers members := by
  unfold ofRows IntervalSet.ofRows ofMembers
  rw [IntervalSet.mapM_memberOfRow_eq_ok h 0]
  rfl

/-- **A row of a wrong length is reported first,** even behind members that would be refused. -/
theorem ofRows_of_length {before after : List (List Int32)} {row : List Int32}
    (hbefore : ∀ r ∈ before, r.length = 1 ∨ r.length = 2) (hone : row.length ≠ 1)
    (htwo : row.length ≠ 2) :
    ofRows (before ++ row :: after) = .error (.set (.rowLength before.length row.length)) := by
  unfold ofRows IntervalSet.ofRows
  rw [IntervalSet.mapM_memberOfRow_eq_error hbefore hone htwo 0, Nat.zero_add]
  rfl

/-! ### A single member -/

/-- **One member makes a selection** just when its bounds are in order and begin at 1 or above. -/
theorem exists_ofMembers_singleton_iff {m : Member} {b : Bounds} (hm : m.bounds = b) :
    (∃ p, ofMembers [m] = .ok p) ↔ ¬ b.isReversed = true ∧ ¬ b.low < 1 := by
  subst hm
  by_cases hneg : m.bounds.IsNegative
  · -- a negative member is below 1
    have herror : ofMembers ([] ++ [m]) = .error (.set (.negative m.bounds)) :=
      ofMembers_of_isNegative (List.forall_mem_nil _) hneg
    have hlow : m.bounds.low < 1 := lt_one_iff.mpr (Int.lt_trans hneg.2 Int.one_pos)
    rw [List.nil_append] at herror
    simp [herror, hlow]
  by_cases hreversed : m.bounds.isReversed = true
  · -- a reversed member selects nothing
    have herror := ofMembers_of_isReversed (List.forall_mem_singleton.mpr hreversed)
    simp [herror, hreversed]
  by_cases hlow : m.bounds.low < 1
  · -- bounds in order that are not negative begin at 0 or above, so these begin with 0
    have hnonneg : 0 ≤ m.bounds.low.toInt := by
      rw [Bounds.isReversed_iff, Int.not_lt] at hreversed
      exact Int.not_lt.mp fun h => hneg ⟨hreversed, h⟩
    have herror := ofMembers_of_zero (List.forall_mem_singleton.mpr hneg)
      ⟨m, List.mem_singleton_self m, hreversed, eq_zero_of_lt_one hnonneg hlow⟩
    simp [herror, hlow]
  · -- what is left is in order and begins at 1 or above
    have hzero : m.bounds.low ≠ 0 := by
      intro hzero
      exact hlow (hzero ▸ by decide)
    obtain ⟨p, hp, -⟩ := exists_ofMembers (List.forall_mem_singleton.mpr hneg)
      ⟨m, List.mem_singleton_self m, hreversed⟩ (List.forall_mem_singleton.mpr fun _ => hzero)
    simp [hp, hreversed, hlow]

/-- Two bounds make a selection just when they make one as a member, and the same one. -/
theorem ofRange_eq_ok_iff {b : Bounds} {p : Selection} :
    ofRange b = .ok p ↔ ofMembers [b.member] = .ok p := by
  have hmakes := exists_ofMembers_singleton_iff b.bounds_member
  unfold ofRange
  split
  · next hreversed =>
    refine ⟨nofun, fun hp => ?_⟩
    exact absurd hreversed (hmakes.mp ⟨p, hp⟩).1
  · split
    · next hlow =>
      refine ⟨nofun, fun hp => ?_⟩
      exact absurd hlow (hmakes.mp ⟨p, hp⟩).2
    · rfl

/-- What two bounds that select nothing are refused for. -/
theorem ofRange_eq_error {b : Bounds} {e : Error} (h : ofRange b = .error e) :
    e = if b.isReversed = true then .reversed b else .pageBelowOne b.low none := by
  unfold ofRange at h
  split at h
  · next hreversed =>
    cases h
    rw [if_pos hreversed]
  · next hordered =>
    rw [if_neg hordered]
    split at h
    · cases h
      rfl
    · next hlow =>
      -- neither check fails, so the bounds make a selection
      obtain ⟨p, hp⟩ := (exists_ofMembers_singleton_iff b.bounds_member).mpr ⟨hordered, hlow⟩
      rw [hp] at h
      cases h

theorem not_isReversed_single (page : Int32) : ¬ (Bounds.single page).isReversed = true := by
  rw [Bounds.isReversed_iff, Int.not_lt]
  exact Int.le_refl _

/-- A page makes a selection just when it makes one as a member, and the same one. -/
theorem ofPage_eq_ok_iff {page : Int32} {p : Selection} :
    ofPage page = .ok p ↔ ofMembers [.single page] = .ok p := by
  unfold ofPage
  split
  · next hlow =>
    refine ⟨nofun, fun hp => ?_⟩
    exact absurd hlow ((exists_ofMembers_singleton_iff (Member.bounds_single page)).mp ⟨p, hp⟩).2
  · rfl

/-- A page that cannot be selected is refused as a page below 1. -/
theorem ofPage_eq_error {page : Int32} {e : Error} (h : ofPage page = .error e) :
    e = .pageBelowOne page none := by
  unfold ofPage at h
  split at h
  · cases h
    rfl
  · next hlow =>
    obtain ⟨p, hp⟩ := (exists_ofMembers_singleton_iff (Member.bounds_single page)).mpr
      ⟨not_isReversed_single page, hlow⟩
    rw [hp] at h
    cases h

/-! ### All ways to ask for a selection -/

/-- `Selects p members` holds when the selection `p` is that of the given members. -/
structure Selects (p : Selection) (members : List Member) : Prop where
  /-- The pages are the numbers of the members. -/
  pages : ∀ x, x ∈ p.pages ↔ ∃ m ∈ members, x ∈ m.bounds
  /-- Pages are numbered from 1, and lie between the first and the last one. -/
  between : ∀ x ∈ p.pages, 1 ≤ x ∧ p.firstPage ≤ x ∧ x ≤ p.lastPage
  /-- The first page is one of the pages. -/
  first : p.firstPage ∈ p.pages
  /-- The last page is one of the pages. -/
  last : p.lastPage ∈ p.pages

/-- What comes of members. Of the first four outcomes exactly one arises for each list. -/
structure MembersClassified (members : List Member) : Prop where
  /-- The first member that is in order and begins below 0 is reported. -/
  negative : ∀ before m after, members = before ++ m :: after →
    (∀ a ∈ before, ¬ a.bounds.IsNegative) → m.bounds.IsNegative →
    ofMembers members = .error (.set (.negative m.bounds))
  /-- Members that are all reversed select nothing. -/
  empty : (∀ m ∈ members, m.bounds.isReversed = true) → ofMembers members = .error .empty
  /-- A member that is in order and begins with 0 selects the page 0. -/
  belowOne : (∀ m ∈ members, ¬ m.bounds.IsNegative) →
    (∃ m ∈ members, ¬ m.bounds.isReversed = true ∧ m.bounds.low = 0) →
    ofMembers members = .error (.pageBelowOne 0 none)
  /-- All others make the selection of their numbers. -/
  selected : (∀ m ∈ members, ¬ m.bounds.IsNegative) →
    (∃ m ∈ members, ¬ m.bounds.isReversed = true) →
    (∀ m ∈ members, ¬ m.bounds.isReversed = true → m.bounds.low ≠ 0) →
    ∃ p, ofMembers members = .ok p ∧ Selects p members
  /-- It makes no difference that the members come as an argument that may be missing. -/
  argument : (required (some members) >>= ofMembers) = ofMembers members
  /-- It makes no difference that the members come as the rows of a table. -/
  rows : ∀ rows, List.Forall₂ IntervalSet.RowOf rows members → ofRows rows = ofMembers members

/-- What comes of all that a selection can be asked for with. -/
structure Classification : Prop where
  /-- Members have one of four outcomes. -/
  members : ∀ members : List Member, MembersClassified members
  /-- The first row that is neither one nor two numbers long is reported before anything else. -/
  rowLength : ∀ (before : List (List Int32)) (row : List Int32) (after : List (List Int32)),
    (∀ r ∈ before, r.length = 1 ∨ r.length = 2) → row.length ≠ 1 → row.length ≠ 2 →
    ofRows (before ++ row :: after) = .error (.set (.rowLength before.length row.length))
  /-- Two bounds make the selection that they make as an only member. -/
  range : ∀ low high p, ofRange ⟨low, high⟩ = .ok p ↔ ofMembers [.range low high] = .ok p
  /-- Two bounds that make none are refused as reversed, or else for the lower of them. -/
  rangeError : ∀ low high e, ofRange ⟨low, high⟩ = .error e →
    e = if high < low then .reversed ⟨low, high⟩ else .pageBelowOne low none
  /-- A page makes the selection that it makes as an only member. -/
  page : ∀ page p, ofPage page = .ok p ↔ ofMembers [.single page] = .ok p
  /-- A page that makes none is refused as a page below 1. -/
  pageError : ∀ page e, ofPage page = .error e → e = .pageBelowOne page none

/-- A selection of members has just their numbers, which are pages from the first to the last. -/
theorem selects_of_eq_pages {members : List Member} {p : Selection}
    (h : IntervalSet.ofMembers members = .ok p.pages) : Selects p members := by
  obtain ⟨hfirst, hfirst_le⟩ := firstPage_spec p
  obtain ⟨hlast, hle_last⟩ := lastPage_spec p
  refine ⟨(IntervalSet.ofMembers_eq_ok_iff.mp h).2, fun x hx => ?_, hfirst, hlast⟩
  exact ⟨one_le_of_mem hx, hfirst_le x hx, hle_last x hx⟩

/-- **Every way to ask for a selection classifies its input alike.** Members are refused for the
first one that is in order and begins below 0, else as empty if all of them are reversed, else for
the page 0 if one that is in order begins with it; all others make a selection of just their
numbers, which are pages between the first and the last one. Members that are given as an argument
and rows that stand for members lead to the identical result, but a row that is neither one nor two
numbers long is reported before anything else. Two bounds, or a page, make the selection that they
make as an only member; if they make none, then they are refused as reversed, or for the lower of
them as a page below 1. -/
theorem members_classified : Classification where
  members members :=
    { negative := by
        rintro before m after rfl
        exact ofMembers_of_isNegative
      empty := ofMembers_of_isReversed
      belowOne := ofMembers_of_zero
      selected := by
        intro hnone hne hzero
        obtain ⟨p, hp, hset⟩ := exists_ofMembers hnone hne hzero
        exact ⟨p, hp, selects_of_eq_pages hset⟩
      argument := rfl
      rows := fun _ => ofRows_eq_ofMembers }
  rowLength _ _ _ := ofRows_of_length
  range _ _ _ := ofRange_eq_ok_iff
  rangeError low high e he := by
    -- reversed bounds are those whose high bound is below the low one
    rw [ofRange_eq_error he]
    simp only [Bounds.isReversed, decide_eq_true_eq]
  page _ _ := ofPage_eq_ok_iff
  pageError _ _ := ofPage_eq_error

/-- A negative member behind an empty one and in front of another, which a row of a wrong length
hides; members that make a selection, and a page and a range that make none. -/
theorem members_classified_in_order :
    ofMembers [.range 5 2, .range 0 3, .range (-4) 1, .single (-9)] =
      .error (.set (.negative ⟨-4, 1⟩)) ∧
    ofRows [[-4, 1], [1, 2, 3], []] = .error (.set (.rowLength 1 3)) ∧
    ofRows [[7], [3, 0]] = ofMembers [.single 7, .range 3 0] ∧
    (∃ p, ofMembers [.single 7, .range 3 0] = .ok p ∧ 7 ∈ p.pages ∧ 3 ∉ p.pages) ∧
    ofMembers [.range 2 9, .range 0 1] = .error (.pageBelowOne 0 none) ∧
    ofMembers [.range 2 1, .range (-3) (-4)] = .error .empty ∧
    (∀ p, ofRange ⟨-3, -4⟩ ≠ .ok p) ∧ ∀ p, ofPage (-3) ≠ .ok p := by
  have hmixed := members_classified.members [.range 5 2, .range 0 3, .range (-4) 1, .single (-9)]
  have hzero := members_classified.members [.range 2 9, .range 0 1]
  have hreversed := members_classified.members [.range 2 1, .range (-3) (-4)]
  have hmakes := members_classified.members [.single 7, .range 3 0]
  refine ⟨?_, ?_, ?_, ?_, hzero.belowOne (by decide) (by decide), hreversed.empty (by decide),
    fun p hp => ?_, fun p hp => ?_⟩
  · exact hmixed.negative [.range 5 2, .range 0 3] (.range (-4) 1) [.single (-9)] rfl
      (by decide) (by decide)
  · exact members_classified.rowLength [[-4, 1]] [1, 2, 3] [[]] (by decide) (by decide) (by decide)
  · exact hmakes.rows [[7], [3, 0]] (.cons (.single 7) (.cons (.pair 3 0) .nil))
  · obtain ⟨p, hp, hselects⟩ := hmakes.selected (by decide) (by decide) (by decide)
    refine ⟨p, hp, (hselects.pages 7).mpr (by decide), fun h => ?_⟩
    exact absurd ((hselects.pages 3).mp h) (by decide)
  · cases (members_classified.range (-3) (-4) p).mp hp
  · cases (members_classified.page (-3) p).mp hp

end Selection

end PageSelection
