import PageSelection.Proofs.IntervalSet.Construction
import PageSelection.Selection.Basic

/-!
# The order of members does not matter

What members build depends on nothing but the numbers that they have and on whether one of them is
negative (`IntervalSet.ofMembers_eq_ok_iff`). Neither changes when members are reordered or repeated
(`ofMembers_of_same_members`), nor when some of them give way to the intervals of the set that they
build (`ofMembers_members_append`).

For selections there is more to compare, since a selection can also be refused for what its set
holds. But a set that was built is the same set in any order, and it is all that the remaining
checks look at; only the name of the offending member in a negative error depends on the order.
-/

namespace PageSelection

namespace IntervalSet

/-- The bounds of an interval are not negative. -/
theorem not_isNegative_bounds (i : Interval) : ¬ i.bounds.IsNegative := by
  rintro ⟨-, hnegative⟩
  have hlow := i.low_nonneg
  change i.low.toInt < 0 at hnegative
  omega

/-- As members, the intervals of a set are not negative. -/
theorem not_isNegative_of_mem_members {s : IntervalSet} :
    ∀ m ∈ s.members, ¬ m.bounds.IsNegative := by
  intro m hm
  obtain ⟨i, -, rfl⟩ := List.mem_map.mp hm
  exact not_isNegative_bounds i

/-- As members, the intervals of a set have the numbers of the set. -/
theorem exists_mem_members {s : IntervalSet} {x : Int32} :
    (∃ m ∈ s.members, x ∈ m.bounds) ↔ x ∈ s := by
  rw [mem_iff]
  simp [members]

/-- **A set is built from its own intervals.** -/
theorem ofMembers_members (s : IntervalSet) : ofMembers s.members = .ok s :=
  ofMembers_eq_ok_iff.mpr ⟨not_isNegative_of_mem_members, fun _ => exists_mem_members.symm⟩

/-- Lists with the same members build the same set, in whatever order and however often they name
them. -/
theorem ofMembers_of_same_members {members members' : List Member} {s : IntervalSet}
    (h : ofMembers members = .ok s) (hsame : ∀ m, m ∈ members' ↔ m ∈ members) :
    ofMembers members' = .ok s := by
  rw [ofMembers_eq_ok_iff] at h ⊢
  obtain ⟨hnone, hmem⟩ := h
  refine ⟨fun m hm => hnone m ((hsame m).mp hm), fun x => ?_⟩
  rw [hmem x]
  simp only [hsame]

/-- Some of the members of a set build a set themselves. -/
theorem exists_ofMembers_of_subset {members part : List Member} {s : IntervalSet}
    (h : ofMembers members = .ok s) (hsub : part ⊆ members) : ∃ t, ofMembers part = .ok t := by
  rw [exists_ofMembers_iff]
  exact fun m hm => (ofMembers_eq_ok_iff.mp h).1 m (hsub hm)

/-- **Regrouping.** Members can be replaced by the intervals of the set that they build. -/
theorem ofMembers_members_append {part rest : List Member} {s t : IntervalSet}
    (h : ofMembers (part ++ rest) = .ok s) (hpart : ofMembers part = .ok t) :
    ofMembers (t.members ++ rest) = .ok s := by
  rw [ofMembers_eq_ok_iff] at h hpart ⊢
  obtain ⟨hnone, hmem⟩ := h
  obtain ⟨-, hmemPart⟩ := hpart
  constructor
  · intro m hm
    rcases List.mem_append.mp hm with hm | hm
    · exact not_isNegative_of_mem_members m hm
    · exact hnone m (List.mem_append_right part hm)
  · intro x
    calc x ∈ s
        ↔ (∃ m ∈ part, x ∈ m.bounds) ∨ ∃ m ∈ rest, x ∈ m.bounds := by
          rw [hmem x]
          simp only [List.mem_append, or_and_right, exists_or]
      _ ↔ (∃ m ∈ t.members, x ∈ m.bounds) ∨ ∃ m ∈ rest, x ∈ m.bounds := by
          rw [← hmemPart x, exists_mem_members]
      _ ↔ ∃ m ∈ t.members ++ rest, x ∈ m.bounds := by
          simp only [List.mem_append, or_and_right, exists_or]

end IntervalSet

namespace Selection

/-- From members that build a set, the selection is that of the set. -/
theorem ofMembers_of_ok {members : List Member} {s : IntervalSet}
    (h : IntervalSet.ofMembers members = .ok s) : ofMembers members = ofSet s := by
  unfold ofMembers
  rw [h]
  rfl

/-- Members that build no set make no selection, for the same reason. -/
theorem ofMembers_of_error {members : List Member} {e : IntervalSet.Error}
    (h : IntervalSet.ofMembers members = .error e) : ofMembers members = .error (.set e) := by
  unfold ofMembers
  rw [h]
  rfl

/-- Among members of which one is negative, some negative one is what a selection is refused
for. -/
theorem exists_ofMembers_eq_negative {members : List Member} {m : Member} (hm : m ∈ members)
    (hneg : m.bounds.IsNegative) :
    ∃ m' ∈ members, m'.bounds.IsNegative ∧
      ofMembers members = .error (.set (.negative m'.bounds)) := by
  rcases IntervalSet.forall_or_exists_first members with
    hnone | ⟨before, m', after, rfl, hbefore, hneg'⟩
  · exact absurd hneg (hnone m hm)
  · refine ⟨m', by simp, hneg', ofMembers_of_error ?_⟩
    exact IntervalSet.ofMembers_eq_error_iff.mpr ⟨before, m', after, rfl, hbefore, hneg', rfl⟩

/-- **Reordering the members of a selection.** The outcome is the same, unless both orders are
refused for a negative member; then each order may name another one. -/
theorem ofMembers_of_perm {members members' : List Member} (h : members.Perm members') :
    ofMembers members' = ofMembers members ∨
      ∃ m ∈ members, ∃ m' ∈ members', m.bounds.IsNegative ∧ m'.bounds.IsNegative ∧
        ofMembers members = .error (.set (.negative m.bounds)) ∧
        ofMembers members' = .error (.set (.negative m'.bounds)) := by
  by_cases hnone : ∀ m ∈ members, ¬ m.bounds.IsNegative
  · -- both orders build the same set, and the selection is made from that
    obtain ⟨s, hs⟩ := IntervalSet.exists_ofMembers_iff.mpr hnone
    have hs' := IntervalSet.ofMembers_of_same_members hs fun _ => h.mem_iff.symm
    exact .inl (by rw [ofMembers_of_ok hs', ofMembers_of_ok hs])
  · -- both orders are refused, each for the first negative member that it meets
    obtain ⟨m, hm, hneg⟩ : ∃ m ∈ members, m.bounds.IsNegative := by simpa using hnone
    obtain ⟨c, hc, hnegc, hout⟩ := exists_ofMembers_eq_negative hm hneg
    obtain ⟨c', hc', hnegc', hout'⟩ := exists_ofMembers_eq_negative (h.mem_iff.mp hm) hneg
    exact .inr ⟨c, hc, c', hc', hnegc, hnegc', hout, hout'⟩

end Selection

/-- **Sets are equal when they have the same numbers, however they were built.** Two sets are
stored alike just when their membership tests agree everywhere. So for members that build a set,
any list that names the same members, in another order or repeatedly, builds an equal one, and so
does any list in which some of the members have given way to the intervals of the set that these
build. Reordering the members of a selection changes neither whether it succeeds, nor its value,
nor the kind of its error. -/
theorem construction_extensional :
    (∀ s t : IntervalSet, (s = t ↔ s.intervals = t.intervals) ∧
      (s.intervals = t.intervals ↔ ∀ x, s.contains x = t.contains x)) ∧
    (∀ (members : List Member) (s : IntervalSet), IntervalSet.ofMembers members = .ok s →
      (∀ members' : List Member, (∀ m, m ∈ members' ↔ m ∈ members) →
        IntervalSet.ofMembers members' = .ok s) ∧
      (∀ part rest : List Member, members.Perm (part ++ rest) →
        ∃ t, IntervalSet.ofMembers part = .ok t ∧
          ∀ members' : List Member, members'.Perm (t.members ++ rest) →
            IntervalSet.ofMembers members' = .ok s)) ∧
    (∀ members members' : List Member, members.Perm members' →
      Selection.ofMembers members' = Selection.ofMembers members ∨
        ∃ m ∈ members, ∃ m' ∈ members', m.bounds.IsNegative ∧ m'.bounds.IsNegative ∧
          Selection.ofMembers members = .error (.set (.negative m.bounds)) ∧
          Selection.ofMembers members' = .error (.set (.negative m'.bounds))) := by
  refine ⟨fun s t => ⟨?_, ?_⟩, fun members s hs => ⟨?_, ?_⟩, fun _ _ => Selection.ofMembers_of_perm⟩
  · exact ⟨fun h => by rw [h], IntervalSet.ext_intervals⟩
  · constructor
    · intro h x
      rw [IntervalSet.ext_intervals h]
    · intro h
      rw [IntervalSet.eq_of_contains h]
  · exact fun members' hsame => IntervalSet.ofMembers_of_same_members hs hsame
  · intro part rest hperm
    -- the members to be replaced are brought to the front first
    have happend : IntervalSet.ofMembers (part ++ rest) = .ok s :=
      IntervalSet.ofMembers_of_same_members hs fun _ => hperm.mem_iff.symm
    obtain ⟨t, ht⟩ := IntervalSet.exists_ofMembers_of_subset happend
      (List.subset_append_left part rest)
    refine ⟨t, ht, fun members' hperm' => ?_⟩
    have hreplaced := IntervalSet.ofMembers_members_append happend ht
    exact IntervalSet.ofMembers_of_same_members hreplaced fun _ => hperm'.mem_iff

/-- Members in another order, members given twice, and members that have been merged. -/
theorem construction_of_regrouped :
    ∃ s, IntervalSet.ofMembers [.range 3 5, .single 1, .range 4 9] = .ok s ∧
      IntervalSet.ofMembers [.single 1, .range 4 9, .range 3 5, .single 1] = .ok s ∧
      IntervalSet.ofMembers [.single 1, .range 3 9] = .ok s := by
  obtain ⟨-, hbuild, -⟩ := construction_extensional
  obtain ⟨hsame, hregroup⟩ := hbuild [.range 3 5, .single 1, .range 4 9]
    ⟨[⟨3, 9, by decide, by decide⟩, ⟨1, 1, by decide, by decide⟩], by decide⟩ rfl
  obtain ⟨t, ht, hreplace⟩ := hregroup [.range 3 5, .range 4 9] [.single 1] (by decide)
  refine ⟨_, rfl, hsame _ ?_, hreplace _ ?_⟩
  · grind
  · -- the two members that overlap make up one interval
    cases ht
    decide

end PageSelection
