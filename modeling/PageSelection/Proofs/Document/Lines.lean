import PageSelection.Document
import PageSelection.Proofs.Search

/-!
# The line of an offset

The starts of the lines ascend strictly from 0 (`pairwise_lineStarts`), so the search for an offset
among them is exact, and since the first start is 0 there is always one at the offset or before it.
`lineStart_lineIndex` says what the look-up finds: the last start that is not behind the offset.
From this

* the line of an offset can be looked up, and it reaches as far as the offset (`exists_lineSpan`);
* the index is the number of line feeds that end at the offset or before
  (`lineIndex_eq_countP`), and at a boundary the number of line feeds in front of it
  (`lineIndex_byteLength`).
-/

namespace PageSelection.Document

open Text (byteLength byteLength_cons byteLength_append)

/-! ### The starts of the lines -/

/-- Every line feed of a text ends behind the start of the text and within it. -/
theorem bounds_of_mem_lineFeedEnds {cs : List Char} {pos stop : Nat}
    (h : stop ∈ lineFeedEnds pos cs) : pos < stop ∧ stop ≤ pos + byteLength cs := by
  induction cs generalizing pos with
  | nil => cases h
  | cons c cs ih =>
    have hsize := c.utf8Size_pos
    -- what ends behind the start of the rest ends behind this character too
    have hrest : stop ∈ lineFeedEnds (pos + c.utf8Size) cs →
        pos < stop ∧ stop ≤ pos + byteLength (c :: cs) := by
      intro h
      obtain ⟨hlt, hle⟩ := ih h
      rw [Nat.add_assoc] at hle
      exact ⟨Nat.lt_of_le_of_lt (Nat.le_add_right _ _) hlt, hle⟩
    rw [lineFeedEnds] at h
    split at h
    · rcases List.mem_cons.mp h with rfl | h
      · rw [byteLength_cons, ← Nat.add_assoc]
        exact ⟨Nat.lt_add_of_pos_right hsize, Nat.le_add_right _ _⟩
      · exact hrest h
    · exact hrest h

theorem pairwise_lineFeedEnds (pos : Nat) (cs : List Char) :
    (lineFeedEnds pos cs).Pairwise (· < ·) := by
  induction cs generalizing pos with
  | nil => exact .nil
  | cons c cs ih =>
    rw [lineFeedEnds]
    split
    · exact .cons (fun stop hstop => (bounds_of_mem_lineFeedEnds hstop).1) (ih _)
    · exact ih _

/-- **The lines start in ascending order.** -/
theorem pairwise_lineStarts (cs : List Char) : (lineStarts cs).Pairwise (· < ·) :=
  .cons (fun _ hstop => (bounds_of_mem_lineFeedEnds hstop).1) (pairwise_lineFeedEnds 0 cs)

/-- The line feeds of a first part are those of the text that end within it. -/
theorem lineFeedEnds_append (pos : Nat) (cs ds : List Char) :
    lineFeedEnds pos (cs ++ ds) =
      lineFeedEnds pos cs ++ lineFeedEnds (pos + byteLength cs) ds := by
  induction cs generalizing pos with
  | nil => rfl
  | cons c cs ih =>
    rw [List.cons_append, lineFeedEnds, lineFeedEnds, byteLength_cons, ← Nat.add_assoc]
    split
    · rw [ih, List.cons_append]
    · rw [ih]

theorem length_lineFeedEnds (pos : Nat) (cs : List Char) :
    (lineFeedEnds pos cs).length = cs.count '\n' := by
  induction cs generalizing pos with
  | nil => rfl
  | cons c cs ih =>
    rw [lineFeedEnds]
    split
    · next hfeed => rw [hfeed, List.length_cons, ih, List.count_cons_self]
    · next hother => rw [ih, List.count_cons_of_ne hother]

/-! ### The look-up -/

/-- The search for an offset goes through elements in ascending order. -/
theorem ascends_lineStarts (cs : List Char) (offset : Nat) :
    Search.Ascends (compare · offset) (lineStarts cs).toArray := by
  intro i j hi hj hij
  have hle : (lineStarts cs)[i] ≤ (lineStarts cs)[j] := by
    rcases Nat.eq_or_lt_of_le hij with rfl | hlt
    · exact Nat.le_refl _
    · exact Nat.le_of_lt (List.pairwise_iff_getElem.mp (pairwise_lineStarts cs) i j hi hj hlt)
  simp only [List.getElem_toArray, Nat.compare_eq_lt, Nat.compare_eq_gt]
  exact ⟨fun h => Nat.lt_of_le_of_lt hle h, fun h => Nat.lt_of_lt_of_le h hle⟩

/-- The search for an offset never ends in front of all lines. -/
theorem run_lineStarts_ne (cs : List Char) (offset : Nat) :
    Search.run (compare · offset) (lineStarts cs).toArray ≠ .missing 0 := by
  intro hrun
  have hspec := Search.run_spec (ascends_lineStarts cs offset)
  rw [hrun] at hspec
  obtain ⟨-, -, habove⟩ := hspec
  -- the first line starts at 0, and nothing is in front of that
  have hfirst := habove 0 (by simp [lineStarts]) (Nat.le_refl 0)
  rw [Nat.compare_eq_gt] at hfirst
  exact absurd hfirst (Nat.not_lt_zero offset)

/-- **The last start that is not behind the offset.** The look-up finds a line that starts at the
offset or before it, and all later lines start behind the offset. -/
theorem lineStart_lineIndex (d : Document) (offset : Nat) :
    ∃ h : d.lineIndex offset < (lineStarts d.text.toList).length,
      (lineStarts d.text.toList)[d.lineIndex offset] ≤ offset ∧
      ∀ j (hj : j < (lineStarts d.text.toList).length), d.lineIndex offset < j →
        offset < (lineStarts d.text.toList)[j] := by
  have hspec := Search.run_spec (ascends_lineStarts d.text.toList offset)
  have hne := run_lineStarts_ne d.text.toList offset
  unfold lineIndex
  cases hrun : Search.run (compare · offset) (lineStarts d.text.toList).toArray with
  | found index =>
    rw [hrun] at hspec
    obtain ⟨hindex, heq⟩ := hspec
    rw [List.getElem_toArray, Nat.compare_eq_eq] at heq
    refine ⟨hindex, Nat.le_of_eq heq, fun j hj hlt => ?_⟩
    calc offset = (lineStarts d.text.toList)[index] := heq.symm
      _ < (lineStarts d.text.toList)[j] :=
        List.pairwise_iff_getElem.mp (pairwise_lineStarts _) index j hindex hj hlt
  | missing index =>
    rw [hrun] at hspec hne
    obtain ⟨hindex, hbelow, habove⟩ := hspec
    cases index with
    | zero => exact absurd rfl hne
    | succ index =>
      -- the cut is just behind the line that is found
      show ∃ h : index < _, _ ≤ offset ∧ ∀ j (hj : j < _), index < j → offset < _
      refine ⟨hindex, ?_, fun j hj hlt => ?_⟩
      · exact Nat.le_of_lt (Nat.compare_eq_lt.mp (hbelow index hindex (Nat.lt_succ_self index)))
      · exact Nat.compare_eq_gt.mp (habove j hj hlt)

/-- A line reaches from its start to the next one, or to the end of the text. -/
theorem lineSpan_of_lt {d : Document} {index : Nat}
    (h : index < (lineStarts d.text.toList).length) :
    d.lineSpan index = .ok ⟨(lineStarts d.text.toList)[index],
      (lineStarts d.text.toList)[index + 1]?.getD (byteLength d.text.toList)⟩ := by
  simp only [lineSpan, List.getElem?_eq_getElem h]
  rfl

/-- **The line of an offset can be looked up.** It starts at the offset or before it, and ends
behind it, unless the offset is at the end of the text or past it. -/
theorem exists_lineSpan (d : Document) (offset : Nat) :
    ∃ line, d.lineSpan (d.lineIndex offset) = .ok line ∧ line.start ≤ offset ∧
      (offset < line.stop ∨
        line.stop = byteLength d.text.toList ∧ byteLength d.text.toList ≤ offset) := by
  obtain ⟨hindex, hstart, hlater⟩ := lineStart_lineIndex d offset
  refine ⟨_, lineSpan_of_lt hindex, hstart, ?_⟩
  by_cases hnext : d.lineIndex offset + 1 < (lineStarts d.text.toList).length
  · rw [List.getElem?_eq_getElem hnext]
    exact .inl (hlater _ hnext (Nat.lt_succ_self _))
  · -- the line is the last one, which ends with the text
    rw [List.getElem?_eq_none (Nat.not_lt.mp hnext)]
    rcases Nat.lt_or_ge offset (byteLength d.text.toList) with hlt | hge
    · exact .inl hlt
    · exact .inr ⟨rfl, hge⟩

/-- **An offset can be located,** on the line that it belongs to. -/
theorem exists_location (d : Document) (offset : Nat) :
    ∃ column, d.location offset = .ok ⟨d.lineIndex offset + 1, column⟩ := by
  obtain ⟨line, hline, -⟩ := exists_lineSpan d offset
  refine ⟨(charEnds 0 d.text.toList).countP
    (fun stop => line.start < stop && stop ≤ min offset line.stop) + 1, ?_⟩
  simp only [location, hline]
  rfl

/-! ### Counting line feeds -/

/-- In an ascending list, the elements up to the last one that is not above a limit are those that
are not above it. -/
theorem countP_le_eq {starts : List Nat} (h : starts.Pairwise (· < ·)) {index limit : Nat}
    (hindex : index < starts.length) (hle : starts[index] ≤ limit)
    (hlt : ∀ j (hj : j < starts.length), index < j → limit < starts[j]) :
    starts.countP (· ≤ limit) = index + 1 := by
  induction starts generalizing index with
  | nil => cases hindex
  | cons start starts ih =>
    obtain ⟨hfirst, hrest⟩ := List.pairwise_cons.mp h
    cases index with
    | zero =>
      have hnone : starts.countP (· ≤ limit) = 0 := by
        rw [List.countP_eq_zero]
        intro stop hstop
        obtain ⟨j, hj, rfl⟩ := List.getElem_of_mem hstop
        simpa using hlt (j + 1) (Nat.succ_lt_succ hj) (Nat.succ_pos j)
      rw [List.countP_cons_of_pos (by simpa using hle), hnone]
    | succ index =>
      -- the first element is below the last one that counts
      have hindex' := Nat.lt_of_succ_lt_succ hindex
      have hstart : start ≤ limit :=
        Nat.le_trans (Nat.le_of_lt (hfirst _ (List.getElem_mem hindex'))) hle
      rw [List.countP_cons_of_pos (by simpa using hstart), ih hrest hindex' hle fun j hj hj' => ?_]
      exact hlt (j + 1) (Nat.succ_lt_succ hj) (Nat.succ_lt_succ hj')

/-- **The index of a line is the number of line feeds** that end at the offset or before it. -/
theorem lineIndex_eq_countP (d : Document) (offset : Nat) :
    d.lineIndex offset = (lineFeedEnds 0 d.text.toList).countP (· ≤ offset) := by
  obtain ⟨hindex, hstart, hlater⟩ := lineStart_lineIndex d offset
  have hcount := countP_le_eq (pairwise_lineStarts d.text.toList) hindex hstart hlater
  rw [lineStarts, List.countP_cons_of_pos (by simp)] at hcount
  exact (Nat.succ.inj hcount).symm

/-- At a boundary, the index is the number of line feeds in front of it. -/
theorem lineIndex_byteLength {d : Document} {before after : List Char}
    (h : d.text.toList = before ++ after) :
    d.lineIndex (byteLength before) = before.count '\n' := by
  -- all line feeds of the first part have ended by the boundary, and none of the second part
  rw [lineIndex_eq_countP, h, lineFeedEnds_append, List.countP_append, Nat.zero_add]
  have hbefore : (lineFeedEnds 0 before).countP (· ≤ byteLength before) = before.count '\n' := by
    rw [← length_lineFeedEnds 0 before, List.countP_eq_length]
    intro stop hstop
    simpa using (bounds_of_mem_lineFeedEnds hstop).2
  have hafter : (lineFeedEnds (byteLength before) after).countP (· ≤ byteLength before) = 0 := by
    rw [List.countP_eq_zero]
    intro stop hstop
    simpa using (bounds_of_mem_lineFeedEnds hstop).1
  rw [hbefore, hafter, Nat.add_zero]

/-- Without a line feed between them, two boundaries are on one line. -/
theorem lineIndex_congr {d : Document} {before own after : List Char}
    (h : d.text.toList = before ++ (own ++ after)) (hown : '\n' ∉ own) :
    d.lineIndex (byteLength before + byteLength own) = d.lineIndex (byteLength before) := by
  have h' : d.text.toList = (before ++ own) ++ after := by rw [h, List.append_assoc]
  calc d.lineIndex (byteLength before + byteLength own)
      = (before ++ own).count '\n' := by rw [← byteLength_append, lineIndex_byteLength h']
    _ = before.count '\n' := by rw [List.count_append, List.count_eq_zero.mpr hown, Nat.add_zero]
    _ = d.lineIndex (byteLength before) := (lineIndex_byteLength h).symm

end PageSelection.Document
