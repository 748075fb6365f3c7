import Mathlib.Data.List.DropRight
import Mathlib.Data.List.Nodup
import PageSelection.Proofs.Document.Partition

/-!
# Offsets resolve to the right place

A document finds the line of an offset in the table of its line starts, and the column by counting
the ends of characters behind the start of that line. A reader has no tables, and counts the line
feeds in front of the offset, and then the characters behind the last one. Both arrive at the same
place.

* For the line, it is bytes that have to be counted, since an offset may be inside a character. The
  line feeds that end at an offset or before are those among the bytes in front of it
  (`countP_lineFeedEnds`), and the index of the line is their number (`lineIndex_eq_count`).
* For the column, the ends of characters are the boundaries of the text but for the first one
  (`mem_charEnds`), so that it can be found byte by byte (`countP_charEnds`).
* At a boundary, the text falls into the lines in front of the one that is found, the characters of
  that line in front of the offset, and the rest. The line starts where the second part does
  (`exists_lineSpan_of_opens`), and the characters that count are those of the second part
  (`countP_charEnds_own`).

`offset_resolves` collects what is found at an offset.
-/

namespace PageSelection.Document

open Text

/-! ### Counting line feeds among bytes -/

/-- **The line feeds that have ended are those among the bytes in front.** -/
theorem countP_lineFeedEnds (pos n : Nat) (cs : List Char) :
    (lineFeedEnds pos cs).countP (· ≤ pos + n) = ((bytes cs).take n).count 10 := by
  induction cs generalizing pos n with
  | nil =>
    rw [lineFeedEnds, bytes, List.flatMap_nil, List.take_nil, List.countP_nil, List.count_nil]
  | cons c cs ih =>
    have hrest : (lineFeedEnds (pos + c.utf8Size) cs).countP (· ≤ pos + n) =
        ((bytes cs).take (n - c.utf8Size)).count 10 := by
      rcases Nat.lt_or_ge n c.utf8Size with hlt | hge
      · -- the first character is not over yet, and so no later one is
        rw [Nat.sub_eq_zero_of_le (Nat.le_of_lt hlt), List.take_zero, List.count_nil,
          List.countP_eq_zero]
        intro stop hstop
        have hbehind := (bounds_of_mem_lineFeedEnds hstop).1
        rw [decide_eq_true_eq]
        omega
      · have hpos : pos + n = (pos + c.utf8Size) + (n - c.utf8Size) := by omega
        rw [hpos]
        exact ih _ _
    have hbytes : bytes (c :: cs) = String.utf8EncodeChar c ++ bytes cs := List.flatMap_cons
    rw [hbytes, List.take_append, String.length_utf8EncodeChar, List.count_append, ← hrest,
      lineFeedEnds]
    by_cases hc : c = '\n'
    · -- a line feed is one byte, which is in front as soon as there is any
      subst hc
      have hsize : '\n'.utf8Size = 1 := rfl
      have hencode : String.utf8EncodeChar '\n' = [10] := rfl
      rw [if_pos rfl, List.countP_cons, hencode, hsize, Nat.add_comm]
      cases n with
      | zero => simp
      | succ n => simp
    · -- no byte of another character is that of a line feed
      have hnone : 10 ∉ (String.utf8EncodeChar c).take n := fun hmem =>
        hc (lineFeed_mem_utf8EncodeChar.mp (List.mem_of_mem_take hmem))
      rw [if_neg hc, List.count_eq_zero.mpr hnone, Nat.zero_add]

/-- **The index of a line counts line feeds.** They are looked for among the bytes in front of the
offset, which are all bytes if it is past the end. -/
theorem lineIndex_eq_count (d : Document) (offset : Nat) :
    d.lineIndex offset =
      ((bytes d.text.toList).take (min offset (byteLength d.text.toList))).count 10 := by
  rw [lineIndex_eq_countP, ← length_bytes, ← List.take_eq_take_min, ← countP_lineFeedEnds 0,
    Nat.zero_add]

/-- There is one line more than there are line feeds. -/
theorem length_lineStarts (cs : List Char) : (lineStarts cs).length = (bytes cs).count 10 + 1 := by
  have hcount := countP_lineFeedEnds 0 (byteLength cs) cs
  rw [List.take_of_length_le (Nat.le_of_eq (length_bytes cs)),
    List.countP_eq_length.mpr fun stop hstop => by
      simpa using (bounds_of_mem_lineFeedEnds hstop).2] at hcount
  rw [lineStarts, List.length_cons, hcount]

/-- **An offset past the end is on the last line,** which ends with the text. -/
theorem lineSpan_of_byteLength_le {d : Document} {offset : Nat}
    (h : byteLength d.text.toList ≤ offset) :
    (∀ line, d.lineSpan (d.lineIndex offset) = .ok line →
      line.stop = byteLength d.text.toList) ∧
    ∀ k, d.lineIndex offset < k → d.lineSpan k = .error (.noLine k (d.lineIndex offset)) := by
  have hlength : (lineStarts d.text.toList).length = d.lineIndex offset + 1 := by
    rw [length_lineStarts, lineIndex_eq_count, Nat.min_eq_right h,
      List.take_of_length_le (Nat.le_of_eq (length_bytes _))]
  constructor
  · intro line hline
    have hnext : (lineStarts d.text.toList)[d.lineIndex offset + 1]? = none :=
      List.getElem?_eq_none (Nat.le_of_eq hlength)
    rw [lineSpan_of_lt (by omega), hnext] at hline
    cases hline
    rfl
  · intro k hk
    rw [lineSpan_of_le (by omega), hlength, Nat.add_sub_cancel]

/-! ### The ends of characters -/

/-- A character ends where a first part of the text does. -/
theorem mem_charEnds_iff_exists_append {pos stop : Nat} {cs : List Char} :
    stop ∈ charEnds pos cs ↔
      ∃ before after, before ≠ [] ∧ cs = before ++ after ∧ stop = pos + byteLength before := by
  induction cs generalizing pos with
  | nil =>
    refine ⟨nofun, ?_⟩
    rintro ⟨before, after, hne, hsplit, -⟩
    exact absurd (List.append_eq_nil_iff.mp hsplit.symm).1 hne
  | cons c cs ih =>
    rw [charEnds, List.mem_cons, ih]
    constructor
    · rintro (rfl | ⟨before, after, -, rfl, rfl⟩)
      · exact ⟨[c], cs, List.cons_ne_nil c [], rfl, rfl⟩
      · refine ⟨c :: before, after, List.cons_ne_nil c before, rfl, ?_⟩
        rw [byteLength_cons, Nat.add_assoc]
    · rintro ⟨before, after, hne, hsplit, rfl⟩
      obtain ⟨c', before, rfl⟩ := List.exists_cons_of_ne_nil hne
      obtain ⟨rfl, rfl⟩ := List.cons_eq_cons.mp hsplit
      rw [byteLength_cons, ← Nat.add_assoc]
      -- the first part is this character alone, or goes on behind it
      by_cases hbefore : before = []
      · subst hbefore
        exact .inl rfl
      · exact .inr ⟨before, after, hbefore, rfl, rfl⟩

/-- **Characters end at boundaries.** All boundaries are ends of characters, but for the start of
the text. -/
theorem mem_charEnds {stop : Nat} {cs : List Char} :
    stop ∈ charEnds 0 cs ↔ 0 < stop ∧ isBoundary cs stop = true := by
  rw [mem_charEnds_iff_exists_append]
  constructor
  · rintro ⟨before, after, hne, rfl, rfl⟩
    rw [Nat.zero_add]
    exact ⟨byteLength_pos hne, isBoundary_byteLength before after⟩
  · rintro ⟨hpos, hboundary⟩
    obtain ⟨before, after, rfl, rfl⟩ := eq_append_of_isBoundary hboundary
    refine ⟨before, after, ?_, rfl, (Nat.zero_add _).symm⟩
    rintro rfl
    exact absurd hpos (Nat.lt_irrefl 0)

/-- Every character ends behind the start of the text and within it. -/
theorem bounds_of_mem_charEnds {pos stop : Nat} {cs : List Char} (h : stop ∈ charEnds pos cs) :
    pos < stop ∧ stop ≤ pos + byteLength cs := by
  obtain ⟨before, after, hne, rfl, rfl⟩ := mem_charEnds_iff_exists_append.mp h
  rw [byteLength_append, ← Nat.add_assoc]
  exact ⟨Nat.lt_add_of_pos_right (byteLength_pos hne), Nat.le_add_right _ _⟩

theorem nodup_charEnds (pos : Nat) (cs : List Char) : (charEnds pos cs).Nodup := by
  induction cs generalizing pos with
  | nil => exact .nil
  | cons c cs ih =>
    rw [charEnds, List.nodup_cons]
    exact ⟨fun hmem => Nat.lt_irrefl _ (bounds_of_mem_charEnds hmem).1, ih _⟩

theorem length_charEnds (pos : Nat) (cs : List Char) : (charEnds pos cs).length = cs.length := by
  induction cs generalizing pos with
  | nil => rfl
  | cons c cs ih => rw [charEnds, List.length_cons, List.length_cons, ih]

/-- The ends of the characters of a first part come first. -/
theorem charEnds_append (pos : Nat) (cs ds : List Char) :
    charEnds pos (cs ++ ds) = charEnds pos cs ++ charEnds (pos + byteLength cs) ds := by
  induction cs generalizing pos with
  | nil => rfl
  | cons c cs ih =>
    rw [List.cons_append, charEnds, charEnds, ih, byteLength_cons, ← Nat.add_assoc,
      List.cons_append]

/-! ### Columns -/

/-- **The column can be found byte by byte.** A character ends with a byte if there is a boundary
behind it. -/
theorem countP_charEnds (cs : List Char) (start stop : Nat) :
    (charEnds 0 cs).countP (fun e => start < e && e ≤ stop) =
      (List.range' start (stop - start)).countP fun i => isBoundary cs (i + 1) := by
  have hends : ((charEnds 0 cs).filter fun e => start < e && e ≤ stop).Nodup :=
    (nodup_charEnds 0 cs).filter _
  have hbytes : (((List.range' start (stop - start)).filter fun i =>
      isBoundary cs (i + 1)).map Nat.succ).Nodup :=
    ((List.nodup_range' 1).filter _).map Nat.succ_injective
  rw [List.countP_eq_length_filter, List.countP_eq_length_filter]
  -- neither list names a place twice, and they name the same places
  refine ((List.perm_ext_iff_of_nodup hends hbytes).mpr fun e => ?_).length_eq.trans
    (List.length_map _)
  simp only [List.mem_filter, List.mem_map, mem_charEnds, List.mem_range'_1, Bool.and_eq_true,
    decide_eq_true_eq]
  constructor
  · rintro ⟨⟨hpos, hboundary⟩, hstart, hstop⟩
    obtain ⟨i, rfl⟩ := Nat.exists_eq_succ_of_ne_zero (Nat.ne_of_gt hpos)
    exact ⟨i, ⟨⟨by omega, by omega⟩, hboundary⟩, rfl⟩
  · rintro ⟨i, ⟨⟨hstart, hstop⟩, hboundary⟩, rfl⟩
    exact ⟨⟨Nat.succ_pos i, hboundary⟩, by omega, by omega⟩

/-- All characters of a stretch end within it. -/
theorem countP_charEnds_of_within {pos start stop : Nat} {cs : List Char} (hstart : start ≤ pos)
    (hstop : pos + byteLength cs ≤ stop) :
    (charEnds pos cs).countP (fun e => start < e && e ≤ stop) = cs.length := by
  rw [← length_charEnds pos cs, List.countP_eq_length]
  intro e he
  obtain ⟨hlt, hle⟩ := bounds_of_mem_charEnds he
  simp only [Bool.and_eq_true, decide_eq_true_eq]
  exact ⟨Nat.lt_of_le_of_lt hstart hlt, Nat.le_trans hle hstop⟩

/-- No character in front of a stretch ends within it, and none behind it does. -/
theorem countP_charEnds_of_apart {pos start stop : Nat} {cs : List Char}
    (h : pos + byteLength cs ≤ start ∨ stop ≤ pos) :
    (charEnds pos cs).countP (fun e => start < e && e ≤ stop) = 0 := by
  rw [List.countP_eq_zero]
  intro e he
  obtain ⟨hlt, hle⟩ := bounds_of_mem_charEnds he
  simp only [Bool.and_eq_true, decide_eq_true_eq]
  omega

/-- Between two boundaries, as many characters end as there are. -/
theorem countP_charEnds_own (before own after : List Char) :
    (charEnds 0 (before ++ (own ++ after))).countP
        (fun e => byteLength before < e && e ≤ byteLength before + byteLength own) =
      own.length := by
  rw [charEnds_append, charEnds_append, List.countP_append, List.countP_append, Nat.zero_add,
    countP_charEnds_of_apart (.inl (Nat.le_of_eq (Nat.zero_add _))),
    countP_charEnds_of_within (Nat.le_refl _) (Nat.le_refl _),
    countP_charEnds_of_apart (.inr (Nat.le_refl _)), Nat.zero_add, Nat.add_zero]

/-! ### Lines -/

/-- A line starts behind these characters: there are none, or the last one is a line feed. -/
def Opens (before : List Char) : Prop := ∀ c ∈ before.getLast?, c = '\n'

/-- Without the characters behind its last line feed, a text consists of lines that have ended. -/
theorem opens_rdropWhile (cs : List Char) : Opens (cs.rdropWhile (· ≠ '\n')) := by
  intro c hc
  obtain ⟨hne, rfl⟩ := List.mem_getLast?_eq_getLast hc
  simpa using List.rdropWhile_last_not _ cs hne

theorem not_mem_rtakeWhile (cs : List Char) : '\n' ∉ cs.rtakeWhile (· ≠ '\n') := by
  intro hmem
  have hother := List.mem_rtakeWhile_imp hmem
  exact of_decide_eq_true hother rfl

/-- Behind such characters, the last line start is where they end. -/
theorem getLast?_lineStarts {before : List Char} (h : Opens before) :
    (lineStarts before).getLast? = some (byteLength before) := by
  rcases List.eq_nil_or_concat before with rfl | ⟨init, c, rfl⟩
  · rfl
  · rw [List.concat_eq_append] at h ⊢
    obtain rfl : c = '\n' := h c (by rw [List.getLast?_concat]; rfl)
    -- the last line feed ends where the characters do
    have hfeed : lineFeedEnds (0 + byteLength init) ['\n'] = [byteLength (init ++ ['\n'])] := by
      rw [lineFeedEnds, if_pos rfl, byteLength_append, Nat.zero_add]
      rfl
    rw [lineStarts, lineFeedEnds_append, hfeed, ← List.cons_append, List.getLast?_concat]

/-- **The line starts behind the last line feed.** Characters without a line feed are on the line
that starts with them. -/
theorem exists_lineSpan_of_opens {d : Document} {before own after : List Char}
    (h : d.text.toList = before ++ (own ++ after)) (hbefore : Opens before) (hown : '\n' ∉ own) :
    ∃ line, d.lineSpan (d.lineIndex (byteLength before + byteLength own)) = .ok line ∧
      line.start = byteLength before ∧ byteLength before + byteLength own ≤ line.stop := by
  have hindex : d.lineIndex (byteLength before + byteLength own) =
      (lineStarts before).length - 1 := by
    rw [lineIndex_congr h hown, lineIndex_byteLength h, lineStarts, List.length_cons,
      length_lineFeedEnds, Nat.add_sub_cancel]
  have hstarts : lineStarts d.text.toList =
      lineStarts before ++ lineFeedEnds (byteLength before) (own ++ after) := by
    rw [h, lineStarts, lineStarts, lineFeedEnds_append, Nat.zero_add, List.cons_append]
  -- the lines that start behind do so behind the offset, so the last one of those in front counts
  have hstart : (lineStarts d.text.toList)[d.lineIndex (byteLength before + byteLength own)]? =
      some (byteLength before) := by
    have hlast : (lineStarts before).length - 1 < (lineStarts before).length :=
      Nat.sub_one_lt (Nat.succ_ne_zero _)
    rw [hstarts, hindex, List.getElem?_append_left hlast, ← List.getLast?_eq_getElem?,
      getLast?_lineStarts hbefore]
  obtain ⟨hlt, hstart⟩ := List.getElem?_eq_some_iff.mp hstart
  obtain ⟨line, hline, -, hstop⟩ := exists_lineSpan d (byteLength before + byteLength own)
  refine ⟨line, hline, ?_, ?_⟩
  · rw [lineSpan_of_lt hlt] at hline
    cases hline
    exact hstart
  · rcases hstop with hlt | ⟨hend, -⟩
    · exact Nat.le_of_lt hlt
    · rw [hend, h, byteLength_append, byteLength_append, ← Nat.add_assoc]
      exact Nat.le_add_right _ _

/-! ### Locations -/

/-- A location is the line that is found and the number of characters that end on it. -/
theorem location_eq {d : Document} {offset : Nat} {line : Span}
    (h : d.lineSpan (d.lineIndex offset) = .ok line) :
    d.location offset = .ok ⟨d.lineIndex offset + 1,
      (charEnds 0 d.text.toList).countP
        (fun e => line.start < e && e ≤ min offset line.stop) + 1⟩ := by
  simp only [location, h]
  rfl

/-- **A reader's count.** The lines are those that have ended in front, and the characters are those
in front of the boundary on its line. -/
theorem location_of_opens {d : Document} {before own after : List Char}
    (h : d.text.toList = before ++ (own ++ after)) (hbefore : Opens before) (hown : '\n' ∉ own) :
    d.location (byteLength before + byteLength own) =
      .ok ⟨before.count '\n' + 1, own.length + 1⟩ := by
  obtain ⟨line, hline, hstart, hstop⟩ := exists_lineSpan_of_opens h hbefore hown
  calc d.location (byteLength before + byteLength own)
      = .ok ⟨d.lineIndex (byteLength before + byteLength own) + 1,
          (charEnds 0 d.text.toList).countP
            (fun e => byteLength before < e && e ≤ byteLength before + byteLength own) + 1⟩ := by
        rw [location_eq hline, hstart, Nat.min_eq_left hstop]
    _ = .ok ⟨before.count '\n' + 1, own.length + 1⟩ := by
        rw [lineIndex_congr h hown, lineIndex_byteLength h, h, countP_charEnds_own]

/-- **The location of a boundary.** It counts the line feeds in front of the boundary, and then the
characters behind the last one of them. -/
theorem location_byteLength {d : Document} {before after : List Char}
    (h : d.text.toList = before ++ after) :
    d.location (byteLength before) =
      .ok ⟨1 + before.count '\n', 1 + (before.rtakeWhile (· ≠ '\n')).length⟩ := by
  have hsplit : before.rdropWhile (· ≠ '\n') ++ before.rtakeWhile (· ≠ '\n') = before :=
    List.rdropWhile_append_rtakeWhile
  have htext : d.text.toList =
      before.rdropWhile (· ≠ '\n') ++ (before.rtakeWhile (· ≠ '\n') ++ after) := by
    rw [← List.append_assoc, hsplit, h]
  have hlocation := location_of_opens htext (opens_rdropWhile before) (not_mem_rtakeWhile before)
  -- no line feed is behind the last one, so those of the first part are all there are
  have hcount : (before.rdropWhile (· ≠ '\n')).count '\n' = before.count '\n' := by
    conv_rhs => rw [← hsplit, List.count_append,
      List.count_eq_zero.mpr (not_mem_rtakeWhile before), Nat.add_zero]
  rw [← byteLength_append, hsplit, hcount] at hlocation
  rw [hlocation, Nat.add_comm 1, Nat.add_comm 1]

/-- What is found at an offset of a document. -/
structure Finds (d : Document) (offset : Nat) (line : Span) : Prop where
  /-- The index of the line is the number of line feeds among the bytes in front of the offset,
  which are all bytes if it is past the end. -/
  index : d.lineIndex offset =
    ((bytes d.text.toList).take (min offset (byteLength d.text.toList))).count 10
  /-- The line is looked up under this index. -/
  found : d.lineSpan (d.lineIndex offset) = .ok line
  /-- An offset within the text is on the line. -/
  inside : offset < byteLength d.text.toList → line.start ≤ offset ∧ offset < line.stop
  /-- For any other offset, the line ends with the text, and there is no line behind it. -/
  past : byteLength d.text.toList ≤ offset →
    line.stop = byteLength d.text.toList ∧
      ∀ k, d.lineIndex offset < k → d.lineSpan k = .error (.noLine k (d.lineIndex offset))
  /-- Lines and columns are counted from 1. The column goes by the bytes of the line in front of the
  offset that have a boundary behind them. -/
  column : d.location offset = .ok ⟨1 + d.lineIndex offset,
    1 + (List.range' line.start (min offset line.stop - line.start)).countP
      fun i => isBoundary d.text.toList (i + 1)⟩
  /-- At a boundary, the line goes by the line feeds in front of it, and the column by the
  characters behind the last of those. -/
  boundary : ∀ before after, d.text.toList = before ++ after → byteLength before = offset →
    d.location offset =
      .ok ⟨1 + before.count '\n', 1 + (before.rtakeWhile (· ≠ '\n')).length⟩

/-- **Offsets resolve to the right place,** whether they are between characters, inside of one, or
past the end of the text. -/
theorem offset_resolves (d : Document) (offset : Nat) : ∃ line, d.Finds offset line := by
  obtain ⟨line, hline, hstart, hstop⟩ := exists_lineSpan d offset
  exact ⟨line, {
    index := lineIndex_eq_count d offset
    found := hline
    inside := by
      intro hlt
      refine ⟨hstart, ?_⟩
      rcases hstop with hstop | ⟨-, hge⟩
      · exact hstop
      · exact absurd hlt (Nat.not_lt.mpr hge)
    past := by
      intro hge
      obtain ⟨hlast, hnone⟩ := lineSpan_of_byteLength_le hge
      exact ⟨hlast line hline, hnone⟩
    column := by
      rw [location_eq hline, countP_charEnds, Nat.add_comm 1, Nat.add_comm 1]
    boundary := by
      rintro before after htext rfl
      exact location_byteLength htext }⟩

/-- On the second line, an offset inside a character of two bytes, the offset behind that character,
and one past the end. -/
theorem offset_resolves_behind_accent :
    (⟨"list", "7,\né,9"⟩ : Document).location 4 = .ok ⟨2, 1⟩ ∧
      (⟨"list", "7,\né,9"⟩ : Document).location 5 = .ok ⟨2, 2⟩ ∧
      (⟨"list", "7,\né,9"⟩ : Document).lineSpan 2 = .error (.noLine 2 1) := by
  obtain ⟨inside, hinside⟩ := offset_resolves ⟨"list", "7,\né,9"⟩ 4
  obtain ⟨_, hbehind⟩ := offset_resolves ⟨"list", "7,\né,9"⟩ 5
  obtain ⟨_, hpast⟩ := offset_resolves ⟨"list", "7,\né,9"⟩ 9
  have hindex : (⟨"list", "7,\né,9"⟩ : Document).lineIndex 4 = 1 := hinside.index
  have hlast : (⟨"list", "7,\né,9"⟩ : Document).lineIndex 9 = 1 := hpast.index
  have hfound := hinside.found
  have hcolumn := hinside.column
  rw [hindex] at hfound hcolumn
  obtain rfl : (⟨3, 7⟩ : Span) = inside := Except.ok.inj hfound
  refine ⟨hcolumn, hbehind.boundary "7,\né".toList ",9".toList rfl rfl, ?_⟩
  have hnone := (hpast.past (by decide)).2 2 (hlast ▸ by decide)
  rwa [hlast] at hnone

end PageSelection.Document
