import Mathlib.Algebra.GroupWithZero.Nat
import PageSelection.Proofs.IntervalSet.Placement
import PageSelection.Proofs.RoundTrip

/-!
# The text of a set is its shortest spelling

No range list of a set is shorter than the text of the set, nor does it have fewer items that are in
order than the set has intervals.

An interval is charged the `room` that it takes in a list: the bytes of its text, and one more for a
comma. The text of a set takes the room of its intervals, but for the comma that the last one does
not need (`byteLength_spell`). This is compared with any other range list in two steps.

* Merging saves room. Each end of a hull is an end of one of the two intervals; if both ends come
  from the same one, the hull is this interval, and if not, then each of the two had room for the
  end that it gives (`room_hull_le`). So an interval takes at most its own room when it is put into
  a set (`totalRoom_place_le`), whatever it merges with.
* Writing an interval otherwise saves none. An item with the bounds of an interval has at least as
  many digits, as leading zeros only make numbers longer, and so it is no shorter than the text of
  the interval (`ItemAt.room_le`); and a comma stands between any two items
  (`ListAt.totalRoom_le`).
-/

namespace PageSelection

open Text RangeList

/-! ### Digits -/

namespace Numeral

/-- A run of digits behind those of `n` makes a number below `n + 1` with as many zeros. -/
theorem ofDigitChars_lt {ds : List Char} (h : ∀ d ∈ ds, d.isDigit = true) (n : Nat) :
    Nat.ofDigitChars 10 ds n < (n + 1) * 10 ^ ds.length := by
  induction ds generalizing n with
  | nil => simp
  | cons d ds ih =>
    have hd : d.toNat - '0'.toNat < 10 := by
      have hbounds := Char.isDigit_iff_toNat.mp (h d List.mem_cons_self)
      have hzero : '0'.toNat = 48 := rfl
      have hnine : '9'.toNat = 57 := rfl
      omega
    rw [Nat.ofDigitChars_cons, List.length_cons, Nat.pow_succ']
    calc Nat.ofDigitChars 10 ds (10 * n + (d.toNat - '0'.toNat))
        < (10 * n + (d.toNat - '0'.toNat) + 1) * 10 ^ ds.length :=
          ih (fun d' hd' => h d' (List.mem_cons_of_mem d hd')) _
      _ ≤ ((n + 1) * 10) * 10 ^ ds.length := Nat.mul_le_mul_right _ (by omega)
      _ = (n + 1) * (10 * 10 ^ ds.length) := Nat.mul_assoc _ _ _

/-- Digits are single bytes. -/
theorem byteLength_of_isDigit {ds : List Char} (h : ∀ d ∈ ds, d.isDigit = true) :
    byteLength ds = ds.length := by
  induction ds with
  | nil => rfl
  | cons d ds ih =>
    rw [byteLength_cons, utf8Size_of_isDigit (h d List.mem_cons_self),
      ih fun d' hd' => h d' (List.mem_cons_of_mem d hd'), List.length_cons, Nat.add_comm]

/-- The bytes of a number as it is printed. -/
def width (value : Int32) : Nat := byteLength (spell value.toInt)

/-- A number is printed with as few digits as it can be written with. -/
theorem width_le_of_number {ds : List Char} {value : Int32} (h : Grammar.Number ds value) :
    width value ≤ byteLength ds := by
  have hlt := ofDigitChars_lt h.digits 0
  rw [Nat.zero_add, Nat.one_mul] at hlt
  unfold width
  rw [h.value_eq, spell_of_nonneg (Int.natCast_nonneg _), Int.natAbs_natCast,
    byteLength_of_isDigit fun d => isDigit_of_mem_digits, byteLength_of_isDigit h.digits]
  exact (Nat.length_toDigits_le_iff (by decide) (List.length_pos_iff.mpr h.nonempty)).mpr hlt

end Numeral

open Numeral (width)

/-! ### The room of intervals -/

namespace Interval

/-- The bytes that an interval takes in a list, with a comma. -/
def room (i : Interval) : Nat := byteLength i.spell + 1

/-- The bytes that some intervals take in a list, with a comma for each. -/
def totalRoom (is : List Interval) : Nat := (is.map room).sum

@[simp] theorem totalRoom_nil : totalRoom [] = 0 := rfl

@[simp] theorem totalRoom_cons (i : Interval) (is : List Interval) :
    totalRoom (i :: is) = i.room + totalRoom is := rfl

theorem room_eq (i : Interval) :
    i.room = if i.low = i.high then width i.low + 1 else width i.low + 1 + (width i.high + 1) := by
  unfold room spell
  split
  · rfl
  · rw [byteLength_append, byteLength_cons]
    show width i.low + (1 + width i.high) + 1 = _
    omega

/-- An interval has room for its low end. -/
theorem width_low_lt_room (i : Interval) : width i.low < i.room := by
  rw [room_eq]
  split <;> omega

/-- An interval has room for its high end. -/
theorem width_high_lt_room (i : Interval) : width i.high < i.room := by
  rw [room_eq]
  split
  · next hsingle =>
    rw [hsingle]
    exact Nat.lt_succ_self _
  · omega

/-- An interval needs no more room than its two ends. -/
theorem room_le (i : Interval) : i.room ≤ width i.low + 1 + (width i.high + 1) := by
  rw [room_eq]
  split <;> omega

/-- **Merging saves room.** -/
theorem room_hull_le (i j : Interval) : (i.hull j).room ≤ i.room + j.room := by
  have hlow : (i.hull j).low = i.low ∨ (i.hull j).low = j.low := by
    rw [← Int32.toInt_inj, ← Int32.toInt_inj, toInt_low_hull]
    omega
  have hhigh : (i.hull j).high = i.high ∨ (i.hull j).high = j.high := by
    rw [← Int32.toInt_inj, ← Int32.toInt_inj, toInt_high_hull]
    omega
  have hroom := (i.hull j).room_le
  rcases hlow with hlow | hlow
  · rcases hhigh with hhigh | hhigh
    · rw [ext_ends hlow hhigh]
      exact Nat.le_add_right _ _
    · -- the low end is that of `i`, and the high end that of `j`
      rw [hlow, hhigh] at hroom
      exact Nat.le_trans hroom (Nat.add_le_add i.width_low_lt_room j.width_high_lt_room)
  · rcases hhigh with hhigh | hhigh
    · rw [hlow, hhigh, Nat.add_comm] at hroom
      exact Nat.le_trans hroom (Nat.add_le_add i.width_high_lt_room j.width_low_lt_room)
    · rw [ext_ends hlow hhigh]
      exact Nat.le_add_left _ _

/-- **One more interval** takes at most its own room. -/
theorem totalRoom_place_le (new : Interval) (stored : List Interval) :
    totalRoom (new.place stored) ≤ new.room + totalRoom stored := by
  induction stored generalizing new with
  | nil => exact Nat.le_refl _
  | cons top rest ih =>
    rw [place, totalRoom_cons]
    split
    · calc totalRoom ((top.hull new).place rest)
          ≤ (top.hull new).room + totalRoom rest := ih _
        _ ≤ top.room + new.room + totalRoom rest := Nat.add_le_add_right (room_hull_le top new) _
        _ = new.room + (top.room + totalRoom rest) := by omega
    · split
      · have hrest := ih new
        rw [totalRoom_cons]
        omega
      · exact Nat.le_refl _

/-- One more interval makes at most one more. -/
theorem length_place_le (new : Interval) (stored : List Interval) :
    (new.place stored).length ≤ 1 + stored.length := by
  induction stored generalizing new with
  | nil => exact Nat.le_refl _
  | cons top rest ih =>
    rw [place, List.length_cons]
    split
    · exact Nat.le_succ_of_le (ih _)
    · split
      · exact Nat.succ_le_succ (ih new)
      · exact Nat.le_of_eq (Nat.add_comm _ _)

/-- Bounds of an interval are not reversed. -/
theorem isReversed_bounds (i : Interval) : i.bounds.isReversed = false :=
  decide_eq_false (Int32.not_lt.mpr i.ordered)

/-- Behind another interval, each takes exactly its room. -/
theorem byteLength_spellRest (is : List Interval) : byteLength (spellRest is) = totalRoom is := by
  induction is with
  | nil => rfl
  | cons i is ih =>
    have hrest : spellRest (i :: is) = ',' :: (i.spell ++ spellRest is) := rfl
    rw [hrest, byteLength_cons, byteLength_append, ih, totalRoom_cons, room]
    show 1 + (byteLength i.spell + totalRoom is) = _
    omega

end Interval

/-! ### Sets -/

namespace IntervalSet

/-- **What inserting does.** Reversed bounds change nothing, and others are those of an interval,
which is added. -/
theorem insert_cases {s t : IntervalSet} {b : Bounds} (h : s.insert b = .ok t) :
    (b.isReversed = true ∧ t = s) ∨ ∃ i : Interval, i.bounds = b ∧ t = s.add i := by
  unfold insert at h
  split at h
  · next hordered =>
    split at h
    · next hnonneg =>
      cases h
      exact .inr ⟨⟨b.low, b.high, hnonneg, hordered⟩, rfl, rfl⟩
    · cases h
  · next hreversed =>
    cases h
    exact .inl ⟨decide_eq_true (Int32.not_le.mp hreversed), rfl⟩

/-- **A set is built** by adding the intervals of the bounds that are in order, one by one. -/
theorem exists_foldl_add {bs : List Bounds} {s t : IntervalSet}
    (h : bs.foldlM insert s = .ok t) :
    ∃ is : List Interval, is.map Interval.bounds = bs.filter (fun b => !b.isReversed) ∧
      t = is.foldl add s := by
  induction bs generalizing s with
  | nil =>
    cases h
    exact ⟨[], rfl, rfl⟩
  | cons b bs ih =>
    rw [List.foldlM_cons] at h
    obtain ⟨next, hinsert, hrest⟩ := bind_eq_ok_iff.mp h
    obtain ⟨is, his, rfl⟩ := ih hrest
    rcases insert_cases hinsert with ⟨hreversed, rfl⟩ | ⟨i, rfl, rfl⟩
    · refine ⟨is, ?_, rfl⟩
      rw [his, List.filter_cons_of_neg]
      simpa using hreversed
    · refine ⟨i :: is, ?_, rfl⟩
      rw [List.map_cons, his, List.filter_cons_of_pos]
      simpa using i.isReversed_bounds

/-- **From one interval to all.** If adding an interval adds at most its charge to some measure of
the stored intervals, then adding many adds at most all their charges. -/
theorem measure_foldl_add_le {measure : List Interval → Nat} {charge : Interval → Nat}
    (hplace : ∀ new stored, measure (new.place stored) ≤ charge new + measure stored)
    (is : List Interval) (s : IntervalSet) :
    measure (is.foldl add s).descending ≤ (is.map charge).sum + measure s.descending := by
  induction is generalizing s with
  | nil => exact Nat.le_of_eq (Nat.zero_add _).symm
  | cons i is ih =>
    calc measure (is.foldl add (s.add i)).descending
        ≤ (is.map charge).sum + measure (i.place s.descending) := ih (s.add i)
      _ ≤ (is.map charge).sum + (charge i + measure s.descending) :=
          Nat.add_le_add_left (hplace i s.descending) _
      _ = ((i :: is).map charge).sum + measure s.descending := by
          rw [List.map_cons, List.sum_cons]
          omega

/-- The text of a set takes the room of its intervals, without the last comma. -/
theorem byteLength_spell (s : IntervalSet) :
    byteLength s.spell = Interval.totalRoom s.intervals - 1 := by
  unfold spell
  cases s.intervals with
  | nil => rfl
  | cons i rest =>
    rw [Interval.intercalate_spell, byteLength_append, Interval.byteLength_spellRest,
      Interval.totalRoom_cons, Interval.room]
    omega

theorem totalRoom_intervals (s : IntervalSet) :
    Interval.totalRoom s.intervals = Interval.totalRoom s.descending := by
  unfold Interval.totalRoom intervals
  rw [List.map_reverse, List.sum_reverse]

end IntervalSet

/-! ### Texts -/

namespace RangeList.Grammar

/-- **An item has room** for the interval with its bounds. -/
theorem ItemAt.room_le {pos : Nat} {cs : List Char} {item : Item} (h : ItemAt pos cs item)
    {i : Interval} (hi : i.bounds = item.bounds) : i.room ≤ byteLength cs + 1 := by
  have hlow : i.low = item.bounds.low := congrArg Bounds.low hi
  have hhigh : i.high = item.bounds.high := congrArg Bounds.high hi
  rw [Interval.room_eq, hlow, hhigh]
  cases h with
  | single hnumber =>
    rw [if_pos rfl]
    exact Nat.succ_le_succ (Numeral.width_le_of_number hnumber)
  | @range lows gap gap' highs low high hnumber _ mark _ hnumber' =>
    have hlows := Numeral.width_le_of_number hnumber
    have hhighs := Numeral.width_le_of_number hnumber'
    have hmark := mark.char.utf8Size_pos
    simp only [byteLength_append, byteLength_cons]
    split <;> omega

/-- The intervals are those of the items that are in order, one for each. -/
def IntervalsOf (items : List Item) (is : List Interval) : Prop :=
  is.map Interval.bounds = (items.map (·.bounds)).filter fun b => !b.isReversed

/-- Where the items behind the first one have room for their intervals, so have all of them. -/
theorem ItemAt.totalRoom_le {pos : Nat} {cs : List Char} {item : Item} (hitem : ItemAt pos cs item)
    {items : List Item} {room : Nat}
    (hitems : ∀ is, IntervalsOf items is → Interval.totalRoom is ≤ room)
    {is : List Interval} (his : IntervalsOf (item :: items) is) :
    Interval.totalRoom is ≤ byteLength cs + 1 + room := by
  unfold IntervalsOf at his
  by_cases hreversed : item.bounds.isReversed = true
  · -- a reversed item has no interval, and its room is left over
    rw [List.map_cons, List.filter_cons_of_neg (by simpa using hreversed)] at his
    exact Nat.le_trans (hitems is his) (Nat.le_add_left _ _)
  · rw [List.map_cons, List.filter_cons_of_pos (by simpa using hreversed)] at his
    obtain ⟨i, is, rfl, hi, his⟩ := List.map_eq_cons_iff.mp his
    exact Nat.add_le_add (hitem.room_le hi) (hitems is his)

/-- **Further items have room** for their intervals. -/
theorem MoreAt.totalRoom_le {pos : Nat} {cs : List Char} {items : List Item}
    (h : MoreAt pos cs items) {is : List Interval} (his : IntervalsOf items is) :
    Interval.totalRoom is ≤ byteLength cs := by
  induction h generalizing is with
  | done =>
    rw [List.map_eq_nil_iff.mp his]
    exact Nat.zero_le _
  | @comma pos gap gap' cs rest item items _ _ hitem _ ih =>
    -- the comma in front of the item is as long as the one that its interval is charged
    have hroom := hitem.totalRoom_le (fun _ => ih) his
    have hcomma : ','.utf8Size = 1 := rfl
    simp only [byteLength_append, byteLength_cons, hcomma]
    omega

/-- **A list has room** for the intervals of its items, but for a last comma. -/
theorem ListAt.totalRoom_le {pos : Nat} {cs : List Char} {items : List Item}
    (h : ListAt pos cs items) {is : List Interval} (his : IntervalsOf items is) :
    Interval.totalRoom is ≤ byteLength cs + 1 := by
  cases h with
  | empty _ _ =>
    rw [List.map_eq_nil_iff.mp his]
    exact Nat.zero_le _
  | items _ hitem hmore _ =>
    have hroom := hitem.totalRoom_le (fun _ => hmore.totalRoom_le) his
    simp only [byteLength_append]
    omega

end RangeList.Grammar

namespace IntervalSet

/-- **The text of a set is its shortest spelling.** It is a range list of the set, no range list of
the set is shorter, and none has fewer items that are in order than the set has intervals. -/
theorem shortest_spelling {text : String} {s : IntervalSet} (h : ofText text = .ok s) :
    ofText (toString s) = .ok s ∧ (toString s).utf8ByteSize ≤ text.utf8ByteSize ∧
      ∃ items, RangeList.parse text = .ok items ∧
        s.intervals.length ≤ items.countP fun item => !item.bounds.isReversed := by
  obtain ⟨items, hread, hbuilt⟩ := bind_eq_ok_iff.mp h
  have hparse : RangeList.parse text = .ok items := mapError_eq_ok_iff.mp hread
  unfold ofItems at hbuilt
  rw [ofMembers_eq_foldlM_bounds, List.map_map] at hbuilt
  obtain ⟨is, his, rfl⟩ := exists_foldl_add hbuilt
  refine ⟨ofText_toString _, ?_, items, hparse, ?_⟩
  · have hmerged : Interval.totalRoom (is.foldl add empty).descending ≤ Interval.totalRoom is :=
      measure_foldl_add_le Interval.totalRoom_place_le is empty
    have hwritten : Interval.totalRoom is ≤ byteLength text.toList + 1 :=
      (parse_eq_ok_iff.mp hparse).totalRoom_le his
    show (String.ofList (is.foldl add empty).spell).utf8ByteSize ≤ _
    rw [utf8ByteSize_ofList, byteLength_spell, totalRoom_intervals, ← byteLength_toList]
    omega
  · have hcount : is.length = items.countP fun item => !item.bounds.isReversed := by
      rw [← List.length_map Interval.bounds, his, ← List.countP_eq_length_filter, List.countP_map]
      rfl
    have hmerged : (is.foldl add empty).descending.length ≤ (is.map fun _ => 1).sum :=
      measure_foldl_add_le Interval.length_place_le is empty
    unfold intervals
    rw [List.length_reverse, ← hcount]
    simpa using hmerged

/-- Blanks, a leading zero, a reversed item and items that merge only make a text longer. -/
theorem shortest_spelling_of_padded_text :
    ∃ s : IntervalSet, ofText "09, 4:5 ,8-7,3" = .ok s ∧ toString s = "3-5,9" ∧
      (toString s).utf8ByteSize ≤ "09, 4:5 ,8-7,3".utf8ByteSize := by
  obtain ⟨s, htext, hs⟩ :
      ∃ s : IntervalSet, ofText "09, 4:5 ,8-7,3" = .ok s ∧ toString s = "3-5,9" :=
    ⟨⟨[⟨9, 9, by decide, by decide⟩, ⟨3, 5, by decide, by decide⟩], by decide⟩, by rfl, by decide⟩
  exact ⟨s, htext, hs, (shortest_spelling htext).2.1⟩

end IntervalSet

end PageSelection
