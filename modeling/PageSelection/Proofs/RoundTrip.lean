import Mathlib.Data.List.Chain
import PageSelection.Proofs.OrderIndependence
import PageSelection.Proofs.RangeList.Reading
import PageSelection.Selection.Encoding

/-!
# What is written is read back

The text of a set is derived by the grammar of range lists as one item for each interval, in order
and without any blanks (`derives_toString`). So it is read as these items (`parse_toString`), and a
set is built from its own intervals without merging or moving any of them. Hence reading undoes
writing for sets, for selections, and for selections as data.

`written` is the list of items with the place of each: an item begins where the one before it ends,
but for the comma.
-/

namespace PageSelection

open RangeList Text

namespace Numeral

/-- A number that is not negative is written as a number of the grammar. -/
theorem number_spell {value : Int32} (h : 0 ≤ value.toInt) :
    Grammar.Number (spell value.toInt) value := by
  rw [spell_of_nonneg h]
  refine Grammar.number_of_value_eq (digits_ne_nil _) (fun d => isDigit_of_mem_digits) ?_
  rw [ofDigitChars_digits]
  exact (Int.natAbs_of_nonneg h).symm

end Numeral

namespace Interval

/-- **One interval.** Its text is an item with the bounds of the interval. -/
theorem itemAt_spell (i : Interval) (pos : Nat) :
    Grammar.ItemAt pos i.spell ⟨i.bounds, ⟨pos, pos + byteLength i.spell⟩⟩ := by
  have hlow := Numeral.number_spell i.low_nonneg
  have hhigh := Numeral.number_spell (Int.le_trans i.low_nonneg i.low_le_high)
  by_cases hsingle : i.low = i.high
  · -- a lone number has itself as both bounds
    have hbounds : i.bounds = ⟨i.low, i.low⟩ := by
      unfold bounds
      rw [← hsingle]
    unfold spell
    rw [if_pos hsingle, hbounds]
    exact .single hlow
  · -- two numbers around a hyphen, with nothing else between them
    have hrange := @Grammar.ItemAt.range pos _ [] [] _ _ _ hlow Grammar.blanks_nil .hyphen
      Grammar.blanks_nil hhigh
    simp only [List.append_nil, List.append_assoc, List.cons_append, List.nil_append] at hrange
    unfold spell
    rw [if_neg hsingle]
    exact hrange

/-- The items as which intervals are written from byte `pos` on. -/
def written (pos : Nat) : List Interval → List Item
  | [] => []
  | i :: rest =>
    ⟨i.bounds, ⟨pos, pos + byteLength i.spell⟩⟩ :: written (pos + byteLength i.spell + 1) rest

/-- The text of intervals behind another one: a comma before each. -/
def spellRest (is : List Interval) : List Char := is.flatMap fun i => ',' :: i.spell

theorem intercalate_spell (i : Interval) (rest : List Interval) :
    [','].intercalate ((i :: rest).map spell) = i.spell ++ spellRest rest := by
  -- the text of the first interval is unchanged when the rest begins with another one
  induction rest generalizing i with
  | nil => simp [spellRest]
  | cons j rest ih =>
    rw [List.map_cons, List.map_cons, List.intercalate_cons_cons, ← List.map_cons, ih]
    simp [spellRest]

/-- **Further intervals.** Each is written as a comma and an item. -/
theorem moreAt_spellRest (pos : Nat) (is : List Interval) :
    Grammar.MoreAt pos (spellRest is) (written (pos + 1) is) := by
  induction is generalizing pos with
  | nil => exact .done
  | cons i is ih =>
    -- the comma is one byte, and the next text begins behind it
    have hpos : pos + byteLength ([] ++ [','] ++ [] ++ i.spell) = pos + 1 + byteLength i.spell :=
      (Nat.add_assoc pos 1 _).symm
    refine @Grammar.MoreAt.comma pos [] [] i.spell (spellRest is) _ _ Grammar.blanks_nil
      Grammar.blanks_nil (i.itemAt_spell (pos + 1)) ?_
    rw [hpos]
    exact ih _

theorem map_bounds_written (pos : Nat) (is : List Interval) :
    (written pos is).map (·.bounds) = is.map bounds := by
  induction is generalizing pos with
  | nil => rfl
  | cons i is ih => rw [written, List.map_cons, List.map_cons, ih]

/-- The first item stands where the text begins. -/
theorem start_of_mem_head?_written {pos : Nat} {is : List Interval} {item : Item}
    (h : item ∈ (written pos is).head?) : item.span.start = pos := by
  cases is with
  | nil => cases h
  | cons i is => cases h; rfl

/-- Between two items there is one byte, the comma. -/
theorem isChain_written (pos : Nat) (is : List Interval) :
    (written pos is).IsChain fun item next => next.span.start = item.span.stop + 1 := by
  induction is generalizing pos with
  | nil => exact .nil
  | cons i is ih =>
    rw [written, List.isChain_cons]
    exact ⟨fun next hnext => start_of_mem_head?_written hnext, ih _⟩

/-- The last item ends with the text. -/
theorem stop_of_mem_getLast?_written {pos : Nat} {i : Interval} {is : List Interval} {item : Item}
    (h : item ∈ (written pos (i :: is)).getLast?) :
    item.span.stop = pos + byteLength (i.spell ++ spellRest is) := by
  induction is generalizing pos i with
  | nil =>
    cases h
    rw [spellRest, List.flatMap_nil, List.append_nil]
    rfl
  | cons j is ih =>
    -- the last of all the items is the last of those behind the first comma
    have hlast : item ∈ (written (pos + byteLength i.spell + 1) (j :: is)).getLast? := h
    have hcomma : byteLength (spellRest (j :: is)) = 1 + byteLength (j.spell ++ spellRest is) := rfl
    rw [ih hlast, byteLength_append i.spell, hcomma]
    simp only [Nat.add_assoc]

end Interval

namespace IntervalSet

/-- **The text of a set is a range list of its intervals.** -/
theorem derives_toString (s : IntervalSet) :
    Grammar.Derives (toString s) (Interval.written 0 s.intervals) := by
  change Grammar.ListAt 0 (String.ofList s.spell).toList _
  rw [String.toList_ofList, spell]
  cases s.intervals with
  | nil => exact @Grammar.ListAt.empty 0 [] [] Grammar.blanks_nil Grammar.blanks_nil
  | cons i rest =>
    have hmore := Interval.moreAt_spellRest (0 + byteLength i.spell) rest
    have hlist := @Grammar.ListAt.items 0 [] _ _ [] _ _ Grammar.blanks_nil (i.itemAt_spell 0) hmore
      Grammar.blanks_nil
    rw [List.nil_append, List.append_nil] at hlist
    rw [Interval.intercalate_spell]
    exact hlist

/-- The text of a set is read as its intervals. -/
theorem parse_toString (s : IntervalSet) :
    RangeList.parse (toString s) = .ok (Interval.written 0 s.intervals) :=
  RangeList.parse_eq_ok_iff.mpr s.derives_toString

/-- The items that are read make up the set again. -/
theorem ofItems_written (s : IntervalSet) : ofItems (Interval.written 0 s.intervals) = .ok s := by
  have hmembers : (Interval.written 0 s.intervals).map (·.bounds.member) = s.members := by
    have hbounds := congrArg (List.map Bounds.member) (Interval.map_bounds_written 0 s.intervals)
    rw [List.map_map, List.map_map] at hbounds
    exact hbounds
  unfold ofItems
  rw [hmembers]
  exact ofMembers_members s

/-- **Reading undoes writing.** -/
theorem ofText_toString (s : IntervalSet) : ofText (toString s) = .ok s := by
  unfold ofText
  rw [parse_toString]
  exact s.ofItems_written

/-- Different sets have different texts. -/
theorem toString_injective {s t : IntervalSet} (h : toString s = toString t) : s = t := by
  have hread := ofText_toString s
  rw [h, ofText_toString t] at hread
  cases hread
  rfl

/-- The last item that is read ends with the text. -/
theorem stop_of_mem_getLast?_written {s : IntervalSet} {item : Item}
    (h : item ∈ (Interval.written 0 s.intervals).getLast?) :
    item.span.stop = byteLength (toString s).toList := by
  change _ = byteLength (String.ofList s.spell).toList
  rw [String.toList_ofList, spell]
  cases hcases : s.intervals with
  | nil =>
    rw [hcases] at h
    cases h
  | cons i rest =>
    rw [hcases] at h
    rw [Interval.intercalate_spell, Interval.stop_of_mem_getLast?_written h, Nat.zero_add]

end IntervalSet

namespace Selection

/-- The pages of a selection are selected again. -/
theorem ofSet_pages (p : Selection) : ofSet p.pages = .ok p := by
  have hfind : p.pages.intervals.find? (·.low < 1) = none := by
    rw [List.find?_eq_none]
    intro i hi
    rw [decide_eq_true_eq, Int32.not_lt]
    exact p.positive i hi
  -- neither of the two checks finds anything, and the selection has these pages
  unfold ofSet
  rw [dif_neg p.nonempty]
  split
  · next i hi =>
    rw [hfind] at hi
    cases hi
  · rfl

/-- **Reading undoes writing for selections.** -/
theorem ofText_toString (p : Selection) : ofText (toString p) = .ok p := by
  have hparse : RangeList.parse (toString p) = .ok (Interval.written 0 p.pages.intervals) :=
    p.pages.parse_toString
  -- the text is read, its items make up the set again, and the set is selected
  refine bind_eq_ok_iff.mpr ⟨_, mapError_eq_ok_iff.mpr hparse, ?_⟩
  refine bind_eq_ok_iff.mpr ⟨_, mapError_eq_ok_iff.mpr p.pages.ofItems_written, ?_⟩
  exact mapError_eq_ok_iff.mpr p.ofSet_pages

/-- **Decoding undoes encoding.** -/
theorem ofDatum_toDatum (p : Selection) : ofDatum p.toDatum = .ok p := by
  change (ofText (toString p)).mapError DecodeError.invalid = .ok p
  exact mapError_eq_ok_iff.mpr p.ofText_toString

end Selection

/-- **Reading undoes writing at every level.** The text of a set is read as one item for each of
its intervals, in order, with the bounds of the interval; the first item begins the text, each of
the others begins one byte behind the one before it, and the last ends the text. So the set is
read back from its text, different sets have different texts, and a selection is read back both
from its text and from its datum. -/
theorem reading_undoes_writing :
    (∀ s : IntervalSet,
      (∃ items, RangeList.parse (toString s) = .ok items ∧
        items.map (·.bounds) = s.intervals.map Interval.bounds ∧
        (∀ first ∈ items.head?, first.span.start = 0) ∧
        (items.IsChain fun item next => next.span.start = item.span.stop + 1) ∧
        (∀ last ∈ items.getLast?, last.span.stop = byteLength (toString s).toList)) ∧
      IntervalSet.ofText (toString s) = .ok s) ∧
    (∀ s t : IntervalSet, toString s = toString t → s = t) ∧
    ∀ p : Selection,
      Selection.ofText (toString p) = .ok p ∧ Selection.ofDatum p.toDatum = .ok p := by
  refine ⟨fun s => ⟨?_, s.ofText_toString⟩, fun s t => IntervalSet.toString_injective,
    fun p => ⟨p.ofText_toString, p.ofDatum_toDatum⟩⟩
  refine ⟨Interval.written 0 s.intervals, s.parse_toString, Interval.map_bounds_written _ _, ?_,
    Interval.isChain_written _ _, ?_⟩
  · exact fun first => Interval.start_of_mem_head?_written
  · exact fun last => IntervalSet.stop_of_mem_getLast?_written

/-- No set but `0-3,5` is written as `0-3,5`, and that is read back. -/
theorem set_of_written_text :
    ∃ s : IntervalSet, toString s = "0-3,5" ∧ IntervalSet.ofText "0-3,5" = .ok s ∧
      ∀ t : IntervalSet, toString t = "0-3,5" → t = s := by
  obtain ⟨hread, hinjective, -⟩ := reading_undoes_writing
  obtain ⟨s, hs⟩ : ∃ s : IntervalSet, toString s = "0-3,5" :=
    ⟨⟨[⟨5, 5, by decide, by decide⟩, ⟨0, 3, by decide, by decide⟩], by decide⟩, by decide⟩
  refine ⟨s, hs, ?_, fun t ht => hinjective t s (ht.trans hs.symm)⟩
  rw [← hs]
  exact (hread s).2

end PageSelection
