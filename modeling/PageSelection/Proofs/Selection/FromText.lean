import PageSelection.Proofs.RangeList.Reading
import PageSelection.Proofs.Selection.Classification

/-!
# Which texts make a selection

The items of a range list are members, so `Proofs.Selection.Classification` decides what a text
selects once it is read. Two things are special. Numbers are written without a sign, hence no item
is negative. And a selection that fails for a page below 1 names an item of the text. The failing
check sees only the intervals into which the items have been merged; but the page that it fails for
is always 0, and the interval that begins with 0 has this number from an item which begins with 0
itself. So the search for such an item succeeds (`locate_of_zero`).
-/

namespace PageSelection

namespace RangeList

/-- No item of a text is negative. -/
theorem not_isNegative_of_parse {text : String} {items : List Item}
    (h : parse text = .ok items) : ∀ m ∈ items.map (·.bounds.member), ¬ m.bounds.IsNegative := by
  intro m hm
  obtain ⟨item, hitem, rfl⟩ := List.mem_map.mp hm
  obtain ⟨before, own, after, -, hown⟩ := (parse_eq_ok_iff.mp h).exists_split hitem
  rintro ⟨-, hnegative⟩
  exact absurd hown.low_nonneg (Int.not_le.mpr hnegative)

end RangeList

namespace IntervalSet

/-- A text builds what its items build as members. -/
theorem ofText_of_parse {text : String} {items : List RangeList.Item}
    (h : RangeList.parse text = .ok items) :
    ofText text = ofMembers (items.map (·.bounds.member)) := by
  unfold ofText
  rw [h]
  rfl

end IntervalSet

namespace Selection

/-! ### From items to a selection -/

/-- A text that is no range list is refused for the fault in it. -/
theorem ofText_of_parse_error {text : String} {e : RangeList.Error}
    (h : RangeList.parse text = .error e) : ofText text = .error (.set (.malformed e)) := by
  unfold ofText
  rw [h]
  rfl

/-- A range list selects what its items select as members, and a page below 1 is traced back to
an item. -/
theorem ofText_of_parse {text : String} {items : List RangeList.Item}
    (h : RangeList.parse text = .ok items) :
    ofText text = (ofMembers (items.map (·.bounds.member))).mapError (Error.locate items) := by
  -- the items build a set, so the check of the set is all that can fail
  obtain ⟨s, hs⟩ := IntervalSet.exists_ofMembers_iff.mpr (RangeList.not_isNegative_of_parse h)
  have hitems : IntervalSet.ofItems items = .ok s := hs
  unfold ofText
  rw [h, ofMembers_of_ok hs]
  show ((IntervalSet.ofItems items).mapError Error.set >>= fun pages =>
    (ofSet pages).mapError (Error.locate items)) = _
  rw [hitems]
  rfl

/-- The page 0 is traced back to the first item that is in order and begins with it. -/
theorem locate_of_zero {before after : List RangeList.Item} {item : RangeList.Item}
    (hbefore : ∀ i ∈ before, ¬ i.bounds.isReversed = true → i.bounds.low ≠ 0)
    (hordered : ¬ item.bounds.isReversed = true) (hlow : item.bounds.low = 0) :
    Error.locate (before ++ item :: after) (.pageBelowOne 0 none) =
      .pageBelowOne 0 (some item.span) := by
  -- reversed items are passed over, and no other one in front begins with 0
  have hfind : (before ++ item :: after).find?
      (fun i => i.bounds.low == 0 && !i.bounds.isReversed) = some item := by
    refine List.find?_eq_some_iff_append.mpr ⟨?_, before, after, rfl, fun i hi => ?_⟩
    · simpa [hlow] using hordered
    · have hi := hbefore i hi
      simp only [Bool.not_and, Bool.not_not, Bool.or_eq_true]
      by_cases hreversed : i.bounds.isReversed = true
      · exact .inr hreversed
      · exact .inl (by simpa using hi hreversed)
  simp only [Error.locate, hfind, Option.map_some]

/-! ### The outcomes for a range list -/

section

variable {text : String} {items : List RangeList.Item}

/-- A range list without an item in order selects nothing. -/
theorem ofText_of_isReversed (h : RangeList.parse text = .ok items)
    (hreversed : ∀ i ∈ items, i.bounds.isReversed = true) : ofText text = .error .empty := by
  rw [ofText_of_parse h, ofMembers_of_isReversed (by simpa using hreversed)]
  rfl

/-- A range list with an item that is in order and begins with 0 is refused for the first one. -/
theorem ofText_of_zero {before after : List RangeList.Item} {item : RangeList.Item}
    (h : RangeList.parse text = .ok (before ++ item :: after))
    (hbefore : ∀ i ∈ before, ¬ i.bounds.isReversed = true → i.bounds.low ≠ 0)
    (hordered : ¬ item.bounds.isReversed = true) (hlow : item.bounds.low = 0) :
    ofText text = .error (.pageBelowOne 0 (some item.span)) := by
  have hmem : item.bounds.member ∈ (before ++ item :: after).map (·.bounds.member) :=
    List.mem_map.mpr ⟨item, by simp, rfl⟩
  rw [ofText_of_parse h, ofMembers_of_zero (RangeList.not_isNegative_of_parse h)
    ⟨_, hmem, hordered, hlow⟩]
  exact congrArg Except.error (locate_of_zero hbefore hordered hlow)

/-- All other range lists make a selection, of the set that they describe. -/
theorem exists_ofText (h : RangeList.parse text = .ok items)
    (hne : ∃ i ∈ items, ¬ i.bounds.isReversed = true)
    (hzero : ∀ i ∈ items, ¬ i.bounds.isReversed = true → i.bounds.low ≠ 0) :
    ∃ p, ofText text = .ok p ∧ IntervalSet.ofText text = .ok p.pages := by
  obtain ⟨i, hi, hordered⟩ := hne
  obtain ⟨p, hp, hset⟩ := exists_ofMembers (RangeList.not_isNegative_of_parse h)
    ⟨_, List.mem_map_of_mem hi, hordered⟩ (by simpa using hzero)
  refine ⟨p, ?_, by rw [IntervalSet.ofText_of_parse h, hset]⟩
  rw [ofText_of_parse h, hp]
  rfl

end

/-- **Why a text selects nothing.** It is no range list, or its items are all reversed, or one of
them, which is in order, begins with 0. -/
theorem ofText_eq_error {text : String} {e : Error} (h : ofText text = .error e) :
    (∃ fault, RangeList.parse text = .error fault ∧ e = .set (.malformed fault)) ∨
      e = .empty ∨
      ∃ items, RangeList.parse text = .ok items ∧
        ∃ item ∈ items, ¬ item.bounds.isReversed = true ∧ item.bounds.low = 0 ∧
          e = .pageBelowOne 0 (some item.span) := by
  cases hparse : RangeList.parse text with
  | error fault =>
    rw [ofText_of_parse_error hparse] at h
    cases h
    exact .inl ⟨fault, rfl, rfl⟩
  | ok items =>
    refine .inr ?_
    by_cases hreversed : ∀ i ∈ items, i.bounds.isReversed = true
    · rw [ofText_of_isReversed hparse hreversed] at h
      cases h
      exact .inl rfl
    · refine .inr ⟨items, rfl, ?_⟩
      have hfirst := forall_not_or_exists_append
        (fun i : RangeList.Item => ¬ i.bounds.isReversed = true ∧ i.bounds.low = 0) items
      simp only [not_and] at hfirst
      rcases hfirst with hzero | ⟨before, item, after, rfl, hbefore, hordered, hlow⟩
      · -- with an item in order and none for the page 0 there is a selection
        obtain ⟨p, hp, -⟩ := exists_ofText hparse (by simpa using hreversed) hzero
        rw [hp] at h
        cases h
      · rw [ofText_of_zero hparse hbefore hordered hlow] at h
        cases h
        exact ⟨item, by simp, hordered, hlow, rfl⟩

/-- **What comes of a text.** A text that is no range list is refused for the fault in it. A range
list is refused as empty if each of its items is reversed, else for the page 0 if an item that is
in order begins with it, and then at the first such item; all others make the selection of the set
that the text describes. Other errors do not arise from a text. -/
theorem text_classified (text : String) :
    (∀ fault, RangeList.parse text = .error fault →
      ofText text = .error (.set (.malformed fault))) ∧
    (∀ items, RangeList.parse text = .ok items →
      ((∀ i ∈ items, i.bounds.isReversed = true) → ofText text = .error .empty) ∧
      (∀ before item after, items = before ++ item :: after →
        (∀ i ∈ before, ¬ i.bounds.isReversed = true → i.bounds.low ≠ 0) →
        ¬ item.bounds.isReversed = true → item.bounds.low = 0 →
        ofText text = .error (.pageBelowOne 0 (some item.span))) ∧
      ((∃ i ∈ items, ¬ i.bounds.isReversed = true) →
        (∀ i ∈ items, ¬ i.bounds.isReversed = true → i.bounds.low ≠ 0) →
        ∃ p, ofText text = .ok p ∧ IntervalSet.ofText text = .ok p.pages)) ∧
    (∀ e, ofText text = .error e →
      (∃ fault, e = .set (.malformed fault)) ∨ e = .empty ∨
        ∃ span, e = .pageBelowOne 0 (some span)) := by
  refine ⟨fun fault => ofText_of_parse_error, fun items hparse =>
    ⟨ofText_of_isReversed hparse, ?_, exists_ofText hparse⟩, fun e he => ?_⟩
  · rintro before item after rfl hbefore hordered hlow
    exact ofText_of_zero hparse hbefore hordered hlow
  · rcases ofText_eq_error he with ⟨fault, -, rfl⟩ | rfl | ⟨_, -, item, -, -, -, rfl⟩
    · exact .inl ⟨fault, rfl⟩
    · exact .inr (.inl rfl)
    · exact .inr (.inr ⟨item.span, rfl⟩)

/-- The page 0 is reported at the item that begins with it, not at the one that merges with it; and
a fault, a text that selects nothing, and a selection. -/
theorem text_classified_with_merged_zero :
    ofText "3-1, 1-4, 0-2,0" = .error (.pageBelowOne 0 (some ⟨10, 13⟩)) ∧
    ofText "0,7-" = .error (.set (.malformed ⟨.endOfText, .point 4⟩)) ∧
    ofText "9-8" = .error .empty ∧
    ∃ p, ofText "9-8,6" = .ok p ∧ IntervalSet.ofText "9-8,6" = .ok p.pages := by
  obtain ⟨-, hzero, -⟩ := text_classified "3-1, 1-4, 0-2,0"
  obtain ⟨hfault, -⟩ := text_classified "0,7-"
  obtain ⟨-, hempty, -⟩ := text_classified "9-8"
  obtain ⟨-, hmakes, -⟩ := text_classified "9-8,6"
  refine ⟨?_, hfault _ (by rfl), (hempty [⟨⟨9, 8⟩, ⟨0, 3⟩⟩] (by rfl)).1 (by decide), ?_⟩
  · obtain ⟨-, hfirst, -⟩ := hzero
      [⟨⟨3, 1⟩, ⟨0, 3⟩⟩, ⟨⟨1, 4⟩, ⟨5, 8⟩⟩, ⟨⟨0, 2⟩, ⟨10, 13⟩⟩, ⟨⟨0, 0⟩, ⟨14, 15⟩⟩] (by rfl)
    exact hfirst [⟨⟨3, 1⟩, ⟨0, 3⟩⟩, ⟨⟨1, 4⟩, ⟨5, 8⟩⟩] ⟨⟨0, 2⟩, ⟨10, 13⟩⟩ [⟨⟨0, 0⟩, ⟨14, 15⟩⟩]
      rfl (by decide) (by decide) (by decide)
  · obtain ⟨-, -, hset⟩ := hmakes [⟨⟨9, 8⟩, ⟨0, 3⟩⟩, ⟨⟨6, 6⟩, ⟨4, 5⟩⟩] (by rfl)
    exact hset (by decide) (by decide)

end Selection

end PageSelection
