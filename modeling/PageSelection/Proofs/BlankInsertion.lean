import PageSelection.Proofs.RangeList.Relocation
import PageSelection.Proofs.Selection.FromText

/-!
# Blanks between tokens

Blanks can be put into a text at any place that is not between two digits, and nothing but the
places of what stands behind them changes.

Such a place divides the tokens of the text into those in front of it, which stay where they are,
and those behind it, which all move by as many bytes as have been put in (`Token.scan_insertion`).
No token is divided, since only a number has more than one character. So the new text has the
characters of each token where this relocation says (`Token.carries_insertion`), and is read alike.

An item can have the place within it, between two of its tokens; then its end moves and its
beginning does not. This is why `Relocation.insertion` says separately where a stretch begins and
where it ends.
-/

namespace PageSelection

open Text

/-! ### Spans on either side of the place -/

/-- What ends at the place or in front of it stays. -/
theorem Span.relocate_insertion_of_stop_le {span : Span} {offset : Nat}
    (h : span.start < span.stop) (hle : span.stop ≤ offset) (length : Nat) :
    span.relocate (.insertion offset length) = span := by
  have hstart : ¬ offset ≤ span.start := Nat.not_le.mpr (Nat.lt_of_lt_of_le h hle)
  have hstop : ¬ offset < span.stop := Nat.not_lt.mpr hle
  unfold relocate Relocation.insertion
  simp only [if_neg hstart, if_neg hstop]

/-- What begins at the place or behind it moves. -/
theorem Span.relocate_insertion_of_le_start {span : Span} {offset : Nat}
    (h : span.start < span.stop) (hle : offset ≤ span.start) (length : Nat) :
    span.relocate (.insertion offset length) = span.relocate (.shift length) := by
  have hstop : offset < span.stop := Nat.lt_of_le_of_lt hle h
  unfold relocate Relocation.insertion Relocation.shift
  simp only [if_pos hle, if_pos hstop]

/-! ### The tokens -/

namespace Token

variable {before gap after : List Char}

/-- Blanks keep digits apart. -/
theorem Apart.insert (h : Apart before after) (hgap : ∀ c ∈ gap, isBlank c = true) :
    Apart before (gap ++ after) := by
  cases gap with
  | nil => exact h
  | cons c gap =>
    have hblank : isBlank c = true := hgap c List.mem_cons_self
    have hdigit : c.isDigit = false :=
      Bool.eq_false_iff.mpr (CharClass.not_isDigit_of_isBlank hblank)
    exact apart_of_noDigit before (noDigit_cons hdigit (gap ++ after))

/-- Relocations that agree on the span of a token agree on the token, since its digits are all that
it covers. -/
theorem relocate_congr {pos : Nat} {cs : List Char} {token : Token}
    (htoken : token ∈ scan none pos cs) {r r' : Relocation}
    (h : token.span.relocate r = token.span.relocate r') :
    token.relocate r = token.relocate r' := by
  obtain ⟨kind, span⟩ := token
  unfold relocate
  rw [h]
  cases kind with
  | number digits =>
    obtain rfl := digits_eq_of_mem_scan htoken
    exact congrArg (Token.mk · _) (congrArg Kind.number h)
  | _ => rfl

theorem relocate_shift_zero (token : Token) : token.relocate (.shift 0) = token := by
  obtain ⟨kind, span⟩ := token
  cases kind <;> rfl

/-- **Blanks put in.** The tokens in front of them stay, and those behind them move. -/
theorem scan_insertion (h : Apart before after) (hgap : ∀ c ∈ gap, isBlank c = true) :
    scan none 0 (before ++ (gap ++ after)) =
      (scan none 0 (before ++ after)).map
        (relocate (.insertion (byteLength before) (byteLength gap))) := by
  have hfront : ∀ token ∈ scan none 0 before,
      token.relocate (.insertion (byteLength before) (byteLength gap)) = token := by
    intro token htoken
    have hle := stop_le_of_mem_scan htoken
    rw [Nat.zero_add] at hle
    calc token.relocate (.insertion (byteLength before) (byteLength gap))
        = token.relocate (.shift 0) := relocate_congr htoken
          (Span.relocate_insertion_of_stop_le (start_lt_stop_of_mem_scan htoken) hle _)
      _ = token := relocate_shift_zero token
  have hbehind : ∀ token ∈ scan none (byteLength before) after,
      token.relocate (.insertion (byteLength before) (byteLength gap)) =
        token.relocate (.shift (byteLength gap)) := by
    intro token htoken
    exact relocate_congr htoken (Span.relocate_insertion_of_le_start
      (start_lt_stop_of_mem_scan htoken) (le_start_of_mem_scan htoken) _)
  rw [scan_append (h.insert hgap), scan_append h, Nat.zero_add, scan_blanks hgap, scan_shift,
    List.map_append, List.map_congr_left hfront, List.map_id', List.map_congr_left hbehind]

/-- Each number keeps its digits. -/
theorem carries_insertion (h : Apart before after) (gap : List Char) {token : Token}
    (htoken : token ∈ scan none 0 (before ++ after)) :
    token.Carries (.insertion (byteLength before) (byteLength gap)) (before ++ after)
      (before ++ (gap ++ after)) := by
  intro digits hkind
  have hnonempty := start_lt_stop_of_mem_scan htoken
  obtain ⟨kind, span⟩ := token
  obtain rfl : kind = .number digits := hkind
  obtain rfl := digits_eq_of_mem_scan htoken
  rw [scan_append h, Nat.zero_add] at htoken
  rcases List.mem_append.mp htoken with hfront | hbehind
  · have hle := stop_le_of_mem_scan hfront
    rw [Nat.zero_add] at hle
    rw [Span.relocate_insertion_of_stop_le hnonempty hle, slice?_append_of_le hle,
      slice?_append_of_le hle]
  · have hle := le_start_of_mem_scan hbehind
    rw [Span.relocate_insertion_of_le_start hnonempty hle]
    -- both texts end with `after`, and the offsets are counted from where it begins
    obtain ⟨start, hstart⟩ := Nat.exists_eq_add_of_le' hle
    obtain ⟨stop, hstop⟩ := Nat.exists_eq_add_of_le' (Nat.le_trans hle (Nat.le_of_lt hnonempty))
    show slice? _ (digits.start + byteLength gap) (digits.stop + byteLength gap) = _
    rw [hstart, hstop, slice?_append_right, Nat.add_assoc, Nat.add_assoc, ← byteLength_append,
      ← List.append_assoc, slice?_append_right]

end Token

/-! ### The range list -/

namespace RangeList

/-- **Blanks between tokens** change the places in what is read, and nothing else. -/
theorem parse_insertion {before gap after : List Char} (h : Token.Apart before after)
    (hgap : ∀ c ∈ gap, isBlank c = true) :
    parse (String.ofList (before ++ (gap ++ after))) =
      relocated (.insertion (byteLength before) (byteLength gap))
        (byteLength (before ++ (gap ++ after))) (parse (String.ofList (before ++ after))) := by
  unfold parse Token.ofText
  rw [String.toList_ofList, String.toList_ofList, Token.scan_insertion h hgap]
  exact Phase.run_relocate (fun _ htoken => Token.carries_insertion h gap htoken) .start

end RangeList

/-! ### The selection -/

namespace Selection

/-- An error at its new place, in a text of `length` bytes. -/
def Error.relocate (r : Relocation) (length : Nat) : Error → Error
  | set (.malformed e) => set (.malformed (e.relocate r length))
  | pageBelowOne page span => pageBelowOne page (span.map (Span.relocate r))
  | e => e

/-- The item that a page below 1 is traced back to is the same one, at its new place. -/
theorem Error.locate_relocate (r : Relocation) (length : Nat) (items : List RangeList.Item)
    (page : Int32) :
    Error.locate (items.map (RangeList.Item.relocate r)) (.pageBelowOne page none) =
      (Error.locate items (.pageBelowOne page none)).relocate r length := by
  simp only [Error.locate, Error.relocate, List.find?_map, Option.map_map]
  rfl

/-- **Where the same items stand at other places,** the same selection is made, or it fails for the
same reason. -/
theorem ofText_relocate {text text' : String} {r : Relocation} {length : Nat}
    (h : RangeList.parse text' = RangeList.relocated r length (RangeList.parse text)) :
    ofText text' = (ofText text).mapError (Error.relocate r length) := by
  cases hparse : RangeList.parse text with
  | error e =>
    rw [hparse] at h
    rw [ofText_of_parse_error hparse, ofText_of_parse_error h]
    rfl
  | ok items =>
    rw [hparse] at h
    have hmembers : (items.map (RangeList.Item.relocate r)).map (·.bounds.member) =
        items.map (·.bounds.member) := by
      rw [List.map_map]
      rfl
    rw [ofText_of_parse hparse, ofText_of_parse h, hmembers]
    cases hselect : ofMembers (items.map (·.bounds.member)) with
    | ok p => rfl
    | error e =>
      -- no error of the members has a place, before an item is looked for
      rcases ofMembers_eq_error (RangeList.not_isNegative_of_parse hparse) hselect with rfl | rfl
      · rfl
      · exact congrArg Except.error (Error.locate_relocate r length items 0)

end Selection

/-- **Blanks between tokens never matter.** With blanks put in at any place that is not between two
digits, a text has the same tokens and reads as the same range list, or fails alike, and it makes
the same selection, or fails alike. What begins at the place or behind it begins later, what ends
behind it ends later, by as many bytes as have been put in, and a number that is missing at the end
of the text is missing at its new end. -/
theorem blanks_never_matter (before gap after : String)
    (hapart : Token.Apart before.toList after.toList)
    (hgap : ∀ c ∈ gap.toList, isBlank c = true) :
    let r := Relocation.insertion before.utf8ByteSize gap.utf8ByteSize
    let text := before ++ after
    let text' := before ++ gap ++ after
    Token.ofText text' = (Token.ofText text).map (Token.relocate r) ∧
      (∀ items, RangeList.parse text = .ok items →
        RangeList.parse text' = .ok (items.map (RangeList.Item.relocate r))) ∧
      (∀ e, RangeList.parse text = .error e →
        RangeList.parse text' = .error (e.relocate r text'.utf8ByteSize)) ∧
      Selection.ofText text' =
        (Selection.ofText text).mapError (Selection.Error.relocate r text'.utf8ByteSize) := by
  intro r text text'
  have htext : text.toList = before.toList ++ after.toList := String.toList_append
  have htext' : text'.toList = before.toList ++ (gap.toList ++ after.toList) := by
    rw [String.toList_append, String.toList_append, List.append_assoc]
  have hparse := RangeList.parse_insertion hapart hgap
  rw [← htext, ← htext', byteLength_toList, byteLength_toList, byteLength_toList,
    String.ofList_toList, String.ofList_toList] at hparse
  refine ⟨?_, fun items h => ?_, fun e h => ?_, Selection.ofText_relocate hparse⟩
  · unfold Token.ofText
    rw [htext, htext', Token.scan_insertion hapart hgap, byteLength_toList, byteLength_toList]
  · rw [hparse, h]
    rfl
  · rw [hparse, h]
    rfl

/-- Two blanks, of which one has three bytes, put into an item that begins with 0, in front of a
character that no range list has, and behind a separator at the end. -/
theorem blanks_never_matter_in_three_texts :
    Selection.ofText "7,0 \u2003-5" =
        (Selection.ofText "7,0-5").mapError (Selection.Error.relocate (.insertion 3 4) 9) ∧
      RangeList.parse "7,0 \u2003-5" = .ok [⟨⟨7, 7⟩, ⟨0, 1⟩⟩, ⟨⟨0, 5⟩, ⟨2, 9⟩⟩] ∧
      RangeList.parse "7 \u2003x" = .error ⟨.unexpected .commaOrEnd (.unexpected 'x'), ⟨5, 6⟩⟩ ∧
      RangeList.parse "7- \u2003" = .error ⟨.endOfText, ⟨6, 6⟩⟩ := by
  have hgap : RangeList.Grammar.Blanks " \u2003".toList :=
    (RangeList.Grammar.blanks_nil.cons (by decide)).cons (by decide)
  have hhyphen : Token.NoDigit "-5".toList := Token.noDigit_cons rfl ['5']
  have hletter : Token.NoDigit "x".toList := Token.noDigit_cons rfl []
  obtain ⟨-, hitems, -, hselection⟩ :=
    blanks_never_matter "7,0" " \u2003" "-5" (Token.apart_of_noDigit _ hhyphen) hgap
  obtain ⟨-, -, hrefused, -⟩ :=
    blanks_never_matter "7" " \u2003" "x" (Token.apart_of_noDigit _ hletter) hgap
  obtain ⟨-, -, hend, -⟩ :=
    blanks_never_matter "7-" " \u2003" "" (Token.apart_of_noDigit _ Token.noDigit_nil) hgap
  exact ⟨hselection, hitems [⟨⟨7, 7⟩, ⟨0, 1⟩⟩, ⟨⟨0, 5⟩, ⟨2, 5⟩⟩] rfl,
    hrefused ⟨.unexpected .commaOrEnd (.unexpected 'x'), ⟨1, 2⟩⟩ rfl,
    hend ⟨.endOfText, ⟨2, 2⟩⟩ rfl⟩

end PageSelection
