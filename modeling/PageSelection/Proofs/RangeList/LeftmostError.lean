import PageSelection.Proofs.RangeList.Reach

/-!
# Errors stand as far to the left as they can

A text is refused at the first place where it can no longer become a range list, and not later.

* In front of that place nothing is wrong yet: the part before it is a range list, or it lacks a
  number, and the single digit `0` supplies one (`completable_of_reaches`). A digit can be put there
  since a phase that awaits a number is never reached by a digit (`apart_of_awaitsNumber`).
* Behind it nothing helps: the refused token is refused again, for the same reason, whatever stands
  behind it (`not_accepted_of_refuses`). The only token that can change is a number; it becomes
  longer, and its value no smaller.

So the end of the text is reported just for those texts that can still be completed.
-/

namespace PageSelection.RangeList

open Text

/-- The text is a range list. -/
def Accepted (text : String) : Prop := ∃ items, parse text = .ok items

/-- The text can be completed to a range list, by one byte at most. -/
def Completable (text : String) : Prop :=
  ∃ suffix : String, suffix.utf8ByteSize ≤ 1 ∧ Accepted (text ++ suffix)

/-! ### Texts that begin with what has been read -/

/-- **Going on with another text.** What has been read of one text is read of any other that begins
alike, and the rest of that one decides. -/
theorem parse_append {before rest rest' : List Char} {items : List Item} {next : Phase}
    (hreach : Phase.Reaches (before ++ rest) .start (Token.scan none 0 before) items next)
    (hapart : Token.Apart before rest') :
    parse (String.ofList (before ++ rest')) =
      (next.run (before ++ rest') (Token.scan none (byteLength before) rest')).map
        (items ++ ·) := by
  have hreach' := hreach.congr_text (fun token htoken => ?_) rest'
  · unfold parse Token.ofText
    rw [String.toList_ofList, Token.scan_append hapart, Nat.zero_add]
    exact Phase.run_append hreach' _
  · rw [← Nat.zero_add (byteLength before)]
    exact Token.digitsEndBy_of_mem_scan htoken

/-- Where a number has to follow, no number stands right before. -/
theorem apart_of_awaitsNumber {text before : List Char} {items : List Item} {next : Phase}
    (hreach : Phase.Reaches text .start (Token.scan none 0 before) items next)
    (hnext : next.AwaitsNumber) (after : List Char) : Token.Apart before after := by
  intro d hd _ _ hdigits
  obtain ⟨init, rfl⟩ := List.getLast?_eq_some_iff.mp hd
  -- the last token would be a number, and a number leads to a phase that holds an item
  obtain ⟨tokens, digits, hscan⟩ := Token.exists_scan_concat_digit hdigits.1 none 0 init
  rw [hscan] at hreach
  obtain ⟨phase, out, hlast⟩ := hreach.exists_last
  cases hlast with
  | opens _ _ => exact hnext.not_holds _ .number
  | closes _ => exact hnext.not_holds _ .range

/-- Read to its end, a text makes a list with at least one item just when its last phase holds
one. -/
theorem exists_parse_ne_nil_iff {before rest : List Char} {items : List Item} {next : Phase}
    (hreach : Phase.Reaches (before ++ rest) .start (Token.scan none 0 before) items next) :
    (∃ all, parse (String.ofList before) = .ok all ∧ all ≠ []) ↔ ∃ item, next.Holds item := by
  have hparse := parse_append hreach (Token.apart_of_noDigit before Token.noDigit_nil)
  rw [List.append_nil] at hparse
  change _ = (next.run before []).map (items ++ ·) at hparse
  rw [hparse]
  rcases next.awaitsNumber_or_holds with hnext | ⟨item, hnext⟩
  · refine ⟨?_, fun ⟨item, hitem⟩ => absurd hitem (hnext.not_holds item)⟩
    rintro ⟨all, hall, hne⟩
    -- only the start can be followed by the end of the text, and nothing has been read there
    cases hnext with
    | item hnext =>
      cases hnext with
      | start =>
        obtain ⟨-, rfl⟩ := hreach.eq_nil_of_start
        cases hall
        exact absurd rfl hne
      | comma => cases hall
    | upper => cases hall
  · refine ⟨fun _ => ⟨item, hnext⟩, fun _ => ⟨items ++ [item], ?_, by simp⟩⟩
    rw [Phase.run_nil_eq_ok_iff.mpr (.inr ⟨item, hnext, rfl⟩)]
    rfl

/-! ### Nothing is wrong before the error -/

/-- The digit `0` is a number wherever one has to follow. -/
theorem exists_run_zero (before : List Char) {next : Phase} (hnext : next.AwaitsNumber) :
    ∃ item,
      next.run (before ++ ['0']) (Token.scan none (byteLength before) ['0']) = .ok [item] := by
  have hdigit : ∀ d ∈ ['0'], d.isDigit = true := List.forall_mem_singleton.mpr rfl
  have hvalue : ∀ span, Phase.value (before ++ (['0'] ++ []))
      ⟨byteLength before, byteLength before + byteLength ['0']⟩ span = .ok 0 :=
    fun _ => (Phase.value_digits hdigit).mpr rfl
  have hscan := Token.scan_number (List.cons_ne_nil '0' []) hdigit Token.noDigit_nil
    (byteLength before)
  rw [List.append_nil] at hvalue hscan
  rw [hscan]
  cases hnext with
  | item hphase =>
    exact ⟨_, Phase.run_cons_of_none (.opens hphase (hvalue _))
      (Phase.run_nil_eq_ok_iff.mpr (.inr ⟨_, .number, rfl⟩))⟩
  | upper =>
    exact ⟨_, Phase.run_cons_of_none (.closes (hvalue _))
      (Phase.run_nil_eq_ok_iff.mpr (.inr ⟨_, .range, rfl⟩))⟩

/-- **What has been read can be completed,** by one byte if not by nothing. -/
theorem completable_of_reaches {before rest : List Char} {items : List Item} {next : Phase}
    (hreach : Phase.Reaches (before ++ rest) .start (Token.scan none 0 before) items next) :
    Completable (String.ofList before) := by
  rcases next.awaitsNumber_or_holds with hnext | hnext
  · obtain ⟨item, hrun⟩ := exists_run_zero before hnext
    refine ⟨"0", by decide, items ++ [item], ?_⟩
    have hzero : String.ofList before ++ "0" = String.ofList (before ++ ['0']) := by
      rw [String.ofList_append]
    rw [hzero, parse_append hreach (apart_of_awaitsNumber hreach hnext ['0']), hrun]
    rfl
  · obtain ⟨all, hall, -⟩ := (exists_parse_ne_nil_iff hreach).mpr hnext
    refine ⟨"", Nat.zero_le 1, all, ?_⟩
    rw [String.append_empty]
    exact hall

/-! ### Nothing helps behind the error -/

/-- More digits make no smaller number. -/
theorem le_ofDigitChars (n : Nat) (ds : List Char) : n ≤ Nat.ofDigitChars 10 ds n := by
  induction ds generalizing n with
  | nil => exact Nat.le_refl n
  | cons d ds ih =>
    rw [Nat.ofDigitChars_cons]
    calc n ≤ 10 * n := Nat.le_mul_of_pos_left n (by decide)
      _ ≤ 10 * n + (d.toNat - '0'.toNat) := Nat.le_add_right _ _
      _ ≤ _ := ih _

/-- A number is too large just when its decimal value is. -/
theorem forall_value_ne_iff {before ds after : List Char} (h : ∀ d ∈ ds, d.isDigit = true)
    {span : Span} :
    (∀ value, Phase.value (before ++ (ds ++ after))
        ⟨byteLength before, byteLength before + byteLength ds⟩ span ≠ .ok value) ↔
      2147483647 < Nat.ofDigitChars 10 ds 0 := by
  simp only [ne_eq, Phase.value_digits h]
  rw [← not_exists, exists_toInt_eq_natCast_iff, Nat.not_le]

/-- A number that is refused stays refused when it becomes longer. -/
theorem exists_refuses_of_longer {before ds more after : List Char} {next : Phase} {fault : Fault}
    (hdigits : ∀ d ∈ ds, d.isDigit = true) (hmore : ∀ d ∈ ds ++ more, d.isDigit = true)
    (h : next.Refuses (before ++ (ds ++ after))
      (.ofDigits ⟨byteLength before, byteLength before + byteLength ds⟩) fault)
    (rest : List Char) :
    ∃ fault', next.Refuses (before ++ (ds ++ more ++ rest))
      (.ofDigits ⟨byteLength before, byteLength before + byteLength (ds ++ more)⟩) fault' := by
  cases h with
  | overflow hnext hvalue =>
    refine ⟨_, .overflow hnext ?_⟩
    -- the number was too large, and more digits only make it larger
    rw [forall_value_ne_iff hdigits] at hvalue
    rw [forall_value_ne_iff hmore, Nat.ofDigitChars_append]
    exact Nat.lt_of_lt_of_le hvalue (le_ofDigitChars _ more)
  | noNumber _ hkind => exact absurd rfl (hkind _)
  | noComma hnext _ _ => exact ⟨_, .noComma hnext nofun nofun⟩

/-- **A refused token stays refused,** whatever stands behind it. -/
theorem not_accepted_of_refuses {before own after : List Char} {items : List Item} {next : Phase}
    {token : Token} {fault : Fault}
    (hreach : Phase.Reaches (before ++ (own ++ after)) .start (Token.scan none 0 before) items next)
    (hown : token.Spells own) (hapart : Token.Apart before own)
    (hspan : token.span = ⟨byteLength before, byteLength before + byteLength own⟩)
    (hrefuses : next.Refuses (before ++ (own ++ after)) token fault)
    (suffix : List Char) : ¬ Accepted (String.ofList (before ++ (own ++ suffix))) := by
  -- the token may be a longer one with the suffix behind it, but it is refused again
  have hfirst : ∃ token' rest fault',
      Token.scan none (byteLength before) (own ++ suffix) = token' :: rest ∧
        next.Refuses (before ++ (own ++ suffix)) token' fault' := by
    cases hown with
    | @number digits _ hne hdigits =>
      obtain rfl : digits = _ := hspan
      obtain ⟨more, rest, rfl, hmore, hscan⟩ :=
        Token.exists_scan_of_digits hne hdigits (byteLength before) suffix
      obtain ⟨fault', hrefuses'⟩ := exists_refuses_of_longer hdigits hmore hrefuses rest
      rw [List.append_assoc] at hrefuses'
      exact ⟨_, _, fault', hscan, hrefuses'⟩
    | @mark c kind span hkind =>
      obtain rfl : span = _ := hspan
      refine ⟨_, _, fault, Token.scan_mark hkind _ suffix, hrefuses.congr_text ?_ _⟩
      exact fun digits hnumber => absurd (hkind.trans (congrArg some hnumber))
        (Token.Kind.ofChar?_ne_number c digits)
  obtain ⟨token', rest, fault', hscan, hrefuses'⟩ := hfirst
  rintro ⟨all, hparse⟩
  rw [parse_append hreach (hapart.append_right hown.ne_nil _), hscan, Phase.run,
    Phase.advance_eq_error_iff.mpr ⟨fault', hrefuses', rfl⟩] at hparse
  cases hparse

/-! ### The place of an error and its kind -/

/-- A comma is missed just behind an item. -/
theorem exists_eq_commaOrEnd_iff {text : List Char} {next : Phase} {token : Token} {fault : Fault}
    (h : next.Refuses text token fault) :
    (∃ found, fault = .unexpected .commaOrEnd found) ↔ ∃ item, next.Holds item := by
  cases h with
  | overflow hnext _ => exact ⟨nofun, fun ⟨item, hitem⟩ => absurd hitem (hnext.not_holds item)⟩
  | noNumber hnext _ => exact ⟨nofun, fun ⟨item, hitem⟩ => absurd hitem (hnext.not_holds item)⟩
  | noComma hnext _ _ => exact ⟨fun _ => ⟨_, hnext⟩, fun _ => ⟨_, rfl⟩⟩

/-- What a refused token is blamed for. -/
theorem fault_of_refuses {before own after : List Char} {next : Phase} {token : Token}
    {fault : Fault} (hown : token.Spells own)
    (hspan : token.span = ⟨byteLength before, byteLength before + byteLength own⟩)
    (h : next.Refuses (before ++ (own ++ after)) token fault) :
    fault = .unexpected .commaOrEnd token.kind ∨
      fault = .overflow ∧ token.kind = .number token.span ∧
        2147483647 < Nat.ofDigitChars 10 own 0 ∨
      fault = .unexpected .number token.kind ∧ ∀ digits, token.kind ≠ .number digits := by
  cases h with
  | @overflow digits span _ hvalue =>
    obtain ⟨rfl, -, hdigits⟩ := hown.of_number
    rw [show digits = _ from hspan, forall_value_ne_iff hdigits] at hvalue
    exact .inr (.inl ⟨rfl, rfl, hvalue⟩)
  | noNumber _ hkind => exact .inr (.inr ⟨rfl, hkind⟩)
  | noComma _ _ _ => exact .inl rfl

/-- **A leftmost error.** The error `e` divides its text into what precedes it, what it stands at,
and what follows, and nothing is wrong before it. -/
structure Leftmost (text : String) (e : Error) (before own after : String) : Prop where
  /-- The parts are those of the text. -/
  text_eq : text = before ++ own ++ after
  /-- The error stands at the part in the middle. -/
  span_eq : e.span = ⟨before.utf8ByteSize, before.utf8ByteSize + own.utf8ByteSize⟩
  /-- What precedes the error can be completed. -/
  completable : Completable before
  /-- With what the error stands at, nothing can be completed any more. -/
  refused : e.span.start < e.span.stop → ∀ suffix, ¬ Accepted (before ++ own ++ suffix)
  /-- The end of the text is the only error that stands at nothing. -/
  empty_iff : e.span.start = e.span.stop ↔ e.fault = .endOfText
  /-- It stands at the end of the text. -/
  end_span : e.fault = .endOfText → e.span = .point text.utf8ByteSize
  /-- A text with this error can be completed. -/
  end_completable : e.fault = .endOfText → Completable text
  /-- Every text that can be completed, but is no range list, has this error. -/
  end_of_accepted : ∀ suffix, Accepted (text ++ suffix) → e.fault = .endOfText
  /-- A comma is missed just where a list with an item precedes the error. -/
  comma_iff : (∃ found, e.fault = .unexpected .commaOrEnd found) ↔
    (∃ items, parse before = .ok items ∧ items ≠ []) ∧ e.span.start < e.span.stop
  /-- An error that stands at something stands at a token. If no comma is missed, this is a number
  that is too large, or something else in the place of a number. -/
  token : e.span.start < e.span.stop → ∃ kind, ⟨kind, e.span⟩ ∈ Token.ofText text ∧
    (e.fault = .unexpected .commaOrEnd kind ∨
      e.fault = .overflow ∧ kind = .number e.span ∧
        2147483647 < Nat.ofDigitChars 10 own.toList 0 ∨
      e.fault = .unexpected .number kind ∧ ∀ digits, kind ≠ .number digits)
  /-- If a number is found where none can stand, its digits are what the error stands at. -/
  found_digits : ∀ expected digits, e.fault = .unexpected expected (.number digits) →
    digits = e.span

/-- An error at a token is leftmost. -/
theorem leftmost_of_refuses {before own after : List Char} {items : List Item} {next : Phase}
    {token : Token} {fault : Fault}
    (hreach : Phase.Reaches (before ++ (own ++ after)) .start (Token.scan none 0 before) items next)
    (hown : token.Spells own) (hapart : Token.Apart before own)
    (hspan : token.span = ⟨byteLength before, byteLength before + byteLength own⟩)
    (htoken : token ∈ Token.scan none 0 (before ++ (own ++ after)))
    (hrefuses : next.Refuses (before ++ (own ++ after)) token fault) :
    Leftmost (String.ofList (before ++ (own ++ after))) ⟨fault, token.span⟩ (String.ofList before)
      (String.ofList own) (String.ofList after) := by
  have hlt : token.span.start < token.span.stop := by
    rw [hspan]
    exact Nat.lt_add_of_pos_right (byteLength_pos hown.ne_nil)
  have htext : String.ofList (before ++ (own ++ after)) =
      String.ofList before ++ String.ofList own ++ String.ofList after := by
    rw [String.ofList_append, String.ofList_append, String.append_assoc]
  have hfault := fault_of_refuses hown hspan hrefuses
  have hend : fault ≠ .endOfText := hrefuses.ne_endOfText
  have hnever : ∀ suffix : String,
      ¬ Accepted (String.ofList before ++ String.ofList own ++ suffix) := by
    intro suffix
    have hsuffix := not_accepted_of_refuses hreach hown hapart hspan hrefuses suffix.toList
    rw [String.ofList_append, String.ofList_append, String.ofList_toList,
      ← String.append_assoc] at hsuffix
    exact hsuffix
  exact {
    text_eq := htext
    span_eq := by rw [utf8ByteSize_ofList, utf8ByteSize_ofList]; exact hspan
    completable := completable_of_reaches hreach
    refused := fun _ => hnever
    empty_iff := ⟨fun heq => absurd heq (Nat.ne_of_lt hlt), fun heq => absurd heq hend⟩
    end_span := fun heq => absurd heq hend
    end_completable := fun heq => absurd heq hend
    end_of_accepted := by
      intro suffix hsuffix
      rw [htext, String.append_assoc] at hsuffix
      exact absurd hsuffix (hnever _)
    comma_iff := by
      -- a comma is missed where the phase holds an item, and there a list can end
      rw [exists_eq_commaOrEnd_iff hrefuses, exists_parse_ne_nil_iff hreach]
      exact ⟨fun hnext => ⟨hnext, hlt⟩, And.left⟩
    token := by
      refine fun _ => ⟨token.kind, ?_, ?_⟩
      · unfold Token.ofText
        rw [String.toList_ofList]
        exact htoken
      · rw [String.toList_ofList]
        exact hfault
    found_digits := by
      rintro expected digits (rfl : fault = _)
      obtain ⟨kind, span⟩ := token
      have hkind : kind = .number digits := by
        rcases hfault with hfault | ⟨hfault, -, -⟩ | ⟨hfault, -⟩ <;> cases hfault <;> rfl
      obtain rfl := hkind
      exact hown.of_number.1 }

/-- The error at the end of a text is leftmost. -/
theorem leftmost_of_awaitsNumber {cs : List Char} {items : List Item} {next : Phase}
    (hreach : Phase.Reaches cs .start (Token.scan none 0 cs) items next) :
    Leftmost (String.ofList cs) ⟨.endOfText, .point (byteLength cs)⟩ (String.ofList cs) "" "" := by
  have hall : Phase.Reaches (cs ++ []) .start (Token.scan none 0 cs) items next := by
    rw [List.append_nil]
    exact hreach
  have hcompletable := completable_of_reaches hall
  have hsize : byteLength cs = (String.ofList cs).utf8ByteSize := (utf8ByteSize_ofList cs).symm
  exact {
    text_eq := by rw [String.append_empty, String.append_empty]
    span_eq := by rw [hsize]; rfl
    completable := hcompletable
    refused := fun hlt => absurd hlt (Nat.lt_irrefl _)
    empty_iff := ⟨fun _ => rfl, fun _ => rfl⟩
    end_span := fun _ => by rw [hsize]
    end_completable := fun _ => hcompletable
    end_of_accepted := fun _ _ => rfl
    comma_iff := ⟨nofun, fun ⟨_, hlt⟩ => absurd hlt (Nat.lt_irrefl _)⟩
    token := fun hlt => absurd hlt (Nat.lt_irrefl _)
    found_digits := nofun }

/-- **Errors are leftmost.** What precedes an error can be completed to a range list, by one byte
at most. With what the error stands at, nothing can be completed any more, unless it stands at the
end of the text, and then the whole text can be completed. -/
theorem error_leftmost {text : String} {e : Error} (h : parse text = .error e) :
    ∃ before own after : String, Leftmost text e before own after := by
  have hstops := stops_of_parse_error h
  obtain ⟨cs, rfl⟩ : ∃ cs, text = String.ofList cs := ⟨text.toList, String.ofList_toList.symm⟩
  rw [String.toList_ofList] at hstops
  cases hstops with
  | atToken htext hreach hown hapart hspan htoken hrefuses =>
    subst htext
    exact ⟨_, _, _, leftmost_of_refuses hreach hown hapart hspan htoken hrefuses⟩
  | atEnd hreach _ _ => exact ⟨_, _, _, leftmost_of_awaitsNumber hreach⟩

/-- Behind the full range `1-2` there is no use for a second separator, whatever follows it; behind
a single separator, and a blank of three bytes, only a number is missing. -/
theorem completable_unless_refused :
    (parse "1-2-3" = .error ⟨.unexpected .commaOrEnd (.separator .hyphen), ⟨3, 4⟩⟩ ∧
      ∀ suffix, ¬ Accepted ("1-2-3" ++ suffix)) ∧
    (parse "7,3-\u2003" = .error ⟨.endOfText, ⟨7, 7⟩⟩ ∧
      Completable "7,3-\u2003") := by
  have hrefused : parse "1-2-3" =
      .error ⟨.unexpected .commaOrEnd (.separator .hyphen), ⟨3, 4⟩⟩ := rfl
  have hended : parse "7,3-\u2003" = .error ⟨.endOfText, ⟨7, 7⟩⟩ := rfl
  refine ⟨⟨hrefused, fun suffix hsuffix => ?_⟩, hended, ?_⟩
  · obtain ⟨before, own, after, hleftmost⟩ := error_leftmost hrefused
    cases hleftmost.end_of_accepted suffix hsuffix
  · obtain ⟨before, own, after, hleftmost⟩ := error_leftmost hended
    exact hleftmost.end_completable rfl

end PageSelection.RangeList
