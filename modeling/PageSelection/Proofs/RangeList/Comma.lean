import PageSelection.Proofs.RangeList.Grammar
import PageSelection.Proofs.RangeList.LeftmostError
import PageSelection.Proofs.RangeList.Relocation

/-!
# Two lists and a comma between them

A comma is a token wherever it stands, so that a text with a comma in it has the tokens of the part
in front, the comma, and the tokens of the part behind, further on. What comes of the text depends
on the phase in which the comma is met.

* Where an item may end, the comma completes it, and the part behind is read from the phase `comma`.
  This is the phase `start` but for one thing: an item has to follow. So the part behind is read as
  it is by itself, unless it is blank (`run_comma_behind`).
* Where a number has to follow, the comma is refused. The part in front is then blank or lacks a
  number at its end (`exists_reaches_awaitsNumber`).
* A part in front that is refused for any other reason is refused before the comma is met
  (`parse_append_of_error`).
-/

namespace PageSelection.RangeList

open Grammar Text

/-! ### The part in front of the comma -/

/-- A list of at least one item is read to a phase that holds its last one. -/
theorem exists_reaches_holds {cs : List Char} {items : List Item} (hblank : ¬ Blanks cs)
    (h : parse (String.ofList cs) = .ok items) :
    ∃ done next item, Phase.Reaches cs .start (Token.scan none 0 cs) done next ∧
      next.Holds item ∧ items = done ++ [item] := by
  unfold parse Token.ofText at h
  rw [String.toList_ofList] at h
  obtain ⟨done, next, last, hreach, hfinish, rfl⟩ := Phase.exists_reaches_of_run_ok h
  cases next with
  | start => exact absurd (Token.scan_eq_nil_iff.mp hreach.eq_nil_of_start.1) hblank
  | comma => cases hfinish
  | number item => cases hfinish; exact ⟨done, _, item, hreach, .number, rfl⟩
  | separator low => cases hfinish
  | range item => cases hfinish; exact ⟨done, _, item, hreach, .range, rfl⟩

/-- A text that is blank, or lacks a number at its end, is read to a phase that awaits one. -/
theorem exists_reaches_awaitsNumber {cs : List Char}
    (h : Blanks cs ∨ ∃ span, parse (String.ofList cs) = .error ⟨.endOfText, span⟩) :
    ∃ done next, Phase.Reaches cs .start (Token.scan none 0 cs) done next ∧
      next.AwaitsNumber := by
  rcases h with hblank | ⟨span, h⟩
  · rw [Token.scan_eq_nil_iff.mpr hblank]
    exact ⟨[], .start, .refl, .item .start⟩
  · have hstops := stops_of_parse_error h
    rw [String.toList_ofList] at hstops
    generalize he : (⟨.endOfText, span⟩ : Error) = e at hstops
    cases hstops with
    | atToken _ _ _ _ _ _ hrefuses =>
      cases he
      exact absurd rfl hrefuses.ne_endOfText
    | atEnd hreach hnext _ => exact ⟨_, _, hreach, hnext⟩

/-- A refused token is refused whatever stands behind the part in which it is. -/
theorem parse_append_of_error {cs rest : List Char} {e : Error} (hrest : Token.NoDigit rest)
    (h : parse (String.ofList cs) = .error e) (hfault : e.fault ≠ .endOfText) :
    parse (String.ofList (cs ++ rest)) = .error e := by
  unfold parse Token.ofText at h ⊢
  rw [String.toList_ofList] at h ⊢
  have hstop : ∀ token ∈ Token.scan none 0 cs, token.DigitsEndBy (byteLength cs) := by
    intro token htoken
    have hle := Token.digitsEndBy_of_mem_scan htoken
    rwa [Nat.zero_add] at hle
  rw [Token.scan_append (Token.apart_of_noDigit cs hrest)]
  rcases Phase.exists_reaches_of_run_error h with
    ⟨first, token, more, items, next, htokens, hreach, hadvance⟩ | ⟨items, next, -, hfinish⟩
  · -- the tokens in front are taken in the longer text as well, and then this one is refused
    rw [htokens] at hstop ⊢
    obtain ⟨fault, hrefuses, rfl⟩ := Phase.advance_eq_error_iff.mp hadvance
    rw [← List.append_nil cs] at hreach hrefuses
    have hreach' := hreach.congr_text
      (fun token htoken => hstop token (List.mem_append_left _ htoken)) rest
    have hrefuses' := hrefuses.congr_text
      (hstop token (List.mem_append_right _ List.mem_cons_self)) rest
    rw [List.append_assoc, Phase.run_append hreach', List.cons_append, Phase.run,
      Phase.advance_eq_error_iff.mpr ⟨fault, hrefuses', rfl⟩]
    rfl
  · obtain ⟨-, -, rfl⟩ := Phase.finish_eq_error_iff.mp hfinish
    exact absurd rfl hfault

/-! ### The part behind the comma -/

/-- With a token to follow, it makes no difference whether anything stands in front of it. -/
theorem run_comma_eq_run_start {text : List Char} {tokens : List Token} (hne : tokens ≠ []) :
    Phase.comma.run text tokens = Phase.start.run text tokens := by
  obtain ⟨⟨kind, span⟩, tokens, rfl⟩ := List.exists_cons_of_ne_nil hne
  cases kind <;> rfl

/-- A blank text is the empty list. -/
theorem parse_of_blanks {cs : List Char} (hblank : Blanks cs) :
    parse (String.ofList cs) = .ok [] := by
  unfold parse Token.ofText
  rw [String.toList_ofList, Token.scan_eq_nil_iff.mpr hblank]
  rfl

/-- The end of the text is reported at the end of the text. -/
theorem span_of_endOfText {text : String} {e : Error} (h : parse text = .error e)
    (hfault : e.fault = .endOfText) : e.span = .point (byteLength text.toList) := by
  cases stops_of_parse_error h with
  | atToken _ _ _ _ _ _ hrefuses => exact absurd hfault hrefuses.ne_endOfText
  | atEnd _ _ _ => rfl

/-- An error behind another text is the same error, further on. -/
theorem relocate_shift_of_parse_error {cs : List Char} {e : Error}
    (h : parse (String.ofList cs) = .error e) (length : Nat) :
    e.relocate (.shift length) (byteLength cs + length) =
      ⟨e.fault.relocate (.shift length), e.span.relocate (.shift length)⟩ := by
  unfold Error.relocate
  split
  · next hfault =>
    rw [span_of_endOfText h hfault, String.toList_ofList, hfault]
    rfl
  · rfl

/-- **Behind a comma.** Text that is not blank is read there as it is by itself, further on. -/
theorem run_comma_behind {before cs : List Char} (hblank : ¬ Blanks cs) :
    Phase.comma.run (before ++ cs) (Token.scan none (byteLength before) cs) =
      relocated (.shift (byteLength before)) (byteLength cs + byteLength before)
        (parse (String.ofList cs)) := by
  have hne : Token.scan none 0 cs ≠ [] := fun hnil => hblank (Token.scan_eq_nil_iff.mp hnil)
  have hrun := Phase.run_relocate (fun token (_ : token ∈ Token.scan none 0 cs) =>
    Token.carries_shift before cs token) .comma
  rw [run_comma_eq_run_start hne, byteLength_append, Nat.add_comm] at hrun
  unfold parse Token.ofText
  rw [String.toList_ofList, Token.scan_behind]
  exact hrun

/-! ### Both parts -/

/-- **Up to the comma,** a text is read as if it ended there. -/
theorem parse_comma {cs : List Char} {done : List Item} {next : Phase}
    (hreach : Phase.Reaches cs .start (Token.scan none 0 cs) done next) (ds : List Char) :
    parse (String.ofList (cs ++ ',' :: ds)) =
      (next.run (cs ++ ',' :: ds) (⟨.comma, ⟨byteLength cs, byteLength cs + 1⟩⟩ ::
        Token.scan none (byteLength (cs ++ [','])) ds)).map (done ++ ·) := by
  have hreach' : Phase.Reaches (cs ++ []) .start (Token.scan none 0 cs) done next := by
    rwa [List.append_nil]
  rw [parse_append hreach' (Token.apart_of_noDigit cs (Token.noDigit_cons rfl ds)),
    Token.scan_mark Token.Kind.ofChar?_comma, byteLength_append]
  rfl

/-- Behind a list of at least one item, the comma completes the last one. -/
theorem parse_comma_of_ok {cs : List Char} {items : List Item} (hblank : ¬ Blanks cs)
    (h : parse (String.ofList cs) = .ok items) (ds : List Char) :
    parse (String.ofList (cs ++ ',' :: ds)) =
      (Phase.comma.run (cs ++ [','] ++ ds) (Token.scan none (byteLength (cs ++ [','])) ds)).map
        (items ++ ·) := by
  obtain ⟨done, next, item, hreach, hnext, rfl⟩ := exists_reaches_holds hblank h
  rw [parse_comma hreach, Phase.run, Phase.advance_eq_ok_iff.mpr (.completes hnext),
    ← List.append_cons cs ',' ds]
  show Except.map _ (Phase.run _ Phase.comma _ >>= fun items => Except.ok (item :: items)) = _
  cases Phase.run (cs ++ ',' :: ds) .comma (Token.scan none (byteLength (cs ++ [','])) ds) with
  | error e => rfl
  | ok items => exact congrArg Except.ok (List.append_cons done item items)

/-- Nothing but blanks behind the comma leaves it without an item. -/
theorem run_comma_blanks {text ds : List Char} (hblank : Blanks ds) (pos : Nat) :
    Phase.comma.run text (Token.scan none pos ds) =
      .error ⟨.endOfText, .point (byteLength text)⟩ := by
  rw [Token.scan_eq_nil_iff.mpr hblank]
  rfl

/-- Where a number has to follow, the comma is refused. -/
theorem parse_comma_of_awaitsNumber {cs : List Char}
    (h : Blanks cs ∨ ∃ span, parse (String.ofList cs) = .error ⟨.endOfText, span⟩)
    (ds : List Char) :
    parse (String.ofList (cs ++ ',' :: ds)) =
      .error ⟨.unexpected .number .comma, ⟨byteLength cs, byteLength cs + 1⟩⟩ := by
  obtain ⟨done, next, hreach, hnext⟩ := exists_reaches_awaitsNumber h
  have hrefuses : next.Refuses (cs ++ ',' :: ds)
      ⟨.comma, ⟨byteLength cs, byteLength cs + 1⟩⟩ (.unexpected .number .comma) :=
    .noNumber hnext nofun
  rw [parse_comma hreach, Phase.run, Phase.advance_eq_error_iff.mpr ⟨_, hrefuses, rfl⟩]
  rfl

/-- **Parsing composes over commas.** Behind a list of at least one item, what follows the comma is
read as it is by itself, further on, and so is an error of it with the digits that it mentions; only
a blank rest lacks an item there. A part in front that is blank, or lacks a number at its end, has
the comma refused. Any other error of the part in front is the error of the whole. -/
theorem parse_composes (a b : String) :
    (∀ items, parse a = .ok items → ¬ Blanks a.toList →
      (∀ more, parse b = .ok more → ¬ Blanks b.toList →
        parse (a ++ "," ++ b) =
          .ok (items ++ more.map (Item.relocate (.shift (a.utf8ByteSize + 1))))) ∧
      (∀ e, parse b = .error e →
        parse (a ++ "," ++ b) =
          .error ⟨e.fault.relocate (.shift (a.utf8ByteSize + 1)),
            e.span.relocate (.shift (a.utf8ByteSize + 1))⟩) ∧
      (Blanks b.toList →
        parse (a ++ "," ++ b) = .error ⟨.endOfText, .point (a ++ "," ++ b).utf8ByteSize⟩)) ∧
    ((Blanks a.toList ∨ ∃ span, parse a = .error ⟨.endOfText, span⟩) →
      parse (a ++ "," ++ b) =
        .error ⟨.unexpected .number .comma, ⟨a.utf8ByteSize, a.utf8ByteSize + 1⟩⟩) ∧
    ∀ e, parse a = .error e → e.fault ≠ .endOfText → parse (a ++ "," ++ b) = .error e := by
  obtain ⟨cs, rfl⟩ : ∃ cs, a = String.ofList cs := ⟨a.toList, String.ofList_toList.symm⟩
  obtain ⟨ds, rfl⟩ : ∃ ds, b = String.ofList ds := ⟨b.toList, String.ofList_toList.symm⟩
  have hjoined : String.ofList cs ++ "," ++ String.ofList ds = String.ofList (cs ++ ',' :: ds) := by
    rw [List.append_cons, String.ofList_append, String.ofList_append]
  have hlength : (String.ofList cs).utf8ByteSize + 1 = byteLength (cs ++ [',']) := by
    rw [utf8ByteSize_ofList, byteLength_append]
    rfl
  rw [hjoined, hlength]
  simp only [String.toList_ofList, utf8ByteSize_ofList]
  refine ⟨fun items ha hblank => ⟨fun more hb hblank' => ?_, fun e hb => ?_, fun hblank' => ?_⟩,
    fun ha => ?_, fun e ha hfault => ?_⟩
  · rw [parse_comma_of_ok hblank ha, run_comma_behind hblank', hb]
    rfl
  · have hblank' : ¬ Blanks ds := by
      intro hblank'
      rw [parse_of_blanks hblank'] at hb
      cases hb
    rw [parse_comma_of_ok hblank ha, run_comma_behind hblank', hb, relocated,
      relocate_shift_of_parse_error hb]
    rfl
  · rw [parse_comma_of_ok hblank ha, run_comma_blanks hblank', ← List.append_cons]
    rfl
  · rw [byteLength_append]
    exact parse_comma_of_awaitsNumber ha ds
  · exact parse_append_of_error (Token.noDigit_cons rfl ds) ha hfault

/-- All six combinations, at an item, a blank text, a text that lacks a number and one that is
refused at its second token. -/
theorem parse_composes_at_short_texts :
    parse "1-3, 2" = .ok [⟨⟨1, 3⟩, ⟨0, 3⟩⟩, ⟨⟨2, 2⟩, ⟨5, 6⟩⟩] ∧
      parse "1-3,4 5" = .error ⟨.unexpected .commaOrEnd (.number ⟨6, 7⟩), ⟨6, 7⟩⟩ ∧
      parse "1-3, " = .error ⟨.endOfText, ⟨5, 5⟩⟩ ∧
      parse " , 2" = .error ⟨.unexpected .number .comma, ⟨1, 2⟩⟩ ∧
      parse "1-, 2" = .error ⟨.unexpected .number .comma, ⟨2, 3⟩⟩ ∧
      parse "4 5, 2" = .error ⟨.unexpected .commaOrEnd (.number ⟨2, 3⟩), ⟨2, 3⟩⟩ := by
  have hfront : parse "1-3" = .ok [⟨⟨1, 3⟩, ⟨0, 3⟩⟩] := rfl
  have hrefused : parse "4 5" = .error ⟨.unexpected .commaOrEnd (.number ⟨2, 3⟩), ⟨2, 3⟩⟩ := rfl
  have hnotBlank : ¬ Blanks "1-3".toList := fun h => absurd (h '1' List.mem_cons_self) (by decide)
  have hnotBlank' : ¬ Blanks " 2".toList :=
    fun h => absurd (h '2' (List.mem_cons_of_mem _ List.mem_cons_self)) (by decide)
  have hblank : Blanks " ".toList := blanks_nil.cons (by decide)
  refine ⟨?_, ?_, ?_, ?_, ?_, ?_⟩
  · exact ((parse_composes "1-3" " 2").1 _ hfront hnotBlank).1 _ rfl hnotBlank'
  · exact ((parse_composes "1-3" "4 5").1 _ hfront hnotBlank).2.1 _ hrefused
  · exact ((parse_composes "1-3" " ").1 _ hfront hnotBlank).2.2 hblank
  · exact (parse_composes " " " 2").2.1 (.inl hblank)
  · exact (parse_composes "1-" " 2").2.1 (.inr ⟨⟨2, 2⟩, rfl⟩)
  · exact (parse_composes "4 5" " 2").2.2 _ hrefused nofun

end PageSelection.RangeList
