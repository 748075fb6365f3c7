import PageSelection.Proofs.RangeList.Grammar
import PageSelection.Proofs.RangeList.Phase
import PageSelection.Proofs.Token.Division

/-!
# The reader accepts the grammar

`RangeList.parse` takes the tokens of a text one after another and keeps a phase. This module
relates it to the rules of `RangeList.Grammar`, in both directions.

What the grammar derives is accepted: the blanks, numbers and marks of a derivation are what the
scanner finds, and they lead the reader from phase to phase (`exists_run_of_itemAt`,
`run_of_moreAt`, `run_of_listAt`). A number has to end where the derivation says, which is so
because neither a blank nor a mark is a digit.

What is accepted is derived: `Completes phase pos cs items` says what the rest `cs` of the text has
to look like if it takes the reader from `phase` to the end with the items `items`. Every accepting
run is of this kind, by induction on the division of the rest into tokens (`completes_of_run`).
-/

namespace PageSelection.RangeList

open Grammar Text

variable {text : List Char}

/-! ### Where numbers end -/

theorem noDigit_of_blanks {gap cs : List Char} (hgap : Blanks gap) (hcs : Token.NoDigit cs) :
    Token.NoDigit (gap ++ cs) := by
  cases gap with
  | nil => exact hcs
  | cons c gap =>
    -- a blank is no digit, so that what is behind it does not matter
    have hblank := hgap c List.mem_cons_self
    exact Token.noDigit_cons (by simpa using CharClass.not_isDigit_of_isBlank hblank) _

theorem noDigit_of_mark {c : Char} {kind : Token.Kind} (h : Token.Kind.ofChar? c = some kind)
    (cs : List Char) : Token.NoDigit (c :: cs) :=
  Token.noDigit_cons (Token.Kind.not_isDigit_of_ofChar? h) cs

/-- No item of a list is followed by a digit. -/
theorem noDigit_of_moreAt {pos : Nat} {rest gap : List Char} {items : List Item}
    (hmore : MoreAt pos rest items) (hgap : Blanks gap) : Token.NoDigit (rest ++ gap) := by
  cases hmore with
  | done =>
    rw [List.nil_append, ← List.append_nil gap]
    exact noDigit_of_blanks hgap Token.noDigit_nil
  | comma hgap' _ _ _ =>
    simp only [List.append_assoc]
    exact noDigit_of_blanks hgap' (noDigit_of_mark Token.Kind.ofChar?_comma _)

/-! ### Derived texts are accepted -/

/-- The value of a number of the grammar, where it stands in the text. -/
theorem value_of_number (before after : List Char) {ds : List Char} {value : Int32}
    (hnumber : Number ds value) (span : Span) :
    Phase.value (before ++ (ds ++ after))
        ⟨byteLength before, byteLength before + byteLength ds⟩ span = .ok value :=
  (Phase.value_digits hnumber.digits).mpr hnumber.value_eq

/-- **An item is read.** Where an item may begin, its text leads to a phase that holds it. -/
theorem exists_run_of_itemAt {phase : Phase} (hphase : phase.AwaitsItem)
    {before cs rest : List Char} {item : Item} (hitem : ItemAt (byteLength before) cs item)
    (hrest : Token.NoDigit rest) (htext : text = before ++ (cs ++ rest)) :
    ∃ next : Phase, next.Holds item ∧
      ∀ items, next.run text (Token.scan none (byteLength (before ++ cs)) rest) = .ok items →
        phase.run text (Token.scan none (byteLength before) (cs ++ rest)) = .ok items := by
  subst htext
  cases hitem with
  | single hnumber =>
    -- the number stays open to a separator, so the item is held but not yet completed
    refine ⟨_, .number, fun items hrun => ?_⟩
    rw [byteLength_append] at hrun
    rw [Token.scan_number hnumber.nonempty hnumber.digits hrest]
    exact Phase.run_cons_of_none (.opens hphase (value_of_number before rest hnumber _)) hrun
  | @range lows gap gap' highs low high hlow hgap mark hgap' hhigh =>
    refine ⟨_, .range, fun items hrun => ?_⟩
    have hmark : Token.NoDigit (mark.char :: (gap' ++ (highs ++ rest))) :=
      noDigit_of_mark (Token.Kind.ofChar?_separator mark) _
    have hfirst := value_of_number before (gap ++ mark.char :: (gap' ++ (highs ++ rest))) hlow
    have hsecond := value_of_number (before ++ lows ++ gap ++ [mark.char] ++ gap') rest hhigh
    simp only [List.append_assoc, List.cons_append, List.nil_append, byteLength_append,
      byteLength_cons, ← Nat.add_assoc] at hfirst hsecond hrun ⊢
    -- the lower bound, the separator and the upper bound, each behind its blanks
    rw [Token.scan_number hlow.nonempty hlow.digits (noDigit_of_blanks hgap hmark)]
    refine Phase.run_cons_of_none (.opens hphase (hfirst _)) ?_
    rw [Token.scan_blanks hgap, Token.scan_mark (Token.Kind.ofChar?_separator mark)]
    refine Phase.run_cons_of_none .separates ?_
    rw [Token.scan_blanks hgap', Token.scan_number hhigh.nonempty hhigh.digits hrest]
    exact Phase.run_cons_of_none (.closes (hsecond _)) hrun

/-- **What follows an item is read.** -/
theorem run_of_moreAt {pos : Nat} {rest : List Char} {items : List Item}
    (hmore : MoreAt pos rest items) {gap : List Char} (hgap : Blanks gap) {phase : Phase}
    {item : Item} (hphase : phase.Holds item) {before : List Char}
    (hpos : pos = byteLength before) (htext : text = before ++ (rest ++ gap)) :
    phase.run text (Token.scan none pos (rest ++ gap)) = .ok (item :: items) := by
  induction hmore generalizing phase item before with
  | @done pos =>
    rw [List.nil_append, ← List.append_nil gap, Token.scan_blanks hgap]
    exact Phase.run_nil_eq_ok_iff.mpr (.inr ⟨item, hphase, rfl⟩)
  | @comma pos gap₁ gap₂ cs rest item' items hgap₁ hgap₂ hitem hmore ih =>
    subst hpos
    have htext₁ : text = (before ++ (gap₁ ++ [','] ++ gap₂)) ++ (cs ++ (rest ++ gap)) := by
      rw [htext]
      simp only [List.append_assoc]
    have htext₂ : text = (before ++ (gap₁ ++ [','] ++ gap₂ ++ cs)) ++ (rest ++ gap) := by
      rw [htext₁]
      simp only [List.append_assoc]
    rw [← byteLength_append] at hitem
    obtain ⟨next, hnext, hread⟩ :=
      exists_run_of_itemAt .comma hitem (noDigit_of_moreAt hmore hgap) htext₁
    have hrest := ih hnext (byteLength_append _ _).symm htext₂
    rw [← byteLength_append, ← List.append_assoc before] at hrest
    have hitems := hread _ hrest
    -- in front of the item stand the comma and the blanks around it
    simp only [List.append_assoc, List.cons_append, List.nil_append, byteLength_append,
      byteLength_cons, ← Nat.add_assoc] at hitems ⊢
    rw [Token.scan_blanks hgap₁, Token.scan_mark Token.Kind.ofChar?_comma,
      Token.scan_blanks hgap₂]
    exact Phase.run_cons_eq_ok_iff.mpr ⟨some item, .comma, _, .completes hphase, hitems, rfl⟩

/-- **A derived text is accepted.** -/
theorem run_of_listAt {cs : List Char} {items : List Item} (h : ListAt 0 cs items) :
    Phase.start.run cs (Token.scan none 0 cs) = .ok items := by
  cases h with
  | @empty gap gap' hgap hgap' =>
    have hall : Blanks (gap ++ gap') := fun c hc =>
      (List.mem_append.mp hc).elim (hgap c) (hgap' c)
    -- there is no token, and a list may be empty
    have hscan := Token.scan_blanks hall 0 []
    rw [List.append_nil] at hscan
    rw [hscan]
    exact Phase.run_nil_eq_ok_iff.mpr (.inl ⟨rfl, rfl⟩)
  | @items gap cs rest gap' item items hgap hitem hmore hgap' =>
    have htext₁ : gap ++ cs ++ rest ++ gap' = gap ++ (cs ++ (rest ++ gap')) := by
      simp only [List.append_assoc]
    have htext₂ : gap ++ cs ++ rest ++ gap' = (gap ++ cs) ++ (rest ++ gap') := by
      simp only [List.append_assoc]
    rw [Nat.zero_add] at hitem hmore
    obtain ⟨next, hnext, hread⟩ :=
      exists_run_of_itemAt .start hitem (noDigit_of_moreAt hmore hgap') htext₁
    have hitems := hread _ (run_of_moreAt hmore hgap' hnext rfl htext₂)
    rw [← Nat.zero_add (byteLength gap), ← Token.scan_blanks hgap, ← htext₁] at hitems
    exact hitems

/-! ### Accepted texts are derived -/

/-- What may follow an item: more items, and blanks up to the end of the text. -/
def Tail (pos : Nat) (cs : List Char) (items : List Item) : Prop :=
  ∃ rest gap, cs = rest ++ gap ∧ MoreAt pos rest items ∧ Blanks gap

theorem Tail.nil (pos : Nat) : Tail pos [] [] :=
  ⟨[], [], rfl, .done, blanks_nil⟩

theorem Tail.blank {pos : Nat} {c : Char} {cs : List Char} {items : List Item}
    (hblank : isBlank c = true) (h : Tail (pos + c.utf8Size) cs items) :
    Tail pos (c :: cs) items := by
  obtain ⟨rest, gap, rfl, hmore, hgap⟩ := h
  -- the blank belongs to the gap before the next comma, or to the end of the text
  cases hmore with
  | done => exact ⟨[], c :: gap, rfl, .done, hgap.cons hblank⟩
  | @comma _ gap₁ gap₂ cs' rest item items hgap₁ hgap₂ hitem hmore =>
    refine ⟨(c :: gap₁) ++ [','] ++ gap₂ ++ cs' ++ rest, gap, rfl,
      .comma (hgap₁.cons hblank) hgap₂ ?_ ?_, hgap⟩
    · rw [Nat.add_assoc] at hitem
      exact hitem
    · rw [Nat.add_assoc] at hmore
      exact hmore

/-- `Completes phase pos cs items` describes the texts `cs`, at byte `pos`, that take the reader
from `phase` to the end of a list. The items are those that are completed on the way, with the one
that `phase` holds in front. -/
inductive Completes : Phase → Nat → List Char → List Item → Prop
  /-- There may be no item at all. -/
  | blank {pos : Nat} {gap : List Char} (hgap : Blanks gap) : Completes .start pos gap []
  /-- At the start and after a comma, an item and what may follow it. -/
  | item {phase : Phase} {pos : Nat} {gap cs rest : List Char} {item : Item} {items : List Item}
      (hphase : phase.AwaitsItem) (hgap : Blanks gap)
      (hitem : ItemAt (pos + byteLength gap) cs item)
      (htail : Tail (pos + byteLength (gap ++ cs)) rest items) :
      Completes phase pos (gap ++ (cs ++ rest)) (item :: items)
  /-- After an item, what may follow it. -/
  | tail {phase : Phase} {pos : Nat} {cs : List Char} {item : Item} {items : List Item}
      (hphase : phase.Holds item) (htail : Tail pos cs items) :
      Completes phase pos cs (item :: items)
  /-- After a lone number, a separator. -/
  | separator {pos : Nat} {gap cs : List Char} {low : Item} {items : List Item}
      (hgap : Blanks gap) (mark : Separator)
      (hrest : Completes (.separator low) (pos + byteLength (gap ++ [mark.char])) cs items) :
      Completes (.number low) pos (gap ++ mark.char :: cs) items
  /-- After a separator, the upper bound and what may follow the item. -/
  | upper {pos : Nat} {gap highs rest : List Char} {low : Item} {high : Int32} {items : List Item}
      (hgap : Blanks gap) (hhigh : Number highs high)
      (htail : Tail (pos + byteLength (gap ++ highs)) rest items) :
      Completes (.separator low) pos (gap ++ (highs ++ rest))
        (⟨⟨low.bounds.low, high⟩, ⟨low.span.start, pos + byteLength (gap ++ highs)⟩⟩ :: items)

/-- A blank makes no difference in any phase. -/
theorem Completes.cons_blank {phase : Phase} {pos : Nat} {c : Char} {cs : List Char}
    {items : List Item} (hblank : isBlank c = true)
    (h : Completes phase (pos + c.utf8Size) cs items) : Completes phase pos (c :: cs) items := by
  cases h with
  | blank hgap => exact .blank (hgap.cons hblank)
  | item hphase hgap hitem htail =>
    rw [Nat.add_assoc] at hitem htail
    exact .item hphase (hgap.cons hblank) hitem htail
  | tail hphase htail => exact .tail hphase (htail.blank hblank)
  | separator hgap mark hrest =>
    rw [Nat.add_assoc] at hrest
    exact .separator (hgap.cons hblank) mark hrest
  | upper hgap hhigh htail =>
    rw [Nat.add_assoc] at htail ⊢
    exact .upper (hgap.cons hblank) hhigh htail

/-- Where an item may begin, an item and what may follow it. -/
theorem Completes.of_itemAt {phase : Phase} (hphase : phase.AwaitsItem) {pos : Nat}
    {cs rest : List Char} {item : Item} {items : List Item} (hitem : ItemAt pos cs item)
    (htail : Tail (pos + byteLength cs) rest items) :
    Completes phase pos (cs ++ rest) (item :: items) :=
  @Completes.item phase pos [] cs rest item items hphase blanks_nil hitem htail

/-- A number, where an item may begin, is an item or the lower bound of one. -/
theorem Completes.of_number {phase : Phase} (hphase : phase.AwaitsItem)
    {pos : Nat} {ds cs : List Char} {value : Int32} {items : List Item} (hnumber : Number ds value)
    (h : Completes (.number ⟨.single value, ⟨pos, pos + byteLength ds⟩⟩) (pos + byteLength ds) cs
      items) : Completes phase pos (ds ++ cs) items := by
  cases h with
  | item hphase' _ _ _ => cases hphase'
  | tail hphase' htail =>
    cases hphase'
    exact .of_itemAt hphase (.single hnumber) htail
  | @separator _ gap _ _ _ hgap mark hrest =>
    cases hrest with
    | item hphase' _ _ _ => cases hphase'
    | tail hphase' _ => cases hphase'
    | @upper _ gap' highs rest _ high items hgap' hhigh htail =>
      -- the two numbers with all that is between them are one item
      have hsplit : ds ++ (gap ++ mark.char :: (gap' ++ (highs ++ rest))) =
          (ds ++ gap ++ [mark.char] ++ gap' ++ highs) ++ rest := by
        simp only [List.append_assoc, List.cons_append, List.nil_append]
      have hlength : pos + byteLength ds + byteLength (gap ++ [mark.char]) +
          byteLength (gap' ++ highs) =
            pos + byteLength (ds ++ gap ++ [mark.char] ++ gap' ++ highs) := by
        simp only [byteLength_append, Nat.add_assoc]
      rw [hlength] at htail ⊢
      rw [hsplit]
      exact .of_itemAt hphase (.range hnumber hgap mark hgap' hhigh) htail

/-- After a separator, a number is the upper bound. -/
theorem Completes.of_upper {pos : Nat} {ds cs : List Char} {low : Item} {high : Int32}
    {items : List Item} (hhigh : Number ds high)
    (h : Completes (.range ⟨⟨low.bounds.low, high⟩, low.span.join ⟨pos, pos + byteLength ds⟩⟩)
      (pos + byteLength ds) cs items) : Completes (.separator low) pos (ds ++ cs) items := by
  cases h with
  | item hphase _ _ _ => cases hphase
  | tail hphase htail =>
    cases hphase
    exact @Completes.upper pos [] ds cs low high _ blanks_nil hhigh htail

/-- A comma that another item follows prolongs what follows an item. -/
theorem Tail.of_comma {pos : Nat} {cs : List Char} {items : List Item}
    (h : Completes .comma (pos + ','.utf8Size) cs items) : Tail pos (',' :: cs) items := by
  cases h with
  | @item _ _ gap cs rest item items _ hgap hitem htail =>
    obtain ⟨rest, gap', rfl, hmore, hgap'⟩ := htail
    rw [Nat.add_assoc] at hitem hmore
    refine ⟨[] ++ [','] ++ gap ++ cs ++ rest, gap', ?_, .comma blanks_nil hgap hitem hmore, hgap'⟩
    simp only [List.append_assoc, List.nil_append, List.cons_append]
  | tail hphase _ => cases hphase

/-- **Accepted texts are derived.** A run that succeeds passes over a text of the kind that its
phase asks for. -/
theorem completes_of_run {pos : Nat} {cs : List Char} {tokens : List Token}
    (hdivides : Token.Divides pos cs tokens) {phase : Phase} {items : List Item}
    {before : List Char} (hpos : pos = byteLength before) (htext : text = before ++ cs)
    (hrun : phase.run text tokens = .ok items) : Completes phase pos cs items := by
  -- each token is a step of the run, and the rest completes the phase that it leads to
  induction hdivides generalizing phase items before with
  | nil =>
    rcases Phase.run_nil_eq_ok_iff.mp hrun with ⟨rfl, rfl⟩ | ⟨item, hphase, rfl⟩
    · exact .blank blanks_nil
    · exact .tail hphase (.nil _)
  | @blank pos c cs tokens hblank _ ih =>
    have htext' : text = (before ++ [c]) ++ cs := by rw [htext, List.append_cons]
    refine Completes.cons_blank hblank (ih ?_ htext' hrun)
    rw [hpos, byteLength_append, byteLength_cons, byteLength_nil, Nat.add_zero]
  | @number pos ds cs tokens hne hdigits hend _ ih =>
    have htext' : text = (before ++ ds) ++ cs := by rw [htext, List.append_assoc]
    have hpos' : pos + byteLength ds = byteLength (before ++ ds) := by
      rw [hpos, byteLength_append]
    obtain ⟨out, next, rest, hstep, hrest, rfl⟩ := Phase.run_cons_eq_ok_iff.mp hrun
    have hcompletes := ih hpos' htext' hrest
    -- only a number can be taken here, either the first of an item or the second
    cases hstep with
    | opens hphase hvalue =>
      rw [htext, hpos] at hvalue
      have hnumber := number_of_value_eq hne hdigits ((Phase.value_digits hdigits).mp hvalue)
      exact .of_number hphase hnumber hcompletes
    | closes hvalue =>
      rw [htext, hpos] at hvalue
      have hnumber := number_of_value_eq hne hdigits ((Phase.value_digits hdigits).mp hvalue)
      exact .of_upper hnumber hcompletes
  | @mark pos c cs kind tokens hkind _ ih =>
    have htext' : text = (before ++ [c]) ++ cs := by rw [htext, List.append_cons]
    have hpos' : pos + c.utf8Size = byteLength (before ++ [c]) := by
      rw [hpos, byteLength_append, byteLength_cons, byteLength_nil, Nat.add_zero]
    obtain ⟨out, next, rest, hstep, hrest, rfl⟩ := Phase.run_cons_eq_ok_iff.mp hrun
    have hcompletes := ih hpos' htext' hrest
    -- a mark is taken between the bounds of a range, or between two items
    cases hstep with
    | opens _ _ => exact absurd hkind (Token.Kind.ofChar?_ne_number c _)
    | closes _ => exact absurd hkind (Token.Kind.ofChar?_ne_number c _)
    | separates =>
      obtain rfl := Token.Kind.eq_char_of_ofChar? hkind
      exact @Completes.separator pos [] cs _ _ blanks_nil _ hcompletes
    | completes hphase =>
      obtain rfl := Token.Kind.eq_comma_of_ofChar? hkind
      exact .tail hphase (Tail.of_comma hcompletes)

/-! ### The accepted texts -/

/-- A list that is completed from the start is derived. -/
theorem listAt_of_completes {pos : Nat} {cs : List Char} {items : List Item}
    (h : Completes .start pos cs items) : ListAt pos cs items := by
  cases h with
  | blank hgap =>
    have hempty := @ListAt.empty pos cs [] hgap blanks_nil
    rw [List.append_nil] at hempty
    exact hempty
  | @item _ _ gap cs rest item items _ hgap hitem htail =>
    obtain ⟨rest, gap', rfl, hmore, hgap'⟩ := htail
    have hlist := ListAt.items hgap hitem hmore hgap'
    rw [List.append_assoc, List.append_assoc] at hlist
    exact hlist
  | tail hphase _ => cases hphase

/-- What is read is what the grammar derives. -/
theorem parse_eq_ok_iff {text : String} {items : List Item} :
    parse text = .ok items ↔ Derives text items := by
  constructor
  · intro h
    have hdivides := Token.divides_scan 0 text.toList
    exact listAt_of_completes (completes_of_run hdivides byteLength_nil.symm rfl h)
  · exact run_of_listAt

/-- **The reader accepts the grammar.** A text is read just when the grammar derives it, and then
the items are those of the derivation: each with the bounds as written, and with the span of its
own text, from its first digit to its last. -/
theorem parse_exact (text : String) :
    (∀ items, parse text = .ok items ↔ Derives text items) ∧
      ∀ items, parse text = .ok items → ∀ item ∈ items,
        ∃ before own after, text.toList = before ++ own ++ after ∧
          ItemAt (byteLength before) own item := by
  refine ⟨fun items => parse_eq_ok_iff, fun items h item hitem => ?_⟩
  exact (parse_eq_ok_iff.mp h).exists_split hitem

/-- Leading zeros are read, reversed bounds stay as they are, and a blank may have three bytes. -/
theorem derives_reversed_and_padded :
    Derives "5 - 3,\u2003007" [⟨⟨5, 3⟩, ⟨0, 5⟩⟩, ⟨⟨7, 7⟩, ⟨9, 12⟩⟩] ∧
      ∃ before own after, "5 - 3,\u2003007".toList = before ++ own ++ after ∧
        ItemAt (byteLength before) own ⟨⟨7, 7⟩, ⟨9, 12⟩⟩ := by
  obtain ⟨hparse, hspan⟩ := parse_exact "5 - 3,\u2003007"
  refine ⟨(hparse _).mp rfl, hspan [⟨⟨5, 3⟩, ⟨0, 5⟩⟩, ⟨⟨7, 7⟩, ⟨9, 12⟩⟩] rfl _ ?_⟩
  exact List.mem_cons_of_mem _ List.mem_cons_self

end PageSelection.RangeList
