import PageSelection.RangeList.Basic
import PageSelection.Text.Blank
import PageSelection.Text.Bytes

/-!
# The grammar of range lists

A range list is a text of the form

* `list   := ws* (item (ws* ',' ws* item)*)? ws*`
* `item   := number (ws* ('-' | ':') ws* number)?`
* `number := digit+`, of value 2147483647 at most,

where `ws` is a blank. The relations of this module are these rules, one for each nonterminal. They
say of a stretch of text, which begins at a given byte, that it is derived, and which items it then
lists: their bounds are the decimal values as written, and their spans run from the first digit of
the first number to the last digit of the last one. Nothing is said here of tokens, or of the order
in which a text is read.
-/

namespace PageSelection.RangeList.Grammar

/-- `ws*` -/
def Blanks (cs : List Char) : Prop := ∀ c ∈ cs, Text.isBlank c = true

/-- `number` -/
structure Number (ds : List Char) (value : Int32) : Prop where
  nonempty : ds ≠ []
  digits : ∀ d ∈ ds, d.isDigit = true
  fits : Nat.ofDigitChars 10 ds 0 ≤ 2147483647
  value_eq : value.toInt = Nat.ofDigitChars 10 ds 0

/-- `item`, at byte `pos` -/
inductive ItemAt (pos : Nat) : List Char → Item → Prop
  | single {ds : List Char} {value : Int32} (hnumber : Number ds value) :
      ItemAt pos ds ⟨⟨value, value⟩, ⟨pos, pos + Text.byteLength ds⟩⟩
  | range {lows gap gap' highs : List Char} {low high : Int32} (hlow : Number lows low)
      (hgap : Blanks gap) (mark : Separator) (hgap' : Blanks gap') (hhigh : Number highs high) :
      ItemAt pos (lows ++ gap ++ [mark.char] ++ gap' ++ highs)
        ⟨⟨low, high⟩, ⟨pos, pos + Text.byteLength (lows ++ gap ++ [mark.char] ++ gap' ++ highs)⟩⟩

/-- `(ws* ',' ws* item)*`, at byte `pos` -/
inductive MoreAt : Nat → List Char → List Item → Prop
  | done {pos : Nat} : MoreAt pos [] []
  | comma {pos : Nat} {gap gap' cs rest : List Char} {item : Item} {items : List Item}
      (hgap : Blanks gap) (hgap' : Blanks gap')
      (hitem : ItemAt (pos + Text.byteLength (gap ++ [','] ++ gap')) cs item)
      (hmore : MoreAt (pos + Text.byteLength (gap ++ [','] ++ gap' ++ cs)) rest items) :
      MoreAt pos (gap ++ [','] ++ gap' ++ cs ++ rest) (item :: items)

/-- `list`, at byte `pos` -/
inductive ListAt (pos : Nat) : List Char → List Item → Prop
  | empty {gap gap' : List Char} (hgap : Blanks gap) (hgap' : Blanks gap') :
      ListAt pos (gap ++ gap') []
  | items {gap cs rest gap' : List Char} {item : Item} {items : List Item} (hgap : Blanks gap)
      (hitem : ItemAt (pos + Text.byteLength gap) cs item)
      (hmore : MoreAt (pos + Text.byteLength (gap ++ cs)) rest items) (hgap' : Blanks gap') :
      ListAt pos (gap ++ cs ++ rest ++ gap') (item :: items)

/-- The whole text is derived, as a list of these items. -/
def Derives (text : String) (items : List Item) : Prop := ListAt 0 text.toList items

/-! ### Numbers and blanks -/

theorem blanks_nil : Blanks [] := nofun

theorem Blanks.cons {c : Char} {cs : List Char} (hc : Text.isBlank c = true) (hcs : Blanks cs) :
    Blanks (c :: cs) := by
  intro d hd
  rcases List.mem_cons.mp hd with rfl | hd
  · exact hc
  · exact hcs d hd

/-- A machine integer is the value of a number as soon as it is the decimal value. -/
theorem number_of_value_eq {ds : List Char} {value : Int32} (hne : ds ≠ [])
    (hdigits : ∀ d ∈ ds, d.isDigit = true)
    (hvalue : value.toInt = Nat.ofDigitChars 10 ds 0) : Number ds value := by
  refine ⟨hne, hdigits, ?_, hvalue⟩
  have hlimit := Int32.toInt_lt value
  omega

/-! ### Where the items stand -/

/-- The span of an item is that of its characters. -/
theorem ItemAt.span_eq {pos : Nat} {cs : List Char} {item : Item} (h : ItemAt pos cs item) :
    item.span = ⟨pos, pos + Text.byteLength cs⟩ := by
  cases h <;> rfl

/-- An item is an item with the same bounds wherever its characters stand. -/
theorem ItemAt.move {pos : Nat} {cs : List Char} {item : Item} (h : ItemAt pos cs item)
    (pos' : Nat) : ItemAt pos' cs ⟨item.bounds, ⟨pos', pos' + Text.byteLength cs⟩⟩ := by
  cases h with
  | single hnumber => exact .single hnumber
  | range hlow hgap mark hgap' hhigh => exact .range hlow hgap mark hgap' hhigh

/-- The numbers of an item are not negative. -/
theorem ItemAt.low_nonneg {pos : Nat} {cs : List Char} {item : Item} (h : ItemAt pos cs item) :
    0 ≤ item.bounds.low.toInt := by
  cases h with
  | single hnumber =>
    show 0 ≤ _
    rw [hnumber.value_eq]
    exact Int.natCast_nonneg _
  | range hlow _ _ _ _ =>
    show 0 ≤ _
    rw [hlow.value_eq]
    exact Int.natCast_nonneg _

/-- A text may consist of nothing but an item. -/
theorem ItemAt.derives {pos : Nat} {own : List Char} {item : Item} (h : ItemAt pos own item) :
    Derives (String.ofList own) [⟨item.bounds, ⟨0, Text.byteLength own⟩⟩] := by
  have hitem := h.move 0
  rw [Nat.zero_add] at hitem
  have hlist := ListAt.items blanks_nil hitem .done blanks_nil
  unfold Derives
  rw [String.toList_ofList]
  simpa using hlist

theorem MoreAt.exists_split {pos : Nat} {cs : List Char} {items : List Item}
    (h : MoreAt pos cs items) {item : Item} (hitem : item ∈ items) :
    ∃ before own after, cs = before ++ own ++ after ∧
      ItemAt (pos + Text.byteLength before) own item := by
  induction h with
  | done => cases hitem
  | @comma pos gap gap' cs rest first items _ _ hfirst _ ih =>
    -- the item is the one behind the comma, or stands further on
    rcases List.mem_cons.mp hitem with rfl | hitem
    · exact ⟨gap ++ [','] ++ gap', cs, rest, rfl, hfirst⟩
    · obtain ⟨before, own, after, rfl, hown⟩ := ih hitem
      refine ⟨gap ++ [','] ++ gap' ++ cs ++ before, own, after, ?_, ?_⟩
      · simp only [List.append_assoc]
      · rw [Nat.add_assoc, ← Text.byteLength_append] at hown
        exact hown

/-- **Spans.** Every item of a list is an item at the place where its span begins. -/
theorem Derives.exists_split {text : String} {items : List Item} (h : Derives text items)
    {item : Item} (hitem : item ∈ items) :
    ∃ before own after, text.toList = before ++ own ++ after ∧
      ItemAt (Text.byteLength before) own item := by
  unfold Derives at h
  generalize text.toList = cs at h ⊢
  cases h with
  | empty _ _ => cases hitem
  | @items gap cs rest gap' first items _ hfirst hmore _ =>
    rw [Nat.zero_add] at hfirst hmore
    rcases List.mem_cons.mp hitem with rfl | hitem
    · refine ⟨gap, cs, rest ++ gap', ?_, hfirst⟩
      simp only [List.append_assoc]
    · obtain ⟨before, own, after, rfl, hown⟩ := hmore.exists_split hitem
      refine ⟨gap ++ cs ++ before, own, after ++ gap', ?_, ?_⟩
      · simp only [List.append_assoc]
      · rw [← Text.byteLength_append] at hown
        exact hown

end PageSelection.RangeList.Grammar
