import PageSelection.Proofs.RangeList.Reach

/-!
# The same tokens at other places

A text can hold the tokens of another one at places of its own: it may have more in front of them,
or more blanks between them. What is read is then the same, at these other places.

A `Relocation` says where a stretch of the one text is in the other, and `Carries` that the digits
of a number do stand there. Under this condition every step that the reader takes in the one text
it takes in the other (`Advances.relocate`), every token that it refuses there it refuses here
(`Refuses.relocate`), and so the two runs come to the same, with all places relocated
(`run_relocate`), those of the digits in an error included. Only the end of the text has no place
that could be relocated; it is reported where the other text ends.

`Token.scan_shift` is the simplest case: the tokens of a text that begins `length` bytes further on
are its tokens, `length` bytes further on.
-/

namespace PageSelection

open Text

/-- Where the stretches of one text are in another one: those that begin at an offset, and those
that end there. The two need not agree, for something may have been put between them. -/
structure Relocation where
  start : Nat → Nat
  stop : Nat → Nat

namespace Relocation

/-- Everything is `length` bytes further on. -/
def shift (length : Nat) : Relocation := ⟨(· + length), (· + length)⟩

/-- A stretch of `length` bytes has been put in at `offset`. It moves what begins there or further
on, and what ends further on. -/
def insertion (offset length : Nat) : Relocation where
  start := fun begin => if offset ≤ begin then begin + length else begin
  stop := fun finish => if offset < finish then finish + length else finish

end Relocation

/-- A span at its new place. -/
def Span.relocate (r : Relocation) (span : Span) : Span := ⟨r.start span.start, r.stop span.stop⟩

/-! ### Tokens -/

namespace Token

/-- The kind of a token at its new place. -/
def Kind.relocate (r : Relocation) : Kind → Kind
  | number digits => number (digits.relocate r)
  | separator mark => separator mark
  | comma => comma
  | unexpected c => unexpected c

/-- A token at its new place. -/
def relocate (r : Relocation) (token : Token) : Token :=
  ⟨token.kind.relocate r, token.span.relocate r⟩

/-- Only a number has anything to relocate in its kind. -/
theorem Kind.relocate_of_ofChar? {c : Char} {kind : Kind} (h : ofChar? c = some kind)
    (r : Relocation) : kind.relocate r = kind := by
  cases kind with
  | number digits => exact absurd h (ofChar?_ne_number c digits)
  | _ => rfl

/-- If the token of `text` is a number, its digits stand in `text'` where the relocation says. -/
def Carries (token : Token) (r : Relocation) (text text' : List Char) : Prop :=
  ∀ digits, token.kind = .number digits →
    slice? text' (digits.relocate r).start (digits.relocate r).stop =
      slice? text digits.start digits.stop

theorem Divides.shift {pos : Nat} {cs : List Char} {tokens : List Token}
    (h : Divides pos cs tokens) (length : Nat) :
    Divides (pos + length) cs (tokens.map (relocate (.shift length))) := by
  induction h with
  | nil => exact .nil
  | blank hblank _ ih =>
    rw [Nat.add_right_comm] at ih
    exact .blank hblank ih
  | @number pos ds cs tokens hne hdigits hend _ ih =>
    rw [Nat.add_right_comm] at ih
    have hdivides := Divides.number hne hdigits hend ih
    rw [Nat.add_right_comm pos] at hdivides
    exact hdivides
  | @mark pos c cs kind tokens hkind _ ih =>
    rw [Nat.add_right_comm] at ih
    have hdivides := Divides.mark hkind ih
    rw [Nat.add_right_comm] at hdivides
    rw [List.map_cons, relocate, Kind.relocate_of_ofChar? hkind]
    exact hdivides

/-- **Tokens further on.** Where a text begins makes no other difference to its tokens. -/
theorem scan_shift (pos length : Nat) (cs : List Char) :
    scan none (pos + length) cs = (scan none pos cs).map (relocate (.shift length)) :=
  ((divides_scan pos cs).shift length).eq_scan.symm

/-- The tokens of a text, where that text stands behind another one. -/
theorem scan_behind (before cs : List Char) :
    scan none (byteLength before) cs =
      (scan none 0 cs).map (relocate (.shift (byteLength before))) := by
  rw [← scan_shift, Nat.zero_add]

theorem carries_shift (before cs : List Char) (token : Token) :
    token.Carries (.shift (byteLength before)) cs (before ++ cs) :=
  fun digits _ => slice?_append_right before cs digits.start digits.stop

end Token

namespace RangeList

/-! ### Items and errors -/

/-- An item at its new place. -/
def Item.relocate (r : Relocation) (item : Item) : Item := ⟨item.bounds, item.span.relocate r⟩

/-- A fault at its new place. -/
def Fault.relocate (r : Relocation) : Fault → Fault
  | unexpected expected found => unexpected expected (found.relocate r)
  | endOfText => endOfText
  | overflow => overflow

/-- An error at its new place. A missing number at the end of the text is missing at the end of the
new text, which is `length` bytes long. -/
def Error.relocate (r : Relocation) (length : Nat) (e : Error) : Error :=
  if e.fault = .endOfText then ⟨.endOfText, .point length⟩
  else ⟨e.fault.relocate r, e.span.relocate r⟩

/-- What has been read, at its new place. -/
def relocated (r : Relocation) (length : Nat) :
    Except Error (List Item) → Except Error (List Item)
  | .ok items => .ok (items.map (Item.relocate r))
  | .error e => .error (e.relocate r length)

namespace Phase

/-- A phase, with the items that it holds at their new places. -/
def relocate (r : Relocation) : Phase → Phase
  | start => start
  | comma => comma
  | number item => number (item.relocate r)
  | separator low => separator (low.relocate r)
  | range item => range (item.relocate r)

variable {r : Relocation} {text text' : List Char}

theorem AwaitsItem.relocate {phase : Phase} (h : phase.AwaitsItem) :
    (phase.relocate r).AwaitsItem := by
  cases h with
  | start => exact .start
  | comma => exact .comma

theorem AwaitsNumber.relocate {phase : Phase} (h : phase.AwaitsNumber) :
    (phase.relocate r).AwaitsNumber := by
  cases h with
  | item hphase => exact .item hphase.relocate
  | upper => exact .upper

theorem Holds.relocate {phase : Phase} {item : Item} (h : phase.Holds item) :
    (phase.relocate r).Holds (item.relocate r) := by
  cases h with
  | number => exact .number
  | range => exact .range

/-! ### Steps and runs -/

/-- Where the same characters stand, the same number is read. -/
theorem value_relocate {digits span span' : Span}
    (h : slice? text' (digits.relocate r).start (digits.relocate r).stop =
      slice? text digits.start digits.stop) {value : Int32} :
    Phase.value text' (digits.relocate r) span' = .ok value ↔
      Phase.value text digits span = .ok value := by
  unfold Phase.value Numeral.value?
  rw [h]
  cases slice? text digits.start digits.stop >>= fun run => Numeral.ofBytes? (bytes run) with
  | some value => rfl
  | none => exact ⟨nofun, nofun⟩

/-- **A step at another place.** -/
theorem Advances.relocate {phase next : Phase} {token : Token} {out : Option Item}
    (h : Advances text phase token out next) (hcarry : token.Carries r text text') :
    Advances text' (phase.relocate r) (token.relocate r) (out.map (Item.relocate r))
      (next.relocate r) := by
  cases h with
  | opens hphase hvalue =>
    exact .opens hphase.relocate ((value_relocate (hcarry _ rfl)).mpr hvalue)
  | separates => exact .separates
  | closes hvalue => exact .closes ((value_relocate (hcarry _ rfl)).mpr hvalue)
  | completes hphase => exact .completes hphase.relocate

/-- **A refusal at another place.** -/
theorem Refuses.relocate {phase : Phase} {token : Token} {fault : Fault}
    (h : Refuses text phase token fault) (hcarry : token.Carries r text text') :
    Refuses text' (phase.relocate r) (token.relocate r) (fault.relocate r) := by
  cases h with
  | overflow hphase hvalue =>
    refine .overflow hphase.relocate fun value hvalue' => ?_
    exact hvalue value ((value_relocate (hcarry _ rfl)).mp hvalue')
  | @noNumber kind _ hphase hkind =>
    refine .noNumber hphase.relocate fun digits hdigits => ?_
    cases kind with
    | number digits => exact hkind digits rfl
    | _ => cases hdigits
  | @noComma item kind _ hphase hcomma hseparator =>
    cases kind with
    | number digits => exact .noComma hphase.relocate nofun nofun
    | separator mark =>
      obtain rfl := hseparator mark rfl
      exact .noComma hphase.relocate nofun fun _ _ => rfl
    | comma => exact absurd rfl hcomma
    | unexpected c => exact .noComma hphase.relocate nofun nofun

/-- The end of the text, where the text has another length. -/
theorem run_nil_relocate (phase : Phase) :
    (phase.relocate r).run text' [] = relocated r (byteLength text') (phase.run text []) := by
  cases phase <;> rfl

/-- **The same tokens at other places are read alike.** The two runs complete the same items, or
they stop at the same token for the same reason, or at the end of the text. -/
theorem run_relocate {tokens : List Token}
    (hcarry : ∀ token ∈ tokens, token.Carries r text text') (phase : Phase) :
    (phase.relocate r).run text' (tokens.map (Token.relocate r)) =
      relocated r (byteLength text') (phase.run text tokens) := by
  induction tokens generalizing phase with
  | nil => exact run_nil_relocate phase
  | cons token tokens ih =>
    have htoken := hcarry token List.mem_cons_self
    rw [List.map_cons, run, run]
    cases hadvance : phase.advance text token with
    | error e =>
      -- the token is refused at both places
      obtain ⟨fault, hrefuses, rfl⟩ := advance_eq_error_iff.mp hadvance
      have hrefuses' := advance_eq_error_iff.mpr ⟨_, hrefuses.relocate htoken, rfl⟩
      rw [hrefuses']
      show Except.error _ = Except.error (Error.relocate _ _ _)
      unfold Error.relocate
      rw [if_neg hrefuses.ne_endOfText]
      rfl
    | ok step =>
      -- the token is taken at both places, and the rest is read alike
      obtain ⟨out, next⟩ := step
      have hstep := (advance_eq_ok_iff.mp hadvance).relocate htoken
      have hrest := ih (fun token' htoken' => hcarry token' (List.mem_cons_of_mem _ htoken')) next
      rw [advance_eq_ok_iff.mpr hstep]
      show ((next.relocate r).run text' (tokens.map (Token.relocate r)) >>= fun items =>
        Except.ok ((out.map (Item.relocate r)).toList ++ items)) =
          relocated r _ (next.run text tokens >>= fun items => Except.ok (out.toList ++ items))
      rw [hrest]
      cases next.run text tokens with
      | error e => rfl
      | ok items => cases out <;> rfl

end Phase

end RangeList

end PageSelection
