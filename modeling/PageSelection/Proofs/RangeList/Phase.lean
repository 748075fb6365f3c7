import PageSelection.Proofs.Numeral
import PageSelection.RangeList.Parser

/-!
# The steps of reading a range list

`Phase.Advances` lists the four ways in which a token can be taken: a number opens an item, a
separator turns a lone number into a lower bound, a number closes a range, and a comma completes
an item. `advance_eq_ok_iff` says that these are all, and `run_cons_eq_ok_iff` composes a run from
its first step and the rest, so that nothing else has to open the reader.
-/

namespace PageSelection

/-- A computation in two parts succeeds when both do. -/
theorem bind_eq_ok_iff {ε α β : Type} {x : Except ε α} {f : α → Except ε β} {b : β} :
    (x >>= f) = .ok b ↔ ∃ a, x = .ok a ∧ f a = .ok b := by
  cases x with
  | ok a =>
    constructor
    · intro h
      exact ⟨a, rfl, h⟩
    · rintro ⟨a', ha', h⟩
      cases ha'
      exact h
  | error e =>
    refine ⟨nofun, ?_⟩
    rintro ⟨a, ha, -⟩
    cases ha

/-- A computation in two parts fails when the first part does, or the second one behind it. -/
theorem bind_eq_error_iff {ε α β : Type} {x : Except ε α} {f : α → Except ε β} {e : ε} :
    (x >>= f) = .error e ↔ x = .error e ∨ ∃ a, x = .ok a ∧ f a = .error e := by
  cases x with
  | ok a =>
    constructor
    · intro h
      exact .inr ⟨a, rfl, h⟩
    · rintro (h | ⟨a', ha', h⟩)
      · cases h
      · cases ha'
        exact h
  | error e' =>
    constructor
    · intro h
      cases h
      exact .inl rfl
    · rintro (h | ⟨a, ha, -⟩)
      · cases h
        rfl
      · cases ha

/-- Renaming errors does not change when a computation succeeds. -/
theorem mapError_eq_ok_iff {ε ε' α : Type} {x : Except ε α} {f : ε → ε'} {a : α} :
    x.mapError f = .ok a ↔ x = .ok a := by
  cases x with
  | ok a' => exact ⟨fun h => by cases h; rfl, fun h => by cases h; rfl⟩
  | error e => exact ⟨nofun, nofun⟩

namespace RangeList.Phase

variable {text : List Char}

/-! ### One step -/

/-- An item may begin. -/
inductive AwaitsItem : Phase → Prop
  | start : AwaitsItem .start
  | comma : AwaitsItem .comma

/-- The item `item` may end. -/
inductive Holds (item : Item) : Phase → Prop
  | number : Holds item (.number item)
  | range : Holds item (.range item)

/-- `Advances text phase token out next` holds when `phase` takes `token`, with the item that is
completed by it, and goes on as `next`. -/
inductive Advances (text : List Char) : Phase → Token → Option Item → Phase → Prop
  /-- A number opens an item. -/
  | opens {phase : Phase} {digits span : Span} {value : Int32} (hphase : phase.AwaitsItem)
      (hvalue : Phase.value text digits span = .ok value) :
      Advances text phase ⟨.number digits, span⟩ none (.number ⟨.single value, span⟩)
  /-- A separator makes a lone number a lower bound. -/
  | separates {low : Item} {mark : Separator} {span : Span} :
      Advances text (.number low) ⟨.separator mark, span⟩ none (.separator low)
  /-- A number closes a range. -/
  | closes {low : Item} {digits span : Span} {high : Int32}
      (hvalue : Phase.value text digits span = .ok high) :
      Advances text (.separator low) ⟨.number digits, span⟩ none
        (.range ⟨⟨low.bounds.low, high⟩, low.span.join span⟩)
  /-- A comma completes an item. -/
  | completes {phase : Phase} {item : Item} {span : Span} (hphase : phase.Holds item) :
      Advances text phase ⟨.comma, span⟩ (some item) .comma

/-- **What a step can do.** -/
theorem advance_eq_ok_iff {phase next : Phase} {token : Token} {out : Option Item} :
    phase.advance text token = .ok (out, next) ↔ Advances text phase token out next := by
  obtain ⟨kind, span⟩ := token
  constructor
  · intro h
    -- a number is looked at in three phases; in every other case the outcome is already there
    cases phase with
    | start =>
      cases kind with
      | number =>
        obtain ⟨value, hvalue, hnext⟩ := bind_eq_ok_iff.mp h
        cases hnext
        exact .opens .start hvalue
      | _ => cases h
    | comma =>
      cases kind with
      | number =>
        obtain ⟨value, hvalue, hnext⟩ := bind_eq_ok_iff.mp h
        cases hnext
        exact .opens .comma hvalue
      | _ => cases h
    | number low =>
      cases kind with
      | separator mark => cases h; exact .separates
      | comma => cases h; exact .completes .number
      | _ => cases h
    | separator low =>
      cases kind with
      | number =>
        obtain ⟨high, hvalue, hnext⟩ := bind_eq_ok_iff.mp h
        cases hnext
        exact .closes hvalue
      | _ => cases h
    | range item =>
      cases kind with
      | comma => cases h; exact .completes .range
      | _ => cases h
  · intro h
    cases h with
    | opens hphase hvalue =>
      cases hphase with
      | start => exact bind_eq_ok_iff.mpr ⟨_, hvalue, rfl⟩
      | comma => exact bind_eq_ok_iff.mpr ⟨_, hvalue, rfl⟩
    | separates => rfl
    | closes hvalue => exact bind_eq_ok_iff.mpr ⟨_, hvalue, rfl⟩
    | completes hphase => cases hphase <;> rfl

/-! ### A run -/

/-- **A run is its first step and the rest.** -/
theorem run_cons_eq_ok_iff {phase : Phase} {token : Token} {tokens : List Token}
    {items : List Item} :
    phase.run text (token :: tokens) = .ok items ↔
      ∃ out next rest, Advances text phase token out next ∧
        next.run text tokens = .ok rest ∧ items = out.toList ++ rest := by
  rw [run, bind_eq_ok_iff]
  constructor
  · rintro ⟨⟨out, next⟩, hstep, h⟩
    obtain ⟨rest, hrun, hitems⟩ := bind_eq_ok_iff.mp h
    cases hitems
    exact ⟨out, next, rest, advance_eq_ok_iff.mp hstep, hrun, rfl⟩
  · rintro ⟨out, next, rest, hstep, hrun, rfl⟩
    exact ⟨(out, next), advance_eq_ok_iff.mpr hstep, bind_eq_ok_iff.mpr ⟨rest, hrun, rfl⟩⟩

/-- A step that completes nothing leaves the items to the rest. -/
theorem run_cons_of_none {phase next : Phase} {token : Token} {tokens : List Token}
    {items : List Item} (hstep : Advances text phase token none next)
    (hrun : next.run text tokens = .ok items) : phase.run text (token :: tokens) = .ok items :=
  run_cons_eq_ok_iff.mpr ⟨none, next, items, hstep, hrun, rfl⟩

/-- The end of the text completes an item, or there is none to complete. -/
theorem run_nil_eq_ok_iff {phase : Phase} {items : List Item} :
    phase.run text [] = .ok items ↔
      (phase = .start ∧ items = []) ∨ ∃ item, phase.Holds item ∧ items = [item] := by
  constructor
  · intro h
    cases phase with
    | start => cases h; exact .inl ⟨rfl, rfl⟩
    | number item => cases h; exact .inr ⟨item, .number, rfl⟩
    | range item => cases h; exact .inr ⟨item, .range, rfl⟩
    | comma => cases h
    | separator low => cases h
  · rintro (⟨rfl, rfl⟩ | ⟨item, hphase, rfl⟩)
    · rfl
    · cases hphase <;> rfl

/-- The value of a run of digits inside the text. -/
theorem value_digits {before ds after : List Char} (h : ∀ d ∈ ds, d.isDigit = true)
    {span : Span} {value : Int32} :
    Phase.value (before ++ (ds ++ after))
        ⟨Text.byteLength before, Text.byteLength before + Text.byteLength ds⟩ span = .ok value ↔
      value.toInt = Nat.ofDigitChars 10 ds 0 := by
  have hvalue := @Numeral.value?_digits before ds after h value
  rw [← hvalue]
  unfold Phase.value
  split
  · next found hfound => rw [hfound, Except.ok.injEq, Option.some.injEq]
  · next hnone => simp [hnone]

end RangeList.Phase

end PageSelection
