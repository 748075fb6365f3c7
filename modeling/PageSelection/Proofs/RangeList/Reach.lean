import PageSelection.Proofs.RangeList.Phase
import PageSelection.Proofs.Text.Slice
import PageSelection.Proofs.Token.Cut

/-!
# How far a range list is read

A text that is no range list is read up to some token, and there it is refused; or all of it is read
and a number is missing at its end. This module says what has been read by then.

* `Phase.Refuses` lists the three ways in which a token can be refused, and `advance_eq_error_iff`
  says that these are all.
* `Phase.Reaches` is a reading of some tokens without the end of the text. `run_append` continues it
  by any further tokens, and `Reaches.congr_text` transfers it to any text that begins alike.
* `Stops` puts this together for a whole text: the part of it that has been read, and the token, or
  the end, at which the reading stopped. Every error arises in this way (`stops_of_parse_error`).
-/

namespace PageSelection.RangeList

open Text

namespace Phase

variable {text : List Char}

/-! ### Steps that fail -/

/-- A number has to follow. -/
inductive AwaitsNumber : Phase → Prop
  | item {phase : Phase} (hphase : phase.AwaitsItem) : AwaitsNumber phase
  | upper {low : Item} : AwaitsNumber (.separator low)

/-- A number has to follow, or an item may end. -/
theorem awaitsNumber_or_holds (phase : Phase) :
    phase.AwaitsNumber ∨ ∃ item, phase.Holds item := by
  cases phase with
  | start => exact .inl (.item .start)
  | comma => exact .inl (.item .comma)
  | number item => exact .inr ⟨item, .number⟩
  | separator low => exact .inl .upper
  | range item => exact .inr ⟨item, .range⟩

theorem AwaitsNumber.not_holds {phase : Phase} (h : phase.AwaitsNumber) (item : Item) :
    ¬ phase.Holds item := by
  intro hholds
  cases h with
  | item hphase => cases hphase <;> cases hholds
  | upper => cases hholds

/-- `Refuses text phase token fault` holds when `phase` cannot take `token`, for the reason
`fault`. -/
inductive Refuses (text : List Char) : Phase → Token → Fault → Prop
  /-- The number that has to follow is too large. -/
  | overflow {phase : Phase} {digits span : Span} (hphase : phase.AwaitsNumber)
      (hvalue : ∀ value, Phase.value text digits span ≠ .ok value) :
      Refuses text phase ⟨.number digits, span⟩ .overflow
  /-- Something else follows instead of a number. -/
  | noNumber {phase : Phase} {kind : Token.Kind} {span : Span} (hphase : phase.AwaitsNumber)
      (hkind : ∀ digits, kind ≠ .number digits) :
      Refuses text phase ⟨kind, span⟩ (.unexpected .number kind)
  /-- Behind an item, no comma follows, nor a separator that could still belong to the item. -/
  | noComma {phase : Phase} {item : Item} {kind : Token.Kind} {span : Span}
      (hphase : phase.Holds item) (hcomma : kind ≠ .comma)
      (hseparator : ∀ mark, kind = .separator mark → phase = .range item) :
      Refuses text phase ⟨kind, span⟩ (.unexpected .commaOrEnd kind)

/-- A token is never refused for the end of the text. -/
theorem Refuses.ne_endOfText {phase : Phase} {token : Token} {fault : Fault}
    (h : Refuses text phase token fault) : fault ≠ .endOfText := by
  cases h <;> nofun

/-- A number whose value is asked for in vain is too large. -/
theorem value_eq_error_iff {digits span : Span} {e : Error} :
    Phase.value text digits span = .error e ↔
      (∀ value, Phase.value text digits span ≠ .ok value) ∧ e = ⟨.overflow, span⟩ := by
  unfold Phase.value
  cases Numeral.value? text digits with
  | some value =>
    refine ⟨nofun, ?_⟩
    rintro ⟨hnone, -⟩
    exact absurd rfl (hnone value)
  | none =>
    constructor
    · intro h
      cases h
      exact ⟨nofun, rfl⟩
    · rintro ⟨-, rfl⟩
      rfl

/-- A step that begins by reading a number fails just when that is too large. -/
theorem value_bind_eq_error_iff {α : Type} {digits span : Span} {f : Int32 → α} {e : Error} :
    (Phase.value text digits span >>= fun value => Except.ok (f value)) = .error e ↔
      (∀ value, Phase.value text digits span ≠ .ok value) ∧ e = ⟨.overflow, span⟩ := by
  rw [← value_eq_error_iff, bind_eq_error_iff]
  refine ⟨?_, .inl⟩
  rintro (h | ⟨value, -, h⟩)
  · exact h
  · cases h

/-- **How a step can fail.** -/
theorem advance_eq_error_iff {phase : Phase} {token : Token} {e : Error} :
    phase.advance text token = .error e ↔
      ∃ fault, Refuses text phase token fault ∧ e = ⟨fault, token.span⟩ := by
  obtain ⟨kind, span⟩ := token
  constructor
  · intro h
    -- where a number has to follow, only a number can still be refused for its value; behind an
    -- item the kind of the token decides
    cases phase with
    | start =>
      cases kind with
      | number =>
        obtain ⟨hvalue, rfl⟩ := value_bind_eq_error_iff.mp h
        exact ⟨_, .overflow (.item .start) hvalue, rfl⟩
      | _ => cases h; exact ⟨_, .noNumber (.item .start) nofun, rfl⟩
    | comma =>
      cases kind with
      | number =>
        obtain ⟨hvalue, rfl⟩ := value_bind_eq_error_iff.mp h
        exact ⟨_, .overflow (.item .comma) hvalue, rfl⟩
      | _ => cases h; exact ⟨_, .noNumber (.item .comma) nofun, rfl⟩
    | separator low =>
      cases kind with
      | number =>
        obtain ⟨hvalue, rfl⟩ := value_bind_eq_error_iff.mp h
        exact ⟨_, .overflow .upper hvalue, rfl⟩
      | _ => cases h; exact ⟨_, .noNumber .upper nofun, rfl⟩
    | number item =>
      cases kind with
      | separator mark => cases h
      | comma => cases h
      | _ => cases h; exact ⟨_, .noComma .number nofun nofun, rfl⟩
    | range item =>
      cases kind with
      | comma => cases h
      | _ => cases h; exact ⟨_, .noComma .range nofun fun _ _ => rfl, rfl⟩
  · rintro ⟨fault, h, rfl⟩
    cases h with
    | overflow hphase hvalue =>
      cases hphase with
      | item hphase => cases hphase <;> exact value_bind_eq_error_iff.mpr ⟨hvalue, rfl⟩
      | upper => exact value_bind_eq_error_iff.mpr ⟨hvalue, rfl⟩
    | noNumber hphase hkind =>
      cases kind with
      | number digits => exact absurd rfl (hkind digits)
      | _ =>
        cases hphase with
        | item hphase => cases hphase <;> rfl
        | upper => rfl
    | noComma hphase hcomma hseparator =>
      cases kind with
      | comma => exact absurd rfl hcomma
      | separator mark =>
        obtain rfl := hseparator mark rfl
        rfl
      | _ => cases hphase <;> rfl

/-- The end of the text is refused where a number has to follow, unless nothing has been read. -/
theorem finish_eq_error_iff {phase : Phase} {e : Error} :
    phase.finish text = .error e ↔
      phase.AwaitsNumber ∧ phase ≠ .start ∧ e = ⟨.endOfText, .point (byteLength text)⟩ := by
  constructor
  · intro h
    cases phase with
    | start => cases h
    | comma => cases h; exact ⟨.item .comma, nofun, rfl⟩
    | number item => cases h
    | separator low => cases h; exact ⟨.upper, nofun, rfl⟩
    | range item => cases h
  · rintro ⟨hphase, hstart, rfl⟩
    cases hphase with
    | item hphase =>
      cases hphase with
      | start => exact absurd rfl hstart
      | comma => rfl
    | upper => rfl

/-! ### Reading some tokens -/

/-- `Reaches text phase tokens items next` holds when the reader, in `phase`, takes all the tokens,
completes `items` on the way, and goes on as `next`. -/
inductive Reaches (text : List Char) : Phase → List Token → List Item → Phase → Prop
  | refl {phase : Phase} : Reaches text phase [] [] phase
  | step {phase next last : Phase} {token : Token} {tokens : List Token} {out : Option Item}
      {items : List Item} (hstep : Advances text phase token out next)
      (hrest : Reaches text next tokens items last) :
      Reaches text phase (token :: tokens) (out.toList ++ items) last

/-- **Going on.** What has been read does not matter for the rest, but for the phase. -/
theorem run_append {phase next : Phase} {first : List Token} {items : List Item}
    (h : Reaches text phase first items next) (rest : List Token) :
    phase.run text (first ++ rest) = (next.run text rest).map (items ++ ·) := by
  induction h with
  | refl =>
    rw [List.nil_append]
    cases run text _ rest <;> rfl
  | @step phase next last token tokens out items hstep _ ih =>
    rw [List.cons_append, run, advance_eq_ok_iff.mpr hstep]
    -- what the first step completes is put in front of what the rest of the run does
    show (next.run text (tokens ++ rest) >>= fun items => Except.ok (out.toList ++ items)) = _
    rw [ih]
    cases run text last rest with
    | error e => rfl
    | ok items' =>
      show Except.ok (out.toList ++ (items ++ items')) = Except.ok (out.toList ++ items ++ items')
      rw [List.append_assoc]

/-- **How a run fails.** Some tokens are taken, and then the next one is refused, or the end of the
text. -/
theorem exists_reaches_of_run_error {phase : Phase} {tokens : List Token} {e : Error}
    (h : phase.run text tokens = .error e) :
    (∃ first token rest items next, tokens = first ++ token :: rest ∧
      Reaches text phase first items next ∧ next.advance text token = .error e) ∨
    ∃ items next, Reaches text phase tokens items next ∧ next.finish text = .error e := by
  induction tokens generalizing phase with
  | nil =>
    rw [run, bind_eq_error_iff] at h
    rcases h with h | ⟨item, -, h⟩
    · exact .inr ⟨_, phase, .refl, h⟩
    · cases h
  | cons token tokens ih =>
    -- either the first step fails, or what follows it does
    rw [run, bind_eq_error_iff] at h
    rcases h with h | ⟨⟨out, next⟩, hadvance, h⟩
    · exact .inl ⟨[], token, tokens, _, phase, rfl, .refl, h⟩
    · have hstep := advance_eq_ok_iff.mp hadvance
      rcases bind_eq_error_iff.mp h with h | ⟨items, -, h⟩
      · rcases ih h with
          ⟨first, token', rest, items, last, rfl, hreach, hlast⟩ | ⟨items, last, hreach, hlast⟩
        · exact .inl ⟨token :: first, token', rest, _, last, rfl, .step hstep hreach, hlast⟩
        · exact .inr ⟨_, last, .step hstep hreach, hlast⟩
      · cases h

/-- **How a run succeeds.** All tokens are taken, and then the end of the text. -/
theorem exists_reaches_of_run_ok {phase : Phase} {tokens : List Token} {items : List Item}
    (h : phase.run text tokens = .ok items) :
    ∃ done next last, Reaches text phase tokens done next ∧ next.finish text = .ok last ∧
      items = done ++ last.toList := by
  induction tokens generalizing phase items with
  | nil =>
    obtain ⟨last, hfinish, hitems⟩ := bind_eq_ok_iff.mp h
    cases hitems
    exact ⟨[], phase, last, .refl, hfinish, rfl⟩
  | cons token tokens ih =>
    obtain ⟨out, next, rest, hstep, hrun, rfl⟩ := run_cons_eq_ok_iff.mp h
    obtain ⟨done, final, last, hreach, hfinish, rfl⟩ := ih hrun
    exact ⟨_, final, last, .step hstep hreach, hfinish, (List.append_assoc _ _ _).symm⟩

/-- No step leads back to the start. -/
theorem Reaches.eq_nil_of_start {phase : Phase} {tokens : List Token} {items : List Item}
    (h : Reaches text phase tokens items .start) : tokens = [] ∧ items = [] := by
  generalize hlast : Phase.start = last at h
  induction h with
  | refl => exact ⟨rfl, rfl⟩
  | step hstep hrest ih =>
    obtain ⟨rfl, rfl⟩ := ih hlast
    cases hrest
    subst hlast
    cases hstep

/-- The last of some tokens is the last step of their reading. -/
theorem Reaches.exists_last {phase last : Phase} {tokens : List Token} {token : Token}
    {items : List Item} (h : Reaches text phase (tokens ++ [token]) items last) :
    ∃ next out, Advances text next token out last := by
  -- the induction is on the reading, and takes the tokens apart from their front
  generalize hall : tokens ++ [token] = all at h
  induction h generalizing tokens with
  | refl => exact absurd hall (List.append_ne_nil_of_right_ne_nil _ (List.cons_ne_nil _ _))
  | @step phase next last token' tokens' out items hstep hrest ih =>
    cases tokens with
    | nil =>
      cases hall
      cases hrest
      exact ⟨phase, out, hstep⟩
    | cons token'' tokens =>
      cases hall
      exact ih rfl

/-! ### Texts that begin alike -/

/-- The value of a number is read off the text up to the end of its digits. -/
theorem value_congr {before after after' : List Char} {digits : Span}
    (h : digits.stop ≤ byteLength before) (span : Span) :
    Phase.value (before ++ after) digits span = Phase.value (before ++ after') digits span := by
  unfold Phase.value Numeral.value?
  rw [slice?_append_of_le h, slice?_append_of_le h]

theorem Advances.congr_text {before after : List Char} {phase next : Phase} {token : Token}
    {out : Option Item} (h : Advances (before ++ after) phase token out next)
    (hstop : token.DigitsEndBy (byteLength before)) (after' : List Char) :
    Advances (before ++ after') phase token out next := by
  cases h with
  | opens hphase hvalue =>
    rw [value_congr (hstop _ rfl)] at hvalue
    exact .opens hphase hvalue
  | separates => exact .separates
  | closes hvalue =>
    rw [value_congr (hstop _ rfl)] at hvalue
    exact .closes hvalue
  | completes hphase => exact .completes hphase

theorem Refuses.congr_text {before after : List Char} {phase : Phase} {token : Token}
    {fault : Fault} (h : Refuses (before ++ after) phase token fault)
    (hstop : token.DigitsEndBy (byteLength before)) (after' : List Char) :
    Refuses (before ++ after') phase token fault := by
  cases h with
  | overflow hphase hvalue =>
    refine .overflow hphase fun value => ?_
    rw [value_congr (hstop _ rfl)]
    exact hvalue value
  | noNumber hphase hkind => exact .noNumber hphase hkind
  | noComma hphase hcomma hseparator => exact .noComma hphase hcomma hseparator

/-- **Texts that begin alike are read alike,** as far as the tokens lie in the common part. -/
theorem Reaches.congr_text {before after : List Char} {phase next : Phase} {tokens : List Token}
    {items : List Item} (h : Reaches (before ++ after) phase tokens items next)
    (hstop : ∀ token ∈ tokens, token.DigitsEndBy (byteLength before)) (after' : List Char) :
    Reaches (before ++ after') phase tokens items next := by
  induction h with
  | refl => exact .refl
  | step hstep _ ih =>
    refine .step (hstep.congr_text (hstop _ List.mem_cons_self) after') (ih fun token htoken => ?_)
    exact hstop token (List.mem_cons_of_mem _ htoken)

end Phase

/-! ### Where the reading of a text stops -/

/-- `Stops cs e` holds when the reading of the text `cs` stops with the error `e`. -/
inductive Stops (cs : List Char) : Error → Prop
  /-- All tokens of `before` are taken. The next token has the characters `own`, and is refused. -/
  | atToken {before own after : List Char} {items : List Item} {next : Phase} {token : Token}
      {fault : Fault} (htext : cs = before ++ (own ++ after))
      (hreach : Phase.Reaches cs .start (Token.scan none 0 before) items next)
      (hown : token.Spells own) (hapart : Token.Apart before own)
      (hspan : token.span = ⟨byteLength before, byteLength before + byteLength own⟩)
      (htoken : token ∈ Token.scan none 0 cs) (hrefuses : next.Refuses cs token fault) :
      Stops cs ⟨fault, token.span⟩
  /-- All tokens are taken, and a number has to follow. -/
  | atEnd {items : List Item} {next : Phase}
      (hreach : Phase.Reaches cs .start (Token.scan none 0 cs) items next)
      (hnext : next.AwaitsNumber) (hstart : next ≠ .start) :
      Stops cs ⟨.endOfText, .point (byteLength cs)⟩

/-- **Every error arises where the reading stops.** -/
theorem stops_of_parse_error {text : String} {e : Error} (h : parse text = .error e) :
    Stops text.toList e := by
  rcases Phase.exists_reaches_of_run_error h with
    ⟨first, token, rest, items, next, htokens, hreach, hadvance⟩ | ⟨items, next, hreach, hfinish⟩
  · -- the text is cut at the token that is refused, whose span is then known
    obtain ⟨before, own, after, htext, rfl, hapart, hown, hspan⟩ :=
      Token.exists_split_of_scan htokens
    obtain ⟨fault, hrefuses, rfl⟩ := Phase.advance_eq_error_iff.mp hadvance
    rw [Nat.zero_add] at hspan
    refine .atToken htext hreach hown hapart hspan ?_ hrefuses
    show _ ∈ Token.ofText text
    rw [htokens]
    exact List.mem_append_right _ List.mem_cons_self
  · obtain ⟨hnext, hstart, rfl⟩ := Phase.finish_eq_error_iff.mp hfinish
    exact .atEnd hreach hnext hstart

end PageSelection.RangeList
