import PageSelection.Proofs.Checked.Basic
import PageSelection.Proofs.RangeList.Phase
import PageSelection.Proofs.Token.Cut

/-!
# Reading a text never fails

Reading adds up byte offsets, makes spans of them, joins spans, and subtracts the byte of `0` from
the bytes of a number. No offset may lie behind the end of the text, no span may end before it
begins, and no byte may be anything but a digit. The checked reader stops at the first violation.

* The scanner keeps two bounds: the start of the current run of digits does not lie behind its
  position, and its position together with what is left does not lie behind the end of the text
  (`scan_eq_some`).
* The reader of tokens needs to know of each number that it stands at digits (`StandsAtDigits`), and
  of the item that it holds that it does not begin behind any token to come (`Phase.Precedes`). The
  tokens of a text stand one behind another, so both hold at the start, and every step keeps them
  (`run_eq_some`).
-/

namespace PageSelection.Checked

open RangeList (Item Error Phase)
open Text (byteLength)

/-! ### Scanning -/

/-- The number whose digits began at `run` and have just ended, if there is such a run. -/
def flush (run : Option Nat) (pos : Nat) : Option (List Token) :=
  match run with
  | none => some []
  | some start => do
    let digits ← span? start pos
    return [.ofDigits digits]

/-- The tokens of a text whose first character stands at byte `pos`. No offset may lie behind
`limit`. -/
def scan (limit : Nat) (run : Option Nat) (pos : Nat) : List Char → Option (List Token)
  | [] => flush run pos
  | c :: cs => do
    let next ← offset? limit (pos + c.utf8Size)
    let mark (kind : Token.Kind) : Option (List Token) := do
      let ended ← flush run pos
      let span ← span? pos next
      let rest ← scan limit none next cs
      return ended ++ ⟨kind, span⟩ :: rest
    match CharClass.of c with
    | .digit => scan limit (some (run.getD pos)) next cs
    | .blank => do
      let ended ← flush run pos
      let rest ← scan limit none next cs
      return ended ++ rest
    | .separator m => mark (.separator m)
    | .comma => mark .comma
    | .other => mark (.unexpected c)

/-! ### Numbers -/

/-- Appends one digit to a number. There is no result if the number becomes too large. -/
def push (number : Int32) (byte : UInt8) : Option (Option Int32) :=
  match Numeral.fit? (number.toInt * 10) with
  | none => some none
  | some shifted => do
    let weight ← weight? byte
    return Numeral.fit? (shifted.toInt + weight)

/-- The number that a run of bytes spells behind the digits of `number`. -/
def numberFrom (number : Int32) : List UInt8 → Option (Option Int32)
  | [] => some (some number)
  | byte :: run => do
    match ← push number byte with
    | some next => numberFrom next run
    | none => return none

/-- The number that the digits of a token spell, which has the span `span` itself. -/
def value (text : List Char) (digits span : Span) : Option (Except Error Int32) := do
  let number ← match Text.slice? text digits.start digits.stop with
    | some run => numberFrom 0 (Text.bytes run)
    | none => some none
  return match number with
    | some value => .ok value
    | none => .error ⟨.overflow, span⟩

/-! ### Tokens -/

/-- Takes one token. Only numbers are computed with. -/
def advance (text : List Char) (phase : Phase) (token : Token) :
    Option (Except Error (Option Item × Phase)) :=
  match phase, token.kind with
  | .start, .number digits | .comma, .number digits => do
    let value ← value text digits token.span
    return value.map fun value => (none, .number ⟨.single value, token.span⟩)
  | .separator low, .number digits => do
    match ← value text digits token.span with
    | .ok high =>
      let span ← span? low.span.start token.span.stop
      return .ok (none, .range ⟨⟨low.bounds.low, high⟩, span⟩)
    | .error e => return .error e
  | phase, _ => some (phase.advance text token)

/-- Takes the end of the text. -/
def finish (text : List Char) (phase : Phase) : Option (Except Error (Option Item)) := do
  let stop ← span? (byteLength text) (byteLength text)
  return match phase with
    | .comma | .separator _ => .error ⟨.endOfText, stop⟩
    | phase => phase.finish text

/-- The items that the remaining tokens complete. -/
def run (text : List Char) (phase : Phase) : List Token → Option (Except Error (List Item))
  | [] => do
    let item ← finish text phase
    return item.map Option.toList
  | token :: tokens => do
    match ← advance text phase token with
    | .ok (item, next) =>
      let items ← run text next tokens
      return items.map (item.toList ++ ·)
    | .error e => return .error e

/-- The items of a range list. -/
def parse (text : String) : Option (Except Error (List Item)) := do
  let tokens ← scan (byteLength text.toList) none 0 text.toList
  run text.toList .start tokens

/-! ### No step fails -/

theorem flush_eq_some {run : Option Nat} {pos : Nat} (hrun : ∀ start ∈ run, start ≤ pos) :
    flush run pos = some (Token.flush run pos) := by
  cases run with
  | none => rfl
  | some start =>
    simp only [flush, span?_of_le (hrun start rfl)]
    rfl

/-- **Scanning never fails,** as long as the text does not reach behind the limit. -/
theorem scan_eq_some {limit : Nat} {run : Option Nat} {pos : Nat} {cs : List Char}
    (hrun : ∀ start ∈ run, start ≤ pos) (hlimit : pos + byteLength cs ≤ limit) :
    scan limit run pos cs = some (Token.scan run pos cs) := by
  induction cs generalizing run pos with
  | nil => exact flush_eq_some hrun
  | cons c cs ih =>
    rw [Text.byteLength_cons, ← Nat.add_assoc] at hlimit
    have hnext : offset? limit (pos + c.utf8Size) = some (pos + c.utf8Size) :=
      offset?_of_le (Nat.le_trans (Nat.le_add_right _ _) hlimit)
    have hspan : span? pos (pos + c.utf8Size) = some ⟨pos, pos + c.utf8Size⟩ :=
      span?_of_le (Nat.le_add_right _ _)
    have hrest : scan limit none (pos + c.utf8Size) cs =
        some (Token.scan none (pos + c.utf8Size) cs) := ih nofun hlimit
    rw [scan, Token.scan, hnext]
    cases CharClass.of c with
    | digit =>
      -- the run has begun in front of the digit, or begins with it
      refine ih (fun start hstart => ?_) hlimit
      obtain rfl : run.getD pos = start := by simpa using hstart
      cases run with
      | none => exact Nat.le_add_right _ _
      | some start => exact Nat.le_add_right_of_le (hrun start rfl)
    | blank => simp [flush_eq_some hrun, hrest]
    | separator m => simp [flush_eq_some hrun, hrest, hspan]
    | comma => simp [flush_eq_some hrun, hrest, hspan]
    | other => simp [flush_eq_some hrun, hrest, hspan]

/-- **Adding up digits never fails.** -/
theorem numberFrom_eq_some {bytes : List UInt8} (h : ∀ byte ∈ bytes, IsDigitByte byte)
    (number : Int32) : numberFrom number bytes = some (bytes.foldlM Numeral.push? number) := by
  induction bytes generalizing number with
  | nil => rfl
  | cons byte bytes ih =>
    have hpush : push number byte = some (Numeral.push? number byte) := by
      unfold push Numeral.push?
      cases Numeral.fit? (number.toInt * 10) with
      | none => rfl
      | some shifted =>
        simp only [weight?_of_isDigitByte (h byte List.mem_cons_self)]
        rfl
    rw [numberFrom, hpush, List.foldlM_cons]
    -- a number that is too large ends both computations
    cases Numeral.push? number byte with
    | none => rfl
    | some next => exact ih (fun b hb => h b (List.mem_cons_of_mem byte hb)) next

/-- If the token is a number, decimal digits stand under the span of its digits. -/
def StandsAtDigits (text : List Char) (token : Token) : Prop :=
  ∀ digits, token.kind = .number digits →
    ∃ ds, Text.slice? text digits.start digits.stop = some ds ∧ ∀ d ∈ ds, d.isDigit = true

theorem value_eq_some {text : List Char} {digits span : Span}
    (h : StandsAtDigits text ⟨.number digits, span⟩) :
    value text digits span = some (Phase.value text digits span) := by
  obtain ⟨ds, hslice, hdigits⟩ := h digits rfl
  have hnumber : numberFrom 0 (Text.bytes ds) = some (Numeral.ofBytes? (Text.bytes ds)) :=
    numberFrom_eq_some (fun byte hbyte => isDigitByte_of_mem_bytes hdigits hbyte) 0
  simp only [value, Phase.value, Numeral.value?, hslice, hnumber, Option.bind_eq_bind,
    Option.bind_some]
  rfl

/-- The item that a lone number or a lower bound opens does not begin behind any of the tokens to
come. -/
def Precedes (phase : Phase) (tokens : List Token) : Prop :=
  ∀ item, phase = .number item ∨ phase = .separator item →
    ∀ token ∈ tokens, item.span.start ≤ token.span.stop

/-- **A step never fails** if its token stands at digits, or is no number, and if the item that it
may close does not begin behind it. -/
theorem advance_eq_some {text : List Char} {phase : Phase} {token : Token} {tokens : List Token}
    (hdigits : StandsAtDigits text token) (hphase : Precedes phase (token :: tokens)) :
    advance text phase token = some (phase.advance text token) := by
  obtain ⟨kind, span⟩ := token
  cases kind with
  | number digits =>
    -- both readers look at the same number, and go on in the same way if it fits
    have hvalue := value_eq_some hdigits
    cases phase with
    | start =>
      simp only [advance, Phase.advance, hvalue]
      cases Phase.value text digits span <;> rfl
    | comma =>
      simp only [advance, Phase.advance, hvalue]
      cases Phase.value text digits span <;> rfl
    | separator low =>
      have hspan : span? low.span.start span.stop = some (low.span.join span) :=
        span?_of_le (hphase low (.inr rfl) _ List.mem_cons_self)
      simp only [advance, Phase.advance, hvalue, hspan]
      cases Phase.value text digits span <;> rfl
    | number item => rfl
    | range item => rfl
  | separator mark => cases phase <;> rfl
  | comma => cases phase <;> rfl
  | unexpected c => cases phase <;> rfl

theorem finish_eq_some (text : List Char) (phase : Phase) :
    finish text phase = some (phase.finish text) := by
  simp only [finish, span?_of_le (Nat.le_refl _)]
  cases phase <;> rfl

/-- The items that are open after a step do not begin behind any of the tokens to come. -/
theorem Precedes.advances {text : List Char} {phase next : Phase} {token : Token}
    {tokens : List Token} {out : Option Item} (hphase : Precedes phase (token :: tokens))
    (htokens : ∀ t ∈ tokens, token.span.start ≤ t.span.stop)
    (hstep : Phase.Advances text phase token out next) : Precedes next tokens := by
  intro item hitem t ht
  cases hstep with
  | opens _ _ =>
    rcases hitem with hitem | hitem
    · cases hitem
      exact htokens t ht
    · cases hitem
  | separates =>
    rcases hitem with hitem | hitem
    · cases hitem
    · cases hitem
      exact hphase _ (.inl rfl) t (List.mem_cons_of_mem _ ht)
  | closes _ => rcases hitem with hitem | hitem <;> cases hitem
  | completes _ => rcases hitem with hitem | hitem <;> cases hitem

/-- **A run never fails.** -/
theorem run_eq_some {text : List Char} {phase : Phase} {tokens : List Token}
    (hdigits : ∀ token ∈ tokens, StandsAtDigits text token)
    (horder : tokens.Pairwise fun token next => token.span.start ≤ next.span.stop)
    (hphase : Precedes phase tokens) : run text phase tokens = some (phase.run text tokens) := by
  induction tokens generalizing phase with
  | nil =>
    simp only [run, finish_eq_some, Phase.run]
    cases phase.finish text <;> rfl
  | cons token tokens ih =>
    obtain ⟨htoken, horder⟩ := List.pairwise_cons.mp horder
    have hadvance := advance_eq_some (hdigits token List.mem_cons_self) hphase
    simp only [run, Phase.run, hadvance]
    cases hstep : phase.advance text token with
    | error e => rfl
    | ok result =>
      obtain ⟨out, next⟩ := result
      have hnext := hphase.advances htoken (Phase.advance_eq_ok_iff.mp hstep)
      have hrest := ih (fun t ht => hdigits t (List.mem_cons_of_mem token ht)) horder hnext
      simp only [Option.bind_eq_bind, Option.bind_some, hrest]
      show some _ = some (next.run text tokens >>= fun items => .ok (out.toList ++ items))
      cases next.run text tokens <;> rfl

/-- The tokens of a text stand at digits where they are numbers. -/
theorem standsAtDigits_of_mem {cs : List Char} {token : Token}
    (h : token ∈ Token.scan none 0 cs) : StandsAtDigits cs token := by
  obtain ⟨first, rest, htokens⟩ := List.append_of_mem h
  obtain ⟨before, own, after, rfl, -, -, hown, hspan⟩ := Token.exists_split_of_scan htokens
  intro digits hnumber
  obtain ⟨kind, span⟩ := token
  obtain rfl : kind = .number digits := hnumber
  obtain ⟨rfl, -, hdigits⟩ := hown.of_number
  rw [show digits = _ from hspan, Nat.zero_add]
  exact ⟨own, Text.slice?_middle before own after, hdigits⟩

/-- No token of a text begins behind the end of a later one. -/
theorem pairwise_start_le_stop (cs : List Char) :
    (Token.scan none 0 cs).Pairwise fun token next => token.span.start ≤ next.span.stop := by
  have horder : ∀ token ∈ Token.scan none 0 cs, token.span.start ≤ token.span.stop := by
    intro token htoken
    obtain ⟨first, rest, htokens⟩ := List.append_of_mem htoken
    obtain ⟨before, own, after, -, -, -, -, hspan⟩ := Token.exists_split_of_scan htokens
    rw [hspan]
    exact Nat.le_add_right _ _
  refine (Token.pairwise_scan 0 cs).imp_of_mem fun {token next} htoken hnext h => ?_
  calc token.span.start ≤ token.span.stop := horder token htoken
    _ ≤ next.span.start := h
    _ ≤ next.span.stop := horder next hnext

/-- The tokens of a text are found without a failure. -/
theorem scan_byteLength (cs : List Char) :
    scan (byteLength cs) none 0 cs = some (Token.scan none 0 cs) :=
  scan_eq_some nofun (Nat.le_of_eq (Nat.zero_add _))

/-- **Reading a text never fails.** The result is that of the reader without checks, be it a list of
items or an error. -/
theorem parse_eq_some (text : String) : parse text = some (RangeList.parse text) := by
  unfold parse RangeList.parse
  rw [scan_byteLength]
  exact run_eq_some (fun token htoken => standsAtDigits_of_mem htoken)
    (pairwise_start_le_stop text.toList) (by rintro item (hitem | hitem) <;> cases hitem)

end PageSelection.Checked
