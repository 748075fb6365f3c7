import PageSelection.Proofs.Token.Division

/-!
# Cutting a text between tokens

The only token that a text can prolong is a number at its end. So wherever two texts are joined
without putting two digits side by side (`Apart`), the scanner finds the tokens of the first text
and then those of the second (`scan_append`).

`Spells` says which characters make up a token, and that the digits of a number are all of it. A
text can be cut in front of any of its tokens, and behind it (`exists_split_of_scan`): what stands
before the token scans to the tokens before it, and nothing of the token has been cut off.
Conversely, a text that begins with a mark begins with that token, whatever follows (`scan_mark`),
and one that begins with digits begins with a number, which may be longer (`exists_scan_of_digits`).
-/

namespace PageSelection.Token

open Text

/-! ### Joining two texts -/

/-- The two texts can be joined without putting two digits side by side. -/
def Apart (before after : List Char) : Prop :=
  ∀ c ∈ before.getLast?, ∀ d ∈ after.head?, ¬ (c.isDigit = true ∧ d.isDigit = true)

theorem apart_nil (after : List Char) : Apart [] after := nofun

theorem apart_of_noDigit (before : List Char) {after : List Char} (h : NoDigit after) :
    Apart before after := by
  intro c _ d hd hdigits
  rw [h d hd] at hdigits
  exact Bool.false_ne_true hdigits.2

/-- Behind a character that is no digit, any text can stand. -/
theorem apart_of_not_isDigit {c : Char} (h : c.isDigit = false) (after : List Char) :
    Apart [c] after := by
  intro c' hc' d _ hdigits
  obtain rfl : c = c' := by simpa using hc'
  rw [h] at hdigits
  exact Bool.false_ne_true hdigits.1

/-- Only the first character of the second text matters. -/
theorem Apart.append_right {before own : List Char} (h : Apart before own) (hne : own ≠ [])
    (after : List Char) : Apart before (own ++ after) := by
  obtain ⟨d, own, rfl⟩ := List.exists_cons_of_ne_nil hne
  exact h

/-- Only the last character of the first text matters. In front of a text that is not empty,
another one can stand; in front of an empty one, the two have to be apart themselves. -/
theorem Apart.append_left {first before after : List Char} (h : Apart before after)
    (hfirst : before = [] → Apart first after) : Apart (first ++ before) after := by
  cases hlast : before.getLast? with
  | none =>
    obtain rfl := List.getLast?_eq_none_iff.mp hlast
    rw [List.append_nil]
    exact hfirst rfl
  | some c =>
    intro c' hc'
    rw [List.getLast?_append, hlast, Option.some_or] at hc'
    exact h c' (hlast.trans hc')

/-- A digit prolongs the run of digits in front of it, or opens one. -/
theorem scan_cons_of_isDigit {c : Char} (h : c.isDigit = true) (run : Option Nat) (pos : Nat)
    (cs : List Char) :
    scan run pos (c :: cs) = scan (some (run.getD pos)) (pos + c.utf8Size) cs := by
  rw [scan, CharClass.of_eq_digit_iff.mpr h]

/-- A character that is no digit is scanned apart from what follows it. -/
theorem scan_cons_of_not_isDigit {c : Char} (h : c.isDigit = false) (run : Option Nat) (pos : Nat)
    (cs : List Char) :
    scan run pos (c :: cs) = scan run pos [c] ++ scan none (pos + c.utf8Size) cs := by
  rw [scan_eq_flush_append (noDigit_cons h cs), scan_eq_flush_append (noDigit_cons h []),
    List.append_assoc]
  congr 1
  rcases Kind.ofChar?_cases c with hblank | hdigit | ⟨kind, hkind⟩
  · rw [scan_blank hblank, scan_blank hblank]
    rfl
  · rw [h] at hdigit
    cases hdigit
  · rw [scan_mark hkind, scan_mark hkind]
    rfl

/-- A text that goes on without a digit is scanned from there on afresh. -/
theorem scan_append_of_noDigit {after : List Char} (h : NoDigit after) (run : Option Nat)
    (pos : Nat) (before : List Char) :
    scan run pos (before ++ after) =
      scan run pos before ++ scan none (pos + byteLength before) after := by
  -- a run of digits may be open at any point of the first text, so the induction carries it
  induction before generalizing run pos with
  | nil => exact scan_eq_flush_append h run pos
  | cons c before ih =>
    rw [List.cons_append, byteLength_cons, ← Nat.add_assoc]
    by_cases hdigit : c.isDigit = true
    · rw [scan_cons_of_isDigit hdigit, scan_cons_of_isDigit hdigit, ih]
    · have hc : c.isDigit = false := Bool.eq_false_iff.mpr hdigit
      rw [scan_cons_of_not_isDigit hc, ih, ← List.append_assoc, ← scan_cons_of_not_isDigit hc]

/-- **Joining two texts.** Apart from each other, they have the tokens of the one and then those of
the other. -/
theorem scan_append {before after : List Char} (h : Apart before after) (pos : Nat) :
    scan none pos (before ++ after) =
      scan none pos before ++ scan none (pos + byteLength before) after := by
  rcases List.eq_nil_or_concat before with rfl | ⟨init, c, rfl⟩
  · rfl
  · by_cases hdigit : c.isDigit = true
    · -- behind a digit there is none, and so the run of digits ends here
      refine scan_append_of_noDigit ?_ none pos _
      intro d hd
      rw [← Bool.not_eq_true]
      intro hd'
      exact h c (by simp) d hd ⟨hdigit, hd'⟩
    · -- the last character is no digit, so that nothing runs on from it, nor into it
      have hc : c.isDigit = false := Bool.eq_false_iff.mpr hdigit
      rw [List.concat_eq_append, List.append_assoc, List.singleton_append,
        scan_append_of_noDigit (noDigit_cons hc after),
        scan_append_of_noDigit (noDigit_cons hc []), scan_cons_of_not_isDigit hc,
        byteLength_append, List.append_assoc, ← Nat.add_assoc]
      rfl

/-! ### The characters of a token -/

/-- `token.Spells own` holds when the characters `own` are those of such a token. -/
inductive Spells : Token → List Char → Prop
  | number {digits : Span} {ds : List Char} (hne : ds ≠ [])
      (hdigits : ∀ d ∈ ds, d.isDigit = true) : Spells (.ofDigits digits) ds
  | mark {c : Char} {kind : Kind} {span : Span} (hkind : Kind.ofChar? c = some kind) :
      Spells ⟨kind, span⟩ [c]

theorem Spells.ne_nil {token : Token} {own : List Char} (h : token.Spells own) : own ≠ [] := by
  cases h with
  | number hne _ => exact hne
  | mark _ => exact List.cons_ne_nil _ _

/-- A number is made of digits, all of which are its digits. -/
theorem Spells.of_number {digits span : Span} {ds : List Char}
    (h : Spells ⟨.number digits, span⟩ ds) :
    digits = span ∧ ds ≠ [] ∧ ∀ d ∈ ds, d.isDigit = true := by
  cases h with
  | number hne hdigits => exact ⟨rfl, hne, hdigits⟩
  | mark hkind => exact absurd hkind (Kind.ofChar?_ne_number _ _)

/-- There is no blank inside a token. -/
theorem Spells.not_isBlank {token : Token} {own : List Char} (h : token.Spells own) {c : Char}
    (hc : c ∈ own) : isBlank c = false := by
  rw [Bool.eq_false_iff]
  intro hblank
  cases h with
  | number _ hdigits => exact CharClass.not_isDigit_of_isBlank hblank (hdigits c hc)
  | mark hkind =>
    obtain rfl := List.mem_singleton.mp hc
    unfold Kind.ofChar? at hkind
    rw [CharClass.of_eq_blank_iff.mpr hblank] at hkind
    cases hkind

/-- **Digits and more.** A text that begins with digits begins with a number, which goes on as long
as digits do. -/
theorem exists_scan_of_digits {ds : List Char} (hne : ds ≠ [])
    (hdigits : ∀ d ∈ ds, d.isDigit = true) (pos : Nat) (after : List Char) :
    ∃ more rest, after = more ++ rest ∧ (∀ d ∈ ds ++ more, d.isDigit = true) ∧
      scan none pos (ds ++ after) =
        .ofDigits ⟨pos, pos + byteLength (ds ++ more)⟩ ::
          scan none (pos + byteLength (ds ++ more)) rest := by
  have hmore : ∀ d ∈ ds ++ after.takeWhile Char.isDigit, d.isDigit = true := by
    intro d hd
    rcases List.mem_append.mp hd with hd | hd
    · exact hdigits d hd
    · exact List.all_eq_true.mp List.all_takeWhile d hd
  have hend : NoDigit (after.dropWhile Char.isDigit) := by
    intro d hd
    have hhead := List.head?_dropWhile_not Char.isDigit after
    rw [hd] at hhead
    exact hhead
  refine ⟨_, _, List.takeWhile_append_dropWhile.symm, hmore, ?_⟩
  rw [← scan_number (List.append_ne_nil_of_left_ne_nil hne _) hmore hend, List.append_assoc,
    List.takeWhile_append_dropWhile]

/-- **A text at one of its tokens.** The text divides into what precedes the token, the characters
of the token, and what follows it. The first part has the tokens before this one, and does not end
in the middle of a number. -/
theorem exists_split_of_scan {pos : Nat} {cs : List Char} {first rest : List Token} {token : Token}
    (h : scan none pos cs = first ++ token :: rest) :
    ∃ before own after, cs = before ++ (own ++ after) ∧ scan none pos before = first ∧
      Apart before own ∧ token.Spells own ∧
      token.span = ⟨pos + byteLength before, pos + byteLength before + byteLength own⟩ := by
  -- follow the division of the text until the token is reached
  have hdivides := divides_scan pos cs
  generalize scan none pos cs = tokens at h hdivides
  induction hdivides generalizing first with
  | nil => exact absurd h (List.append_ne_nil_of_right_ne_nil _ (List.cons_ne_nil _ _)).symm
  | @blank pos c cs tokens hblank _ ih =>
    obtain ⟨before, own, after, rfl, hfirst, hapart, hspells, hspan⟩ := ih h
    have hc : c.isDigit = false := Bool.eq_false_iff.mpr (CharClass.not_isDigit_of_isBlank hblank)
    refine ⟨c :: before, own, after, rfl, ?_,
      hapart.append_left fun _ => apart_of_not_isDigit hc own, hspells, ?_⟩
    · rw [scan_blank hblank, hfirst]
    · rw [hspan, byteLength_cons, Nat.add_assoc pos]
  | @number pos ds cs tokens hne hdigits hend _ ih =>
    cases first with
    | nil =>
      -- the token is this number
      cases h
      exact ⟨[], ds, cs, rfl, rfl, apart_nil _, .number hne hdigits, rfl⟩
    | cons token' first =>
      cases h
      obtain ⟨before, own, after, rfl, hfirst, hapart, hspells, hspan⟩ := ih rfl
      -- no digit follows the number, be it in front of the token or the first of it
      have hnone : NoDigit before := by
        cases before with
        | nil => exact noDigit_nil
        | cons c before => exact hend
      have hds : before = [] → Apart ds own := by
        rintro rfl
        obtain ⟨c, own, rfl⟩ := List.exists_cons_of_ne_nil hspells.ne_nil
        exact apart_of_noDigit ds hend
      refine ⟨ds ++ before, own, after, ?_, ?_, hapart.append_left hds, hspells, ?_⟩
      · rw [List.append_assoc]
      · rw [scan_number hne hdigits hnone, hfirst]
      · rw [hspan, byteLength_append, Nat.add_assoc pos]
  | @mark pos c cs kind tokens hkind _ ih =>
    cases first with
    | nil =>
      -- the token is this character
      cases h
      exact ⟨[], [c], cs, rfl, rfl, apart_nil _, .mark hkind, rfl⟩
    | cons token' first =>
      cases h
      obtain ⟨before, own, after, rfl, hfirst, hapart, hspells, hspan⟩ := ih rfl
      have hc : c.isDigit = false := Kind.not_isDigit_of_ofChar? hkind
      refine ⟨c :: before, own, after, rfl, ?_,
        hapart.append_left fun _ => apart_of_not_isDigit hc own, hspells, ?_⟩
      · rw [scan_mark hkind, hfirst]
      · rw [hspan, byteLength_cons, Nat.add_assoc pos]

/-- The digits of a number are all that it covers. -/
theorem digits_eq_of_mem_scan {pos : Nat} {cs : List Char} {digits span : Span}
    (h : ⟨.number digits, span⟩ ∈ scan none pos cs) : digits = span := by
  obtain ⟨first, rest, htokens⟩ := List.append_of_mem h
  obtain ⟨before, own, after, -, -, -, hspells, -⟩ := exists_split_of_scan htokens
  exact hspells.of_number.1

/-- Every token has characters. -/
theorem start_lt_stop_of_mem_scan {pos : Nat} {cs : List Char} {token : Token}
    (h : token ∈ scan none pos cs) : token.span.start < token.span.stop := by
  obtain ⟨first, rest, htokens⟩ := List.append_of_mem h
  obtain ⟨before, own, after, -, -, -, hspells, hspan⟩ := exists_split_of_scan htokens
  rw [hspan]
  exact Nat.lt_add_of_pos_right (byteLength_pos hspells.ne_nil)

/-- No token reaches beyond the end of the text. -/
theorem stop_le_of_mem_scan {pos : Nat} {cs : List Char} {token : Token}
    (h : token ∈ scan none pos cs) : token.span.stop ≤ pos + byteLength cs := by
  obtain ⟨first, rest, htokens⟩ := List.append_of_mem h
  obtain ⟨before, own, after, rfl, -, -, -, hspan⟩ := exists_split_of_scan htokens
  rw [hspan, byteLength_append, byteLength_append, ← Nat.add_assoc, ← Nat.add_assoc]
  exact Nat.le_add_right _ _

/-- If the token is a number, its digits end at `stop` or in front of it. -/
def DigitsEndBy (token : Token) (stop : Nat) : Prop :=
  ∀ digits, token.kind = .number digits → digits.stop ≤ stop

theorem digitsEndBy_of_mem_scan {pos : Nat} {cs : List Char} {token : Token}
    (h : token ∈ scan none pos cs) : token.DigitsEndBy (pos + byteLength cs) := by
  rintro digits hkind
  obtain ⟨kind, span⟩ := token
  obtain rfl : kind = .number digits := hkind
  rw [digits_eq_of_mem_scan h]
  exact stop_le_of_mem_scan h

/-- No token begins in front of the text. -/
theorem le_start_of_mem_scan {pos : Nat} {cs : List Char} {token : Token}
    (h : token ∈ scan none pos cs) : pos ≤ token.span.start := by
  obtain ⟨first, rest, htokens⟩ := List.append_of_mem h
  obtain ⟨before, own, after, -, -, -, -, hspan⟩ := exists_split_of_scan htokens
  rw [hspan]
  exact Nat.le_add_right _ _

/-- **Tokens stand one behind another.** Each of them ends before those that follow it begin. -/
theorem pairwise_scan (pos : Nat) (cs : List Char) :
    (scan none pos cs).Pairwise fun token next => token.span.stop ≤ next.span.start := by
  -- what follows a token is the scan of a text that begins where the token ends
  have hdivides := divides_scan pos cs
  generalize scan none pos cs = tokens at hdivides
  induction hdivides with
  | nil => exact .nil
  | blank _ _ ih => exact ih
  | number _ _ _ hrest ih =>
    rw [hrest.eq_scan] at ih ⊢
    exact .cons (fun token htoken => le_start_of_mem_scan htoken) ih
  | mark _ hrest ih =>
    rw [hrest.eq_scan] at ih ⊢
    exact .cons (fun token htoken => le_start_of_mem_scan htoken) ih

/-- The last token of a text that ends with a digit is a number. -/
theorem exists_scan_concat_digit {d : Char} (h : d.isDigit = true) (run : Option Nat) (pos : Nat)
    (cs : List Char) :
    ∃ tokens digits, scan run pos (cs ++ [d]) = tokens ++ [.ofDigits digits] := by
  induction cs generalizing run pos with
  | nil =>
    rw [List.nil_append, scan_cons_of_isDigit h]
    exact ⟨[], _, rfl⟩
  | cons c cs ih =>
    rw [List.cons_append]
    by_cases hdigit : c.isDigit = true
    · rw [scan_cons_of_isDigit hdigit]
      exact ih _ _
    · -- any other character only adds tokens in front
      rw [scan_cons_of_not_isDigit (Bool.eq_false_iff.mpr hdigit)]
      obtain ⟨tokens, digits, hscan⟩ := ih none (pos + c.utf8Size)
      exact ⟨scan run pos [c] ++ tokens, digits, by rw [hscan, List.append_assoc]⟩

end PageSelection.Token
