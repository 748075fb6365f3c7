import Mathlib.Tactic.ByContra
import PageSelection.Proofs.Numeral
import PageSelection.Token.Lexer

/-!
# How a text divides into tokens

`Token.scan` carries the start of a run of digits from character to character. `Token.Divides`
describes its result without such a state: a text begins with a blank, which is no token; or with a
run of digits that no further digit follows, which is a number; or with one character of another
class, which is a token by itself. The rest divides in the same way.

* `scan_blanks`, `scan_number` and `scan_mark` are the equations of the scanner at each of these
  beginnings.
* `divides_scan` says that the scanner divides every text, and `Divides.eq_scan` that a text divides
  in no other way, so that `Divides` is the scanner read as a relation.
-/

namespace PageSelection

namespace CharClass

theorem of_eq_digit_iff {c : Char} : of c = .digit ↔ c.isDigit = true := by
  unfold of
  constructor
  · intro h
    by_contra hdigit
    rw [if_neg hdigit] at h
    split at h
    · cases h
    · split at h <;> cases h
  · intro h
    rw [if_pos h]

/-- No digit is blank: the table of white space has no code point between those of the digits. -/
theorem not_isDigit_of_isBlank {c : Char} (h : Text.isBlank c = true) : ¬ c.isDigit = true := by
  intro hdigit
  have hbounds := Char.isDigit_iff_toNat.mp hdigit
  have hzero : '0'.toNat = 48 := rfl
  have hnine : '9'.toNat = 57 := rfl
  rw [hzero, hnine] at hbounds
  simp only [Text.isBlank, Text.whiteSpace, Text.CodeRanges.contains, List.any_cons, List.any_nil,
    Bool.or_eq_true, Bool.and_eq_true, decide_eq_true_eq, Bool.or_false] at h
  omega

theorem of_eq_blank_iff {c : Char} : of c = .blank ↔ Text.isBlank c = true := by
  unfold of
  constructor
  · intro h
    split at h
    · cases h
    · by_contra hblank
      rw [if_neg hblank] at h
      split at h <;> cases h
  · intro h
    rw [if_neg (not_isDigit_of_isBlank h), if_pos h]

@[simp] theorem of_separator (mark : Separator) : of mark.char = .separator mark := by
  cases mark <;> decide

@[simp] theorem of_comma : of ',' = .comma := by decide

theorem eq_char_of_eq_separator {c : Char} {mark : Separator} (h : of c = .separator mark) :
    c = mark.char := by
  unfold of at h
  split at h
  · cases h
  · split at h
    · cases h
    · split at h <;> cases h <;> rfl

theorem eq_of_eq_comma {c : Char} (h : of c = .comma) : c = ',' := by
  unfold of at h
  split at h
  · cases h
  · split at h
    · cases h
    · split at h <;> cases h
      rfl

end CharClass

namespace Token

/-! ### The equations of the scanner -/

/-- The token that a character is by itself. Digits and blanks are none. -/
def Kind.ofChar? (c : Char) : Option Kind :=
  match CharClass.of c with
  | .digit | .blank => none
  | .separator mark => some (.separator mark)
  | .comma => some .comma
  | .other => some (.unexpected c)

@[simp] theorem Kind.ofChar?_separator (mark : Separator) :
    ofChar? mark.char = some (.separator mark) := by
  unfold ofChar?
  rw [CharClass.of_separator]

@[simp] theorem Kind.ofChar?_comma : ofChar? ',' = some .comma := by
  unfold ofChar?
  rw [CharClass.of_comma]

/-- A character is blank, a digit, or a token by itself. -/
theorem Kind.ofChar?_cases (c : Char) :
    Text.isBlank c = true ∨ c.isDigit = true ∨ ∃ kind, ofChar? c = some kind := by
  unfold ofChar?
  cases hclass : CharClass.of c with
  | digit => exact .inr (.inl (CharClass.of_eq_digit_iff.mp hclass))
  | blank => exact .inl (CharClass.of_eq_blank_iff.mp hclass)
  | separator mark => exact .inr (.inr ⟨_, rfl⟩)
  | comma => exact .inr (.inr ⟨_, rfl⟩)
  | other => exact .inr (.inr ⟨_, rfl⟩)

/-- A character that is a token by itself is no digit. -/
theorem Kind.not_isDigit_of_ofChar? {c : Char} {kind : Kind} (h : ofChar? c = some kind) :
    c.isDigit = false := by
  rw [Bool.eq_false_iff]
  intro hdigit
  unfold ofChar? at h
  rw [CharClass.of_eq_digit_iff.mpr hdigit] at h
  cases h

/-- A number is more than one character by itself. -/
theorem Kind.ofChar?_ne_number (c : Char) (digits : Span) : ofChar? c ≠ some (.number digits) := by
  unfold ofChar?
  cases CharClass.of c <;> nofun

theorem Kind.eq_char_of_ofChar? {c : Char} {mark : Separator}
    (h : ofChar? c = some (.separator mark)) : c = mark.char := by
  unfold ofChar? at h
  split at h <;> cases h
  exact CharClass.eq_char_of_eq_separator ‹_›

theorem Kind.eq_comma_of_ofChar? {c : Char} (h : ofChar? c = some .comma) : c = ',' := by
  unfold ofChar? at h
  split at h <;> cases h
  exact CharClass.eq_of_eq_comma ‹_›

/-- A text that does not go on with a digit, so that a number in front of it ends there. -/
def NoDigit (cs : List Char) : Prop := ∀ c ∈ cs.head?, c.isDigit = false

@[simp] theorem noDigit_nil : NoDigit [] := nofun

theorem noDigit_cons {c : Char} (h : c.isDigit = false) (cs : List Char) : NoDigit (c :: cs) := by
  intro c' hc'
  obtain rfl : c = c' := by simpa using hc'
  exact h

/-- Where no digit follows, a run of digits is emitted. -/
theorem scan_eq_flush_append {cs : List Char} (h : NoDigit cs) (run : Option Nat) (pos : Nat) :
    scan run pos cs = flush run pos ++ scan none pos cs := by
  cases cs with
  | nil => simp [scan, flush]
  | cons c cs =>
    cases hclass : CharClass.of c with
    | digit =>
      -- this is what the hypothesis excludes
      have hdigit := CharClass.of_eq_digit_iff.mp hclass
      rw [h c rfl] at hdigit
      cases hdigit
    | blank => simp [scan, hclass, flush]
    | separator mark => simp [scan, hclass, flush]
    | comma => simp [scan, hclass, flush]
    | other => simp [scan, hclass, flush]

/-- Digits prolong the run that they are in. -/
theorem scan_digits {ds : List Char} (h : ∀ d ∈ ds, d.isDigit = true) (start pos : Nat)
    (cs : List Char) :
    scan (some start) pos (ds ++ cs) = scan (some start) (pos + Text.byteLength ds) cs := by
  induction ds generalizing pos with
  | nil => rfl
  | cons d ds ih =>
    have hclass := CharClass.of_eq_digit_iff.mpr (h d List.mem_cons_self)
    rw [List.cons_append, scan, hclass]
    change scan (some start) (pos + d.utf8Size) (ds ++ cs) = _
    rw [ih (fun d' hd' => h d' (List.mem_cons_of_mem d hd')), Text.byteLength_cons, Nat.add_assoc]

/-- **A number.** A run of digits that no further digit follows is one token. -/
theorem scan_number {ds cs : List Char} (hne : ds ≠ []) (h : ∀ d ∈ ds, d.isDigit = true)
    (hcs : NoDigit cs) (pos : Nat) :
    scan none pos (ds ++ cs) =
      .ofDigits ⟨pos, pos + Text.byteLength ds⟩ :: scan none (pos + Text.byteLength ds) cs := by
  -- the first digit opens the run, the others prolong it, and then it is emitted
  obtain ⟨d, ds, rfl⟩ := List.exists_cons_of_ne_nil hne
  have hclass := CharClass.of_eq_digit_iff.mpr (h d List.mem_cons_self)
  rw [List.cons_append, scan, hclass]
  change scan (some pos) (pos + d.utf8Size) (ds ++ cs) = _
  rw [scan_digits (fun d' hd' => h d' (List.mem_cons_of_mem d hd')), scan_eq_flush_append hcs,
    Text.byteLength_cons, Nat.add_assoc]
  rfl

/-- A blank is no token. -/
theorem scan_blank {c : Char} (h : Text.isBlank c = true) (pos : Nat) (cs : List Char) :
    scan none pos (c :: cs) = scan none (pos + c.utf8Size) cs := by
  rw [scan, CharClass.of_eq_blank_iff.mpr h]
  rfl

/-- **Blanks.** Any number of blanks is skipped. -/
theorem scan_blanks {gap : List Char} (h : ∀ c ∈ gap, Text.isBlank c = true) (pos : Nat)
    (cs : List Char) :
    scan none pos (gap ++ cs) = scan none (pos + Text.byteLength gap) cs := by
  induction gap generalizing pos with
  | nil => rfl
  | cons c gap ih =>
    rw [List.cons_append, scan_blank (h c List.mem_cons_self),
      ih (fun c' hc' => h c' (List.mem_cons_of_mem c hc')), Text.byteLength_cons, Nat.add_assoc]

/-- **A mark.** A character of any other class is one token. -/
theorem scan_mark {c : Char} {kind : Kind} (h : Kind.ofChar? c = some kind) (pos : Nat)
    (cs : List Char) :
    scan none pos (c :: cs) =
      ⟨kind, ⟨pos, pos + c.utf8Size⟩⟩ :: scan none (pos + c.utf8Size) cs := by
  unfold Kind.ofChar? at h
  rw [scan]
  cases hclass : CharClass.of c with
  | digit => rw [hclass] at h; cases h
  | blank => rw [hclass] at h; cases h
  | separator mark => rw [hclass] at h; cases h; rfl
  | comma => rw [hclass] at h; cases h; rfl
  | other => rw [hclass] at h; cases h; rfl

/-! ### The division of a text -/

/-- `Divides pos cs tokens` holds when the text `cs`, which begins at byte `pos`, consists of
blanks and of the given tokens. -/
inductive Divides : Nat → List Char → List Token → Prop
  /-- The empty text has no tokens. -/
  | nil {pos : Nat} : Divides pos [] []
  /-- A blank is skipped. -/
  | blank {pos : Nat} {c : Char} {cs : List Char} {tokens : List Token}
      (hblank : Text.isBlank c = true) (hrest : Divides (pos + c.utf8Size) cs tokens) :
      Divides pos (c :: cs) tokens
  /-- Digits that no further digit follows are a number. -/
  | number {pos : Nat} {ds cs : List Char} {tokens : List Token} (hne : ds ≠ [])
      (hdigits : ∀ d ∈ ds, d.isDigit = true) (hend : NoDigit cs)
      (hrest : Divides (pos + Text.byteLength ds) cs tokens) :
      Divides pos (ds ++ cs) (.ofDigits ⟨pos, pos + Text.byteLength ds⟩ :: tokens)
  /-- Any other character is a token by itself. -/
  | mark {pos : Nat} {c : Char} {cs : List Char} {kind : Kind} {tokens : List Token}
      (hkind : Kind.ofChar? c = some kind) (hrest : Divides (pos + c.utf8Size) cs tokens) :
      Divides pos (c :: cs) (⟨kind, ⟨pos, pos + c.utf8Size⟩⟩ :: tokens)

/-- A text that begins with a digit is a run of digits, as long as possible, and what follows. -/
theorem exists_digits_append {c : Char} (h : c.isDigit = true) (cs : List Char) :
    ∃ ds rest, c :: cs = ds ++ rest ∧ ds ≠ [] ∧ (∀ d ∈ ds, d.isDigit = true) ∧ NoDigit rest ∧
      rest.length ≤ cs.length := by
  refine ⟨(c :: cs).takeWhile Char.isDigit, (c :: cs).dropWhile Char.isDigit,
    List.takeWhile_append_dropWhile.symm, ?_, ?_, ?_, ?_⟩
  · rw [List.takeWhile_cons_of_pos h]
    exact List.cons_ne_nil _ _
  · intro d hd
    exact List.all_eq_true.mp List.all_takeWhile d hd
  · intro d hd
    have hhead := List.head?_dropWhile_not Char.isDigit (c :: cs)
    rw [hd] at hhead
    exact hhead
  · rw [List.dropWhile_cons_of_pos h]
    exact (List.dropWhile_sublist _).length_le

/-- **The scanner divides every text.** -/
theorem divides_scan (pos : Nat) (cs : List Char) : Divides pos cs (scan none pos cs) := by
  -- a number is passed in one step, so the induction is on the length of what is left
  induction hlen : cs.length using Nat.strongRecOn generalizing pos cs with
  | _ n ih =>
    cases cs with
    | nil => exact .nil
    | cons c cs =>
      have hcs : cs.length < n := by
        rw [← hlen]
        exact Nat.lt_succ_self _
      rcases Kind.ofChar?_cases c with hblank | hdigit | ⟨kind, hkind⟩
      · rw [scan_blank hblank]
        exact .blank hblank (ih _ hcs _ _ rfl)
      · obtain ⟨ds, rest, hsplit, hne, hdigits, hend, hle⟩ := exists_digits_append hdigit cs
        rw [hsplit, scan_number hne hdigits hend]
        exact .number hne hdigits hend (ih _ (Nat.lt_of_le_of_lt hle hcs) _ _ rfl)
      · rw [scan_mark hkind]
        exact .mark hkind (ih _ hcs _ _ rfl)

/-- **A text divides in one way.** -/
theorem Divides.eq_scan {pos : Nat} {cs : List Char} {tokens : List Token}
    (h : Divides pos cs tokens) : tokens = scan none pos cs := by
  induction h with
  | nil => rfl
  | blank hblank _ ih => rw [scan_blank hblank, ← ih]
  | number hne hdigits hend _ ih => rw [scan_number hne hdigits hend, ← ih]
  | mark hkind _ ih => rw [scan_mark hkind, ← ih]

/-- Only blanks have no tokens. -/
theorem scan_eq_nil_iff {pos : Nat} {cs : List Char} :
    scan none pos cs = [] ↔ ∀ c ∈ cs, Text.isBlank c = true := by
  constructor
  · intro h
    have hdivides := divides_scan pos cs
    generalize scan none pos cs = tokens at h hdivides
    induction hdivides with
    | nil => nofun
    | blank hblank _ ih => exact List.forall_mem_cons.mpr ⟨hblank, ih h⟩
    | number _ _ _ _ _ => cases h
    | mark _ _ _ => cases h
  · intro h
    have hscan := scan_blanks h pos []
    rw [List.append_nil] at hscan
    exact hscan

end Token

end PageSelection
