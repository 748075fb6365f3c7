import Mathlib.Data.List.Chain
import PageSelection.Proofs.Token.Cut

/-!
# The tokens of a text are determined by their spans

Whoever is given the tokens of a text sees spans, and under each span some characters. `Lossless`
collects what such a reader can rely on, without a word about the scanner: spans that are not empty,
lie on boundaries and stand one behind another; nothing but blanks outside of them, and no blank
inside; under each span the characters that its kind says; and numbers that no digit stands next to,
whose digits are all that they cover.

This leaves no choice (`lossless_iff_eq_ofText`). Read a text from its beginning, with the tokens
that have been passed on one side and those to come on the other. At a blank, no token can begin.
At any other character one has to, for every such character is covered, and those that have been
passed end before it (`Lossless.exists_token`). Where that token ends is decided by its kind: a mark
is one character long, and a number goes on to the last of its digits. So the tokens to come are
those of the `Divides` relation, and that is the scanner.

That the scanner is lossless itself is read off the cut of a text at one of its tokens
(`exists_split_of_scan`); only that every character is covered takes an induction of its own
(`exists_covers_of_scan`).
-/

namespace PageSelection

/-- The span runs over a byte offset. -/
def Span.Covers (span : Span) (offset : Nat) : Prop := span.start ≤ offset ∧ offset < span.stop

namespace Text

/-- `At cs offset c` holds when the character `c` begins at a byte offset of the text `cs`. -/
def At (cs : List Char) (offset : Nat) (c : Char) : Prop :=
  ∃ before after, cs = before ++ c :: after ∧ byteLength before = offset

/-- A character that begins within a part of a text is one of that part. -/
theorem At.mem_of_covers {before own after : List Char} {offset : Nat} {c : Char}
    (h : At (before ++ (own ++ after)) offset c) (hstart : byteLength before ≤ offset)
    (hstop : offset < byteLength before + byteLength own) : c ∈ own := by
  obtain ⟨first, rest, hsplit, rfl⟩ := h
  -- what precedes the character begins with what precedes the part, and ends within the part
  obtain ⟨inner, rfl, hinner⟩ := exists_append_of_le hsplit hstart
  rw [byteLength_append] at hstop
  obtain ⟨more, rfl, hmore⟩ := exists_append_of_le hinner.symm (by omega)
  cases more with
  | nil =>
    rw [List.append_nil] at hstop
    omega
  | cons d more =>
    obtain ⟨rfl, -⟩ := List.cons.inj hmore
    exact List.mem_append_right inner List.mem_cons_self

end Text

namespace Token

open Text

/-! ### What the spans of tokens say -/

/-- What the characters under the span of a token are, by the kind of the token. -/
def Kind.Describes : Kind → List Char → Prop
  | number _, own => ∀ d ∈ own, d.isDigit = true
  | separator mark, own => own = [mark.char]
  | comma, own => own = [',']
  | unexpected c, own =>
    own = [c] ∧ c.isDigit = false ∧ isBlank c = false ∧ c ≠ '-' ∧ c ≠ ':' ∧ c ≠ ','

/-- **A lossless list of tokens.** Nothing of the text `cs` is lost or made up when it is taken for
the list of these tokens. -/
structure Lossless (cs : List Char) (tokens : List Token) : Prop where
  /-- No token is empty. -/
  nonempty : ∀ token ∈ tokens, token.span.start < token.span.stop
  /-- Tokens begin and end between characters. -/
  boundaries : ∀ token ∈ tokens,
    isBoundary cs token.span.start = true ∧ isBoundary cs token.span.stop = true
  /-- Each token ends before the next one begins. -/
  ordered : tokens.IsChain fun token next => token.span.stop ≤ next.span.start
  /-- No token reaches beyond the end of the text. -/
  inside : ∀ token ∈ tokens, token.span.stop ≤ byteLength cs
  /-- The characters outside of all tokens are the blank ones. -/
  isBlank_iff : ∀ offset c, At cs offset c →
    (isBlank c = true ↔ ∀ token ∈ tokens, ¬ token.span.Covers offset)
  /-- Under each token stands what its kind says. -/
  describes : ∀ token ∈ tokens, ∃ own,
    slice? cs token.span.start token.span.stop = some own ∧ token.kind.Describes own
  /-- The digits of a number are all that it covers. -/
  digits : ∀ token ∈ tokens, ∀ digits, token.kind = .number digits → digits = token.span
  /-- A number has no digit right before it or right behind it. -/
  maximal : ∀ token ∈ tokens, ∀ digits, token.kind = .number digits → ∀ offset c, At cs offset c →
    offset + c.utf8Size = token.span.start ∨ offset = token.span.stop → c.isDigit = false

/-- What is said of the kinds of tokens describes the characters that spell them. -/
theorem spells_iff {token : Token} {own : List Char} :
    token.Spells own ↔ own ≠ [] ∧ token.kind.Describes own ∧
      ∀ digits, token.kind = .number digits → digits = token.span := by
  constructor
  · intro h
    refine ⟨h.ne_nil, ?_⟩
    cases h with
    | number _ hdigits => exact ⟨hdigits, fun _ hkind => (Kind.number.inj hkind).symm⟩
    | @mark c kind span hkind =>
      have hdigit := Kind.not_isDigit_of_ofChar? hkind
      have hblank := (@Spells.mark c kind span hkind).not_isBlank List.mem_cons_self
      cases kind with
      | number digits => exact absurd hkind (Kind.ofChar?_ne_number c digits)
      | separator mark => exact ⟨by rw [Kind.eq_char_of_ofChar? hkind]; rfl, nofun⟩
      | comma => exact ⟨by rw [Kind.eq_comma_of_ofChar? hkind]; rfl, nofun⟩
      | unexpected d =>
        -- the three marks have kinds of their own
        have hne : c ≠ '-' ∧ c ≠ ':' ∧ c ≠ ',' := by
          refine ⟨?_, ?_, ?_⟩ <;> rintro rfl <;> cases hkind
        unfold Kind.ofChar? at hkind
        split at hkind <;> cases hkind
        exact ⟨⟨rfl, hdigit, hblank, hne⟩, nofun⟩
  · obtain ⟨kind, span⟩ := token
    rintro ⟨hne, h, hdigits⟩
    cases kind with
    | number digits =>
      obtain rfl := hdigits digits rfl
      exact .number hne h
    | separator mark =>
      obtain rfl := h
      exact .mark (Kind.ofChar?_separator mark)
    | comma =>
      obtain rfl := h
      exact .mark Kind.ofChar?_comma
    | unexpected c =>
      obtain ⟨rfl, hdigit, hblank, hhyphen, hcolon, hcomma⟩ := h
      refine .mark ?_
      have hclass : CharClass.of c = .other := by
        unfold CharClass.of
        rw [if_neg (by rw [hdigit]; decide), if_neg (by rw [hblank]; decide)]
        split
        · exact absurd rfl hhyphen
        · exact absurd rfl hcolon
        · exact absurd rfl hcomma
        · rfl
      unfold Kind.ofChar?
      rw [hclass]

/-! ### No other tokens are lossless -/

/-- A division can be continued in front by any token, unless a number would go on. -/
theorem Divides.of_spells {pos : Nat} {own after : List Char} {token : Token} {rest : List Token}
    (hspells : token.Spells own) (hspan : token.span = ⟨pos, pos + byteLength own⟩)
    (hend : ∀ digits, token.kind = .number digits → NoDigit after)
    (hrest : Divides (pos + byteLength own) after rest) :
    Divides pos (own ++ after) (token :: rest) := by
  cases hspells with
  | @number digits _ hne hdigits =>
    obtain rfl : digits = _ := hspan
    exact .number hne hdigits (hend _ rfl) hrest
  | @mark _ _ span hkind =>
    obtain rfl : span = _ := hspan
    exact .mark hkind hrest

namespace Lossless

variable {text : List Char} {tokens : List Token}

/-- Each token ends before all of those behind it begin, since none of them is empty. -/
theorem pairwise (h : Lossless text tokens) :
    tokens.Pairwise fun token next => token.span.stop ≤ next.span.start := by
  have hordered := h.ordered
  have hnonempty := h.nonempty
  clear h
  induction tokens with
  | nil => exact .nil
  | cons token rest ih =>
    have hrest := ih hordered.tail fun t ht => hnonempty t (List.mem_cons_of_mem token ht)
    refine .cons (fun next hnext => ?_) hrest
    cases rest with
    | nil => cases hnext
    | cons first rest =>
      have hfirst : token.span.stop ≤ first.span.start := (List.isChain_cons_cons.mp hordered).1
      rcases List.mem_cons.mp hnext with rfl | hnext
      · exact hfirst
      · calc token.span.stop
            ≤ first.span.start := hfirst
          _ ≤ first.span.stop := Nat.le_of_lt (hnonempty first (by simp))
          _ ≤ next.span.start := (List.pairwise_cons.mp hrest).1 next hnext

/-- No token begins at a blank, so that the next one begins behind it. -/
theorem le_start_of_isBlank (h : Lossless text tokens) {before cs : List Char} {c : Char}
    (htext : text = before ++ c :: cs) (hc : isBlank c = true) {token : Token}
    (htoken : token ∈ tokens) (hstart : byteLength before ≤ token.span.start) :
    byteLength (before ++ [c]) ≤ token.span.start := by
  have hcovers := (h.isBlank_iff _ c ⟨before, cs, htext, rfl⟩).mp hc token htoken
  have hnonempty := h.nonempty token htoken
  -- the token begins between two characters, so it cannot begin inside of the blank either
  obtain ⟨first, after, hsplit, hfirst⟩ := eq_append_of_isBoundary (h.boundaries token htoken).1
  obtain ⟨more, rfl, hmore⟩ := exists_append_of_le (htext.symm.trans hsplit) (hfirst ▸ hstart)
  cases more with
  | nil =>
    rw [List.append_nil] at hfirst
    exact absurd ⟨Nat.le_of_eq hfirst.symm, hfirst ▸ hnonempty⟩ hcovers
  | cons d more =>
    obtain ⟨rfl, -⟩ := List.cons.inj hmore
    rw [← hfirst, byteLength_append, byteLength_append, byteLength_cons, byteLength_cons]
    exact Nat.add_le_add_left (Nat.add_le_add_left (Nat.zero_le _) _) _

/-- At a character that is no blank, the first of the tokens to come begins. -/
theorem exists_token (h : Lossless text tokens) {before cs : List Char} {c : Char}
    (htext : text = before ++ c :: cs) (hc : isBlank c = false) {passed rest : List Token}
    (htokens : tokens = passed ++ rest)
    (hpassed : ∀ token ∈ passed, token.span.stop ≤ byteLength before)
    (hrest : ∀ token ∈ rest, byteLength before ≤ token.span.start) :
    ∃ token next, rest = token :: next ∧ token.span.start = byteLength before ∧
      ∀ later ∈ next, token.span.stop ≤ later.span.start := by
  -- some token covers the character, and it is none of those that have been passed
  obtain ⟨token, htoken, hcovers⟩ : ∃ token ∈ tokens, token.span.Covers (byteLength before) := by
    by_contra hnone
    have hblank := (h.isBlank_iff _ c ⟨before, cs, htext, rfl⟩).mpr
      fun token htoken hcovers => hnone ⟨token, htoken, hcovers⟩
    rw [hc] at hblank
    cases hblank
  have hpairwise := h.pairwise
  rw [htokens] at htoken hpairwise
  rcases List.mem_append.mp htoken with htoken | htoken
  · exact absurd hcovers.2 (Nat.not_lt.mpr (hpassed token htoken))
  cases rest with
  | nil => cases htoken
  | cons first next =>
    have hnext := (List.pairwise_cons.mp (List.pairwise_append.mp hpairwise).2.1).1
    refine ⟨first, next, rfl, ?_, hnext⟩
    have hfirst := hrest first List.mem_cons_self
    rcases List.mem_cons.mp htoken with rfl | htoken
    · exact Nat.le_antisymm hcovers.1 hfirst
    · -- any later token begins behind the end of the first one
      have hlater := hnext token htoken
      have hnonempty := h.nonempty first (by simp [htokens])
      have hstart := hcovers.1
      omega

/-- At the place where a token begins, the text goes on with the characters of the token. -/
theorem exists_own (h : Lossless text tokens) {token : Token} (htoken : token ∈ tokens)
    {before cs : List Char} (htext : text = before ++ cs)
    (hstart : token.span.start = byteLength before) :
    ∃ own after, cs = own ++ after ∧ token.Spells own ∧
      (∀ digits, token.kind = .number digits → NoDigit after) ∧
      token.span = ⟨byteLength before, byteLength before + byteLength own⟩ := by
  obtain ⟨own, hslice, hdescribes⟩ := h.describes token htoken
  obtain ⟨first, after, hsplit, hfirst, hstop⟩ := eq_append_of_slice? hslice
  obtain ⟨rfl, rfl⟩ := append_inj_of_byteLength (htext.symm.trans hsplit) (hstart ▸ hfirst.symm)
  rw [hstart] at hstop
  refine ⟨own, after, rfl, spells_iff.mpr ⟨?_, hdescribes, h.digits token htoken⟩,
    fun digits hkind => ?_, ?_⟩
  · rintro rfl
    have hnonempty := h.nonempty token htoken
    rw [hstart, hstop] at hnonempty
    exact Nat.lt_irrefl _ hnonempty
  · intro d hd
    obtain ⟨tail, rfl⟩ := List.head?_eq_some_iff.mp hd
    have hat : At text (byteLength (before ++ own)) d :=
      ⟨before ++ own, tail, by rw [htext, List.append_assoc], rfl⟩
    exact h.maximal token htoken digits hkind _ d hat (.inr (by rw [hstop, byteLength_append]))
  · show (⟨token.span.start, token.span.stop⟩ : Span) = _
    rw [hstart, hstop]

/-- **The tokens to come.** Where all tokens that have been passed have ended and the others have
not begun, these others are the tokens of what is left of the text. -/
theorem divides (h : Lossless text tokens) {before cs : List Char} (htext : text = before ++ cs)
    {passed rest : List Token} (htokens : tokens = passed ++ rest)
    (hpassed : ∀ token ∈ passed, token.span.stop ≤ byteLength before)
    (hrest : ∀ token ∈ rest, byteLength before ≤ token.span.start) :
    Divides (byteLength before) cs rest := by
  -- a token is passed in one step, so the induction is on the length of what is left
  induction hlen : cs.length using Nat.strongRecOn generalizing before cs passed rest with
  | _ n ih =>
    cases cs with
    | nil =>
      cases rest with
      | nil => exact .nil
      | cons token rest =>
        -- a token to come would begin at the end of the text, and end behind it
        have hmem : token ∈ tokens := by simp [htokens]
        have hnonempty := h.nonempty token hmem
        have hinside := h.inside token hmem
        have hstart := hrest token List.mem_cons_self
        rw [htext, List.append_nil] at hinside
        omega
    | cons c cs =>
      cases hblank : isBlank c with
      | true =>
        have hbefore : byteLength before + c.utf8Size = byteLength (before ++ [c]) := by simp
        refine .blank hblank ?_
        rw [hbefore]
        refine ih cs.length (by simp [← hlen]) (by simp [htext]) htokens ?_ ?_ rfl
        · intro token htoken
          exact Nat.le_trans (hpassed token htoken) (by rw [← hbefore]; exact Nat.le_add_right _ _)
        · intro token htoken
          exact h.le_start_of_isBlank htext hblank (by simp [htokens, htoken])
            (hrest token htoken)
      | false =>
        obtain ⟨token, next, rfl, hstart, hnext⟩ :=
          h.exists_token htext hblank htokens hpassed hrest
        obtain ⟨own, after, hown, hspells, hend, hspan⟩ :=
          h.exists_own (by simp [htokens]) htext hstart
        have hbefore : token.span.stop = byteLength (before ++ own) := by
          rw [hspan, byteLength_append]
        -- the token is passed next
        have hafter : Divides (byteLength (before ++ own)) after next := by
          have htokens' : tokens = (passed ++ [token]) ++ next := by simp [htokens]
          refine ih after.length ?_ (by simp [htext, hown]) htokens' ?_ ?_ rfl
          · have hpos := List.length_pos_iff.mpr hspells.ne_nil
            rw [← hlen, hown, List.length_append]
            omega
          · intro t ht
            rw [← hbefore]
            rcases List.mem_append.mp ht with ht | ht
            · have hstop := hpassed t ht
              have hnonempty := h.nonempty token (by simp [htokens])
              omega
            · rw [List.mem_singleton.mp ht]
          · intro t ht
            rw [← hbefore]
            exact hnext t ht
        rw [byteLength_append] at hafter
        rw [hown]
        exact .of_spells hspells hspan hend hafter

end Lossless

/-! ### The scanner is lossless -/

/-- No digit follows a number. -/
theorem noDigit_of_scan {ds after : List Char} {pos : Nat} {rest : List Token}
    (hdigits : ∀ d ∈ ds, d.isDigit = true)
    (h : scan none pos (ds ++ after) = .ofDigits ⟨pos, pos + byteLength ds⟩ :: rest) :
    NoDigit after := by
  intro d hd
  obtain ⟨tail, rfl⟩ := List.head?_eq_some_iff.mp hd
  rw [Bool.eq_false_iff]
  intro hdigit
  -- with the digit behind it, the number would be longer
  have hlonger : ∀ d' ∈ ds ++ [d], d'.isDigit = true := by
    intro d' hd'
    rcases List.mem_append.mp hd' with hd' | hd'
    · exact hdigits d' hd'
    · rw [List.mem_singleton.mp hd']
      exact hdigit
  obtain ⟨more, rest', -, -, hscan⟩ := exists_scan_of_digits
    (List.append_ne_nil_of_right_ne_nil ds (List.cons_ne_nil d [])) hlonger pos tail
  rw [List.append_assoc, List.singleton_append, h] at hscan
  injection hscan with htoken
  injection htoken with _ hspan
  injection hspan with _ hstop
  have hpos := d.utf8Size_pos
  rw [byteLength_append, byteLength_append, byteLength_cons] at hstop
  omega

/-- **A text around one of its tokens.** -/
theorem exists_split_of_mem_scan {cs : List Char} {token : Token} (h : token ∈ scan none 0 cs) :
    ∃ before own after, cs = before ++ (own ++ after) ∧ Apart before own ∧
      token.Spells own ∧ (∀ digits, token.kind = .number digits → NoDigit after) ∧
      token.span = ⟨byteLength before, byteLength before + byteLength own⟩ := by
  obtain ⟨first, rest, htokens⟩ := List.append_of_mem h
  obtain ⟨before, own, after, rfl, hfirst, hapart, hspells, hspan⟩ := exists_split_of_scan htokens
  rw [Nat.zero_add] at hspan
  refine ⟨before, own, after, rfl, hapart, hspells, fun digits hkind => ?_, hspan⟩
  -- what follows the tokens in front is the scan of the text from this token on
  rw [scan_append (hapart.append_right hspells.ne_nil after), hfirst, Nat.zero_add] at htokens
  obtain ⟨kind, span⟩ := token
  obtain rfl : kind = .number digits := hkind
  obtain rfl : span = _ := hspan
  obtain ⟨rfl, -, hdigits⟩ := hspells.of_number
  exact noDigit_of_scan hdigits (List.append_cancel_left htokens)

/-- **Nothing is skipped but blanks.** -/
theorem exists_covers_of_scan {c : Char} (hc : isBlank c = false) (pos : Nat)
    (before after : List Char) :
    ∃ token ∈ scan none pos (before ++ c :: after),
      token.span.Covers (pos + byteLength before) := by
  have hdivides := divides_scan pos (before ++ c :: after)
  generalize scan none pos (before ++ c :: after) = tokens at hdivides
  generalize htext : before ++ c :: after = text at hdivides
  induction hdivides generalizing before with
  | nil => exact absurd htext (List.append_ne_nil_of_right_ne_nil _ (List.cons_ne_nil _ _))
  | @blank pos d cs tokens hblank _ ih =>
    cases before with
    | nil =>
      obtain ⟨rfl, -⟩ := List.cons.inj htext
      rw [hc] at hblank
      cases hblank
    | cons d' before =>
      obtain ⟨rfl, hrest⟩ := List.cons.inj htext
      obtain ⟨token, htoken, hcovers⟩ := ih before hrest
      refine ⟨token, htoken, ?_⟩
      rwa [byteLength_cons, ← Nat.add_assoc]
  | @number pos ds cs tokens hne hdigits hend _ ih =>
    rcases List.append_eq_append_iff.mp htext with ⟨more, rfl, hmore⟩ | ⟨more, rfl, hmore⟩
    · cases more with
      | nil =>
        -- the number ends right in front of the character
        obtain ⟨token, htoken, hcovers⟩ := ih [] hmore
        refine ⟨token, List.mem_cons_of_mem _ htoken, ?_⟩
        rwa [List.append_nil, byteLength_nil, Nat.add_zero] at hcovers
      | cons d more =>
        -- the character is one of the number
        refine ⟨_, List.mem_cons_self, Nat.le_add_right _ _, Nat.add_lt_add_left ?_ _⟩
        rw [byteLength_append]
        exact Nat.lt_add_of_pos_right (byteLength_pos (List.cons_ne_nil d more))
    · obtain ⟨token, htoken, hcovers⟩ := ih more hmore.symm
      refine ⟨token, List.mem_cons_of_mem _ htoken, ?_⟩
      rwa [byteLength_append, ← Nat.add_assoc]
  | @mark pos d cs kind tokens hkind _ ih =>
    cases before with
    | nil =>
      -- the character is the mark
      refine ⟨_, List.mem_cons_self, Nat.le_refl _, ?_⟩
      exact Nat.add_lt_add_left d.utf8Size_pos pos
    | cons d' before =>
      obtain ⟨rfl, hrest⟩ := List.cons.inj htext
      obtain ⟨token, htoken, hcovers⟩ := ih before hrest
      refine ⟨token, List.mem_cons_of_mem _ htoken, ?_⟩
      rwa [byteLength_cons, ← Nat.add_assoc]

/-- **The scanner is lossless.** -/
theorem lossless_scan (cs : List Char) : Lossless cs (scan none 0 cs) where
  nonempty token htoken := start_lt_stop_of_mem_scan htoken
  boundaries token htoken := by
    obtain ⟨before, own, after, rfl, -, -, -, hspan⟩ := exists_split_of_mem_scan htoken
    rw [hspan]
    refine ⟨isBoundary_byteLength before (own ++ after), ?_⟩
    rw [← byteLength_append, ← List.append_assoc]
    exact isBoundary_byteLength (before ++ own) after
  ordered := (pairwise_scan 0 cs).isChain
  inside token htoken := by
    have hstop := stop_le_of_mem_scan htoken
    rwa [Nat.zero_add] at hstop
  isBlank_iff := by
    rintro offset c ⟨first, rest, rfl, rfl⟩
    constructor
    · -- the characters of a token are no blanks
      intro hblank token htoken hcovers
      obtain ⟨before, own, after, hsplit, -, hspells, -, hspan⟩ := exists_split_of_mem_scan htoken
      rw [hspan] at hcovers
      have hat : At (before ++ (own ++ after)) (byteLength first) c :=
        ⟨first, rest, hsplit.symm, rfl⟩
      have hno := hspells.not_isBlank (hat.mem_of_covers hcovers.1 hcovers.2)
      rw [hblank] at hno
      cases hno
    · intro hnone
      rw [← Bool.not_eq_false]
      intro hc
      obtain ⟨token, htoken, hcovers⟩ := exists_covers_of_scan hc 0 first rest
      rw [Nat.zero_add] at hcovers
      exact hnone token htoken hcovers
  describes token htoken := by
    obtain ⟨before, own, after, rfl, -, hspells, -, hspan⟩ := exists_split_of_mem_scan htoken
    rw [hspan]
    exact ⟨own, slice?_middle before own after, (spells_iff.mp hspells).2.1⟩
  digits token htoken := by
    obtain ⟨before, own, after, -, -, hspells, -, -⟩ := exists_split_of_mem_scan htoken
    exact (spells_iff.mp hspells).2.2
  maximal token htoken digits hkind := by
    obtain ⟨before, own, after, rfl, hapart, hspells, hend, hspan⟩ :=
      exists_split_of_mem_scan htoken
    rw [hspan]
    rintro offset c ⟨first, rest, hsplit, rfl⟩ (hbefore | hbehind)
    · -- the character is the last one in front of the number
      have hlength : byteLength (first ++ [c]) = byteLength before := by
        rw [byteLength_append]
        exact hbefore
      have hsplit' : (first ++ [c]) ++ rest = before ++ (own ++ after) := by simp [hsplit]
      obtain ⟨rfl, -⟩ := append_inj_of_byteLength hsplit' hlength
      obtain ⟨d, own, rfl⟩ := List.exists_cons_of_ne_nil hspells.ne_nil
      have hdescribes := (spells_iff.mp hspells).2.1
      rw [hkind] at hdescribes
      rw [Bool.eq_false_iff]
      intro hdigit
      exact hapart c (by simp) d rfl ⟨hdigit, hdescribes d List.mem_cons_self⟩
    · -- the character is the first one behind it
      have hlength : byteLength (before ++ own) = byteLength first := by
        rw [hbehind, byteLength_append]
      rw [← List.append_assoc] at hsplit
      obtain ⟨-, rfl⟩ := append_inj_of_byteLength hsplit hlength
      exact hend digits hkind c rfl

/-- **Every text has exactly one lossless list of tokens, and the scanner finds it.** The tokens
that it yields are not empty, begin and end between characters of the text, and stand one behind
another; the characters that none of them covers are exactly the blank ones. Under a number stand
its digits, as many of them as stand there side by side; under a separator or a comma stands that
mark alone; and under any other token stands one character that is neither a digit nor a blank nor
one of the marks. No other list of tokens is like that. -/
theorem lossless_iff_eq_ofText (text : String) (tokens : List Token) :
    Lossless text.toList tokens ↔ tokens = ofText text := by
  constructor
  · intro h
    -- at the beginning, nothing has been passed
    have hdivides := h.divides (List.nil_append text.toList).symm (List.nil_append tokens).symm
      nofun fun _ _ => Nat.zero_le _
    exact hdivides.eq_scan
  · rintro rfl
    exact lossless_scan text.toList

end Token

end PageSelection
