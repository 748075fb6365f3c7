import PageSelection.Numeral
import PageSelection.Proofs.Text.Slice

/-!
# Reading a numeral is exact

`Numeral.ofBytes?` keeps a machine integer while it reads, and gives up at the first multiplication
or addition that leaves the range. `exactFrom` is the same fold over natural numbers, which never
leaves any range. The two agree as far as the exact number fits (`foldlM_push?_eq_some_iff`): the
partial values of the exact fold only grow, so a partial value out of range means that the final
one is out of range as well, and no early stop is spurious.

On decimal digits the exact fold is the number that they write, `Nat.ofDigitChars 10`. With the
span of a run of digits inside a longer text this gives `value?_digits`, and for the digits that
`spell` writes `ofDigitChars_digits`.
-/

namespace PageSelection

/-- Every integer between two machine integers is a machine integer. -/
theorem exists_toInt_eq {low high : Int32} {x : Int} (hlow : low.toInt ≤ x)
    (hhigh : x ≤ high.toInt) : ∃ w : Int32, w.toInt = x := by
  have hmin := Int32.le_toInt low
  have hmax := Int32.toInt_lt high
  exact ⟨Int32.ofInt x, Int32.toInt_ofInt_of_le (by omega) (by omega)⟩

/-- A natural number is a machine integer up to the largest of those. -/
theorem exists_toInt_eq_natCast_iff {n : Nat} :
    (∃ w : Int32, w.toInt = (n : Int)) ↔ n ≤ 2147483647 := by
  have hmax : Int32.maxValue.toInt = 2147483647 := Int32.toInt_maxValue
  constructor
  · rintro ⟨w, hw⟩
    have hle := Int32.toInt_le w
    omega
  · intro hle
    have hlow : (0 : Int32).toInt ≤ (n : Int) := Int.natCast_nonneg n
    have hhigh : (n : Int) ≤ Int32.maxValue.toInt := by omega
    exact exists_toInt_eq hlow hhigh

/-- Below another machine integer, adding 1 does not leave the range. -/
theorem toInt_add_one {a b : Int32} (h : a < b) : (a + 1).toInt = a.toInt + 1 := by
  have hone : (1 : Int32).toInt = 1 := by decide
  have hlt := Int32.lt_iff_toInt_lt.mp h
  have hlow := Int32.le_toInt a
  have hhigh := Int32.toInt_lt b
  rw [Int32.toInt_add, hone]
  exact Int.bmod_eq_of_le (by omega) (by omega)

namespace Numeral

/-! ### One digit -/

/-- An integer fits when it is the value of a machine integer. -/
theorem fit?_eq_some_iff {n : Int} {word : Int32} : fit? n = some word ↔ word.toInt = n := by
  constructor
  · exact toInt_fit?
  · rintro rfl
    have hmin := Int32.minValue_le_toInt word
    have hmax := Int32.toInt_le word
    unfold fit?
    rw [if_pos ⟨hmin, hmax⟩, Int32.ofInt_toInt]

/-- **One step of the fold.** A digit is taken just when the exact result fits. -/
theorem push?_eq_some_iff {number next : Int32} {n : Nat} {byte : UInt8} (hn : number.toInt = n) :
    push? number byte = some next ↔ next.toInt = (n * 10 + weight byte : Nat) := by
  unfold push?
  simp only [bind, Option.bind_eq_some_iff, fit?_eq_some_iff, hn]
  constructor
  · rintro ⟨shifted, hshift, hnext⟩
    omega
  · intro hnext
    -- the product fits, for it lies between zero and the sum
    have hlow : (0 : Int32).toInt ≤ (n : Int) * 10 := by
      rw [Int32.toInt_zero]
      omega
    have hhigh : (n : Int) * 10 ≤ next.toInt := by omega
    obtain ⟨shifted, hshift⟩ := exists_toInt_eq hlow hhigh
    exact ⟨shifted, hshift, by omega⟩

/-! ### A run of digits -/

/-- The integer that a run of bytes writes behind the digits of `n`, however large it is. -/
def exactFrom (n : Nat) (run : List UInt8) : Nat :=
  run.foldl (fun n byte => n * 10 + weight byte) n

@[simp] theorem exactFrom_nil (n : Nat) : exactFrom n [] = n := rfl

@[simp] theorem exactFrom_cons (n : Nat) (byte : UInt8) (run : List UInt8) :
    exactFrom n (byte :: run) = exactFrom (n * 10 + weight byte) run := by
  unfold exactFrom
  rw [List.foldl_cons]

/-- The partial values of the exact fold only grow. -/
theorem le_exactFrom (n : Nat) (run : List UInt8) : n ≤ exactFrom n run := by
  induction run generalizing n with
  | nil => exact Nat.le_refl n
  | cons byte run ih =>
    have hrest := ih (n * 10 + weight byte)
    rw [exactFrom_cons]
    omega

/-- **The checked fold is exact.** It gives a number just when the exact one fits, and then that
number. -/
theorem foldlM_push?_eq_some_iff {run : List UInt8} {number value : Int32} {n : Nat}
    (hn : number.toInt = n) :
    run.foldlM push? number = some value ↔ value.toInt = exactFrom n run := by
  induction run generalizing number n with
  | nil =>
    rw [exactFrom_nil, ← hn, Int32.toInt_inj]
    simp [eq_comm]
  | cons byte run ih =>
    rw [List.foldlM_cons, exactFrom_cons]
    cases hpush : push? number byte with
    | some next => exact ih ((push?_eq_some_iff hn).mp hpush)
    | none =>
      refine ⟨nofun, fun hvalue => ?_⟩
      -- were the final value in range, so would this partial one be
      have hgrow := le_exactFrom (n * 10 + weight byte) run
      have hlow : (0 : Int32).toInt ≤ (n * 10 + weight byte : Nat) := by
        rw [Int32.toInt_zero]
        omega
      have hhigh : ((n * 10 + weight byte : Nat) : Int) ≤ value.toInt := by omega
      obtain ⟨next, hnext⟩ := exists_toInt_eq hlow hhigh
      rw [(push?_eq_some_iff hn).mpr hnext] at hpush
      cases hpush

/-- What a run of bytes spells is the exact number, if that fits. -/
theorem ofBytes?_eq_some_iff {run : List UInt8} {value : Int32} :
    ofBytes? run = some value ↔ value.toInt = exactFrom 0 run :=
  foldlM_push?_eq_some_iff rfl

/-! ### Decimal digits -/

/-- A decimal digit is a single byte. -/
theorem utf8Size_of_isDigit {c : Char} (h : c.isDigit = true) : c.utf8Size = 1 := by
  rw [Char.utf8Size_eq_one_iff, UInt32.le_iff_toNat_le, Char.toNat_val]
  have hbounds := Char.isDigit_iff_toNat.mp h
  have hnine : '9'.toNat = 57 := rfl
  have hlimit : (127 : UInt32).toNat = 127 := rfl
  omega

/-- The byte of a decimal digit is its code point. -/
theorem toNat_toUInt8_of_isDigit {c : Char} (h : c.isDigit = true) :
    c.val.toUInt8.toNat = c.toNat := by
  have hbounds := Char.isDigit_iff_toNat.mp h
  have hnine : '9'.toNat = 57 := rfl
  rw [UInt32.toNat_toUInt8, Char.toNat_val]
  exact Nat.mod_eq_of_lt (by omega)

/-- The byte of a decimal digit weighs as much as the digit. -/
theorem weight_of_isDigit {c : Char} (h : c.isDigit = true) :
    weight c.val.toUInt8 = c.toNat - '0'.toNat := by
  rw [weight, toNat_toUInt8_of_isDigit h]

/-- On decimal digits, the exact fold is the number that they write. -/
theorem exactFrom_bytes {ds : List Char} (h : ∀ d ∈ ds, d.isDigit = true) (n : Nat) :
    exactFrom n (Text.bytes ds) = Nat.ofDigitChars 10 ds n := by
  induction ds generalizing n with
  | nil => rfl
  | cons d ds ih =>
    have hd := h d List.mem_cons_self
    have hbytes : Text.bytes (d :: ds) = d.val.toUInt8 :: Text.bytes ds := by
      unfold Text.bytes
      rw [List.flatMap_cons, String.utf8EncodeChar_eq_singleton (utf8Size_of_isDigit hd)]
      rfl
    -- both folds take the first digit, with the two factors of the product exchanged
    rw [hbytes, exactFrom_cons, ih (fun d' hd' => h d' (List.mem_cons_of_mem d hd')),
      Nat.ofDigitChars_cons, weight_of_isDigit hd, Nat.mul_comm]

/-- **The value of a run of digits that stands inside a text.** -/
theorem value?_digits {before ds after : List Char} (h : ∀ d ∈ ds, d.isDigit = true)
    {value : Int32} :
    value? (before ++ (ds ++ after))
        ⟨Text.byteLength before, Text.byteLength before + Text.byteLength ds⟩ = some value ↔
      value.toInt = Nat.ofDigitChars 10 ds 0 := by
  -- what is cut out is the run itself, and its value is that of the checked fold
  unfold value?
  rw [Text.slice?_middle, ← exactFrom_bytes h, ← ofBytes?_eq_some_iff]
  rfl

/-! ### Written numerals -/

theorem isDigit_of_mem_digits {n : Nat} {c : Char} (h : c ∈ digits n) : c.isDigit = true :=
  Nat.isDigit_of_mem_toDigits (by decide) (by decide) h

theorem digits_ne_nil (n : Nat) : digits n ≠ [] := Nat.toDigits_ne_nil

/-- The digits of a number write the number. -/
theorem ofDigitChars_digits (n : Nat) : Nat.ofDigitChars 10 (digits n) 0 = n :=
  Nat.ofDigitChars_ten_toDigits

/-- A number that is not negative is written by its digits alone. -/
theorem spell_of_nonneg {n : Int} (h : 0 ≤ n) : spell n = digits n.natAbs := by
  unfold spell
  rw [if_neg (Int.not_lt.mpr h)]

end Numeral

end PageSelection
