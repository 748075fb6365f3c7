import PageSelection.Span
import PageSelection.Text.Bytes

/-!
# Numerals

Whole numbers in decimal notation. Page numbers are 32-bit integers, so reading a run of digits
can fail: `value?` takes one digit after another and gives up as soon as the number read so far
leaves the range. `spell` writes a number with as few digits as it needs.

A numeral is read where it stands. A token records only the span of its digits, and the digits are
looked at when their value is asked for.
-/

namespace PageSelection.Numeral

/-- The decimal digits of a natural number, the most significant first. -/
def digits (n : Nat) : List Char := Nat.toDigits 10 n

/-- An integer in decimal notation. -/
def spell (n : Int) : List Char :=
  if n < 0 then '-' :: digits n.natAbs else digits n.natAbs

/-- An integer as a 32-bit one, when it lies in the range of those. -/
def fit? (n : Int) : Option Int32 :=
  if Int32.minValue.toInt ≤ n ∧ n ≤ Int32.maxValue.toInt then some (Int32.ofInt n) else none

/-- The weight of a digit's byte: its distance from the byte of `0`. -/
def weight (byte : UInt8) : Nat := byte.toNat - '0'.toNat

/-- Appends one digit to a number: ten times the number, and then the digit's weight on top. Both
results have to fit. -/
def push? (number : Int32) (byte : UInt8) : Option Int32 := do
  let shifted ← fit? (number.toInt * 10)
  fit? (shifted.toInt + weight byte)

/-- The number that a run of bytes spells, when it fits. The empty run spells zero. -/
def ofBytes? (run : List UInt8) : Option Int32 := run.foldlM push? 0

/-- The number that the bytes of a span of a text spell. There is none when the span is no stretch
of the text, or when the number does not fit. -/
def value? (text : List Char) (span : Span) : Option Int32 := do
  let run ← Text.slice? text span.start span.stop
  ofBytes? (Text.bytes run)

/-- The number that a non-empty run of digits spells. -/
def unsigned? (cs : List Char) : Option Nat :=
  if !cs.isEmpty && cs.all Char.isDigit then
    some (cs.foldl (fun number c => number * 10 + (c.toNat - '0'.toNat)) 0)
  else
    none

/-- The number that a run of digits spells, with a sign in front of it or without one. -/
def signed? : List Char → Option Int
  | '-' :: cs => (unsigned? cs).map fun number => -(number : Int)
  | '+' :: cs => (unsigned? cs).map fun number => (number : Int)
  | cs => (unsigned? cs).map fun number => (number : Int)

theorem toInt_fit? {n : Int} {word : Int32} (h : fit? n = some word) : word.toInt = n := by
  unfold fit? at h
  split at h
  · next bounds =>
    cases h
    have hmin : Int32.minValue.toInt = -2147483648 := by decide
    have hmax : Int32.maxValue.toInt = 2147483647 := by decide
    rw [Int32.toInt_ofInt]
    exact Int.bmod_eq_of_le (by simp only [Int32.size]; omega) (by simp only [Int32.size]; omega)
  · cases h

end PageSelection.Numeral
