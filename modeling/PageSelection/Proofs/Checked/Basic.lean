import PageSelection.Proofs.Numeral
import PageSelection.RangeList.Basic

/-!
# Operations that can fail

Machine arithmetic, assertions and look-ups by index have conditions, and a program that breaks one
of them stops. The operations here have the conditions written down: each is `none` when its
condition does not hold, and its ordinary result when it does.

A **checked** version of a function performs such operations in place of the ordinary ones, so it is
`none` as soon as a single one of them fails. To say that the checked version always has a result is
to say that none of them ever does.
-/

namespace PageSelection.Checked

/-- The difference of two machine integers, which has to be one itself. -/
def difference? (a b : Int32) : Option Int32 := Numeral.fit? (a.toInt - b.toInt)

/-- The machine integer that follows, of which there has to be one. -/
def successor? (a : Int32) : Option Int32 := Numeral.fit? (a.toInt + 1)

/-- The natural number that precedes, of which there has to be one. -/
def predecessor? : Nat → Option Nat
  | 0 => none
  | n + 1 => some n

/-- Two bounds, which have to be in order. -/
def bounds? (low high : Int32) : Option Bounds := if low ≤ high then some ⟨low, high⟩ else none

/-- The span between two offsets, which have to be in order. -/
def span? (start stop : Nat) : Option Span := if start ≤ stop then some ⟨start, stop⟩ else none

/-- An offset that must not lie behind a limit. -/
def offset? (limit offset : Nat) : Option Nat := if offset ≤ limit then some offset else none

/-- The byte is that of a decimal digit. -/
def IsDigitByte (byte : UInt8) : Prop := '0'.toNat ≤ byte.toNat ∧ byte.toNat ≤ '9'.toNat

instance : DecidablePred IsDigitByte := fun _ => inferInstanceAs (Decidable (_ ∧ _))

/-- The distance of a byte from that of `0`. The byte has to be that of a digit. -/
def weight? (byte : UInt8) : Option Nat :=
  if IsDigitByte byte then some (Numeral.weight byte) else none

theorem bounds?_of_le {low high : Int32} (h : low ≤ high) : bounds? low high = some ⟨low, high⟩ :=
  if_pos h

theorem span?_of_le {start stop : Nat} (h : start ≤ stop) :
    span? start stop = some ⟨start, stop⟩ :=
  if_pos h

theorem offset?_of_le {limit offset : Nat} (h : offset ≤ limit) :
    offset? limit offset = some offset :=
  if_pos h

theorem weight?_of_isDigitByte {byte : UInt8} (h : IsDigitByte byte) :
    weight? byte = some (Numeral.weight byte) :=
  if_pos h

/-- Below another machine integer there is a following one, which is no more than one more. -/
theorem successor?_of_lt {a b : Int32} (h : a < b) : successor? a = some (a + 1) := by
  unfold successor?
  rw [Numeral.fit?_eq_some_iff]
  exact toInt_add_one h

/-- Decimal digits are written in bytes of digits. -/
theorem isDigitByte_of_mem_bytes {ds : List Char} (h : ∀ d ∈ ds, d.isDigit = true) {byte : UInt8}
    (hbyte : byte ∈ Text.bytes ds) : IsDigitByte byte := by
  obtain ⟨d, hd, hmem⟩ := List.mem_flatMap.mp hbyte
  rw [String.utf8EncodeChar_eq_singleton (Numeral.utf8Size_of_isDigit (h d hd)),
    List.mem_singleton] at hmem
  have hvalue : byte.toNat = d.toNat := by
    rw [hmem]
    exact Numeral.toNat_toUInt8_of_isDigit (h d hd)
  unfold IsDigitByte
  rw [hvalue]
  exact Char.isDigit_iff_toNat.mp (h d hd)

end PageSelection.Checked
