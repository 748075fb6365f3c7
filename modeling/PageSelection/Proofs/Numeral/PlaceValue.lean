import Mathlib.Algebra.BigOperators.Ring.List
import Mathlib.Algebra.Ring.Int.Defs
import Mathlib.Data.List.Induction
import PageSelection.Proofs.Numeral
import PageSelection.Proofs.Text.Encoding
import PageSelection.RangeList.Parser

/-!
# The value of a numeral, place by place

A numeral is read from the left, one digit after another, by a machine integer that could overflow
at each of them. In the decimal system a digit counts for itself times the power of ten of its
place, which is counted from the right, and no digit has to wait for another one. `placeSum` is the
sum of these place values, over the integers.

The two agree, for a digit behind a run moves all digits of the run one place to the left
(`placeSum_concat`), and this is what reading the digit does (`exactFrom_concat`). So a numeral has
a value exactly when the sum of its place values is a machine integer, whichever step would be the
first one to overflow (`map_toInt_ofBytes?`).

`value?_exact` says this of a numeral that is read where it stands in a text.
-/

namespace PageSelection.Numeral

open Text

/-! ### Place values -/

/-- The sum of the place values of a run of bytes. A byte counts for its distance from 48, which is
the byte of the digit 0. -/
def placeSum (run : List UInt8) : Int :=
  (run.reverse.mapIdx fun place byte => ((byte.toNat : Int) - 48) * 10 ^ place).sum

/-- **One more digit** moves all others to the left. -/
theorem placeSum_concat (run : List UInt8) (byte : UInt8) :
    placeSum (run ++ [byte]) = placeSum run * 10 + ((byte.toNat : Int) - 48) := by
  have hmove : (run.reverse.mapIdx fun place byte =>
      ((byte.toNat : Int) - 48) * 10 ^ (place + 1)).sum = placeSum run * 10 := by
    unfold placeSum
    rw [List.mapIdx_eq_zipIdx_map, List.mapIdx_eq_zipIdx_map, ← List.sum_map_mul_right]
    simp only [pow_succ, mul_assoc]
  rw [placeSum, List.reverse_concat, List.mapIdx_cons, List.sum_cons, hmove, pow_zero, mul_one,
    Int.add_comm]

/-- The exact fold takes one more digit like any other. -/
theorem exactFrom_concat (n : Nat) (run : List UInt8) (byte : UInt8) :
    exactFrom n (run ++ [byte]) = exactFrom n run * 10 + weight byte := by
  unfold exactFrom
  rw [List.foldl_concat]

/-- The weight of a byte that is not below the digits is its distance from 48. -/
theorem weight_of_le {byte : UInt8} (h : 48 ≤ byte) :
    (weight byte : Int) = (byte.toNat : Int) - 48 := by
  have hle : 48 ≤ byte.toNat := UInt8.le_iff_toNat_le.mp h
  have hzero : '0'.toNat = 48 := rfl
  unfold weight
  omega

/-- **The exact fold adds up place values.** -/
theorem exactFrom_eq_placeSum {run : List UInt8} (h : ∀ byte ∈ run, 48 ≤ byte) :
    (exactFrom 0 run : Int) = placeSum run := by
  induction run using List.reverseRecOn with
  | nil => rfl
  | append_singleton run byte ih =>
    have hrun := ih fun b hb => h b (List.mem_append_left _ hb)
    have hbyte := weight_of_le (h byte List.mem_concat_self)
    rw [exactFrom_concat, placeSum_concat, ← hrun, ← hbyte]
    omega

/-! ### The limit -/

/-- **A run of bytes has a value just when the exact number is a machine integer.** No step stops
too early, and none goes too far. -/
theorem map_toInt_ofBytes? (run : List UInt8) :
    (ofBytes? run).map Int32.toInt =
      if exactFrom 0 run ≤ 2147483647 then some (exactFrom 0 run : Int) else none := by
  cases hrun : ofBytes? run with
  | some value =>
    have hvalue := ofBytes?_eq_some_iff.mp hrun
    rw [if_pos (exists_toInt_eq_natCast_iff.mp ⟨value, hvalue⟩), Option.map_some, hvalue]
  | none =>
    have hlarge : ¬ exactFrom 0 run ≤ 2147483647 := by
      intro hle
      obtain ⟨value, hvalue⟩ := exists_toInt_eq_natCast_iff.mpr hle
      rw [ofBytes?_eq_some_iff.mpr hvalue] at hrun
      cases hrun
    rw [if_neg hlarge, Option.map_none]

/-! ### Numerals in a text -/

/-- The bytes of a text from the start of a span up to its end. -/
def stretch (text : List Char) (span : Span) : List UInt8 :=
  ((bytes text).drop span.start).take (span.stop - span.start)

/-- The value of a numeral is that of the bytes under its span. -/
theorem value?_eq_ofBytes? {text run : List Char} {span : Span}
    (h : slice? text span.start span.stop = some run) :
    value? text span = ofBytes? (bytes run) := by
  unfold value?
  rw [h]
  rfl

/-- **No slice, no value.** A span with a value has its ends between characters of the text. -/
theorem isBoundary_of_value? {text : List Char} {span : Span} {value : Int32}
    (h : value? text span = some value) :
    span.start ≤ span.stop ∧ isBoundary text span.start = true ∧
      isBoundary text span.stop = true := by
  obtain ⟨run, hrun, -⟩ := Option.bind_eq_some_iff.mp h
  obtain ⟨before, after, -, -, hstop⟩ := eq_append_of_slice? hrun
  exact ⟨hstop ▸ Nat.le_add_right _ _, isBoundary_of_slice? hrun⟩

/-- **A run of decimal digits is rejected just when its number is too large.** -/
theorem value?_eq_none_iff {text run : List Char} {span : Span}
    (h : slice? text span.start span.stop = some run) (hrun : ∀ d ∈ run, d.isDigit = true) :
    value? text span = none ↔ 2147483647 < Nat.ofDigitChars 10 run 0 := by
  have hvalue := map_toInt_ofBytes? (bytes run)
  rw [exactFrom_bytes hrun, ← value?_eq_ofBytes? h] at hvalue
  rw [← Option.map_eq_none_iff (f := Int32.toInt), hvalue]
  split
  · next hle => exact ⟨nofun, fun hlt => absurd hle (Nat.not_le.mpr hlt)⟩
  · next hlt => exact ⟨fun _ => Nat.not_le.mp hlt, fun _ => rfl⟩

/-- Zeros in front do not change a number. -/
theorem ofDigitChars_replicate_append (zeros : Nat) (ds : List Char) :
    Nat.ofDigitChars 10 (List.replicate zeros '0' ++ ds) 0 = Nat.ofDigitChars 10 ds 0 := by
  rw [Nat.ofDigitChars_append, Nat.ofDigitChars_replicate_zero, Nat.mul_zero]

/-- The reader of lists reports a number as too large, at its token, when the numeral has no
value. -/
theorem value_eq_overflow_iff {text : List Char} {span token : Span} :
    RangeList.Phase.value text span token = .error ⟨.overflow, token⟩ ↔
      value? text span = none := by
  unfold RangeList.Phase.value
  cases value? text span with
  | some value => exact ⟨nofun, nofun⟩
  | none => exact ⟨fun _ => rfl, fun _ => rfl⟩

/-- **The value of a numeral is exact at the limit.**

A span has no value if it does not lie in the text, or does not begin and end between characters. If
it does, and no byte of it is below those of the digits, then its value is the sum of the place
values, as long as that is at most the largest machine integer, and there is none otherwise.

So a run of decimal digits is rejected, and reported as too large at its token, just when its number
is, however long it is and however many zeros it has in front. -/
theorem value?_exact (text : List Char) (span : Span) :
    (byteLength text < span.start ∨ byteLength text < span.stop ∨ span.stop < span.start ∨
        isBoundary text span.start = false ∨ isBoundary text span.stop = false →
      value? text span = none) ∧
    (span.start ≤ span.stop → isBoundary text span.start = true →
        isBoundary text span.stop = true → (∀ byte ∈ stretch text span, 48 ≤ byte) →
      (value? text span).map Int32.toInt =
        if placeSum (stretch text span) ≤ 2147483647 then some (placeSum (stretch text span))
        else none) ∧
    ∀ zeros ds, slice? text span.start span.stop = some (List.replicate zeros '0' ++ ds) →
      (∀ d ∈ ds, d.isDigit = true) →
      (value? text span = none ↔ 2147483647 < Nat.ofDigitChars 10 ds 0) ∧
      ∀ token, RangeList.Phase.value text span token = .error ⟨.overflow, token⟩ ↔
        2147483647 < Nat.ofDigitChars 10 ds 0 := by
  refine ⟨fun hout => ?_, fun hle hstart hstop hbytes => ?_, fun zeros ds hslice hds => ?_⟩
  · rw [Option.eq_none_iff_forall_ne_some]
    intro value hvalue
    obtain ⟨hle, hstart, hstop⟩ := isBoundary_of_value? hvalue
    have hstart_le := le_byteLength_of_isBoundary hstart
    have hstop_le := le_byteLength_of_isBoundary hstop
    rcases hout with hlt | hlt | hlt | hnone | hnone
    · omega
    · omega
    · omega
    · exact Bool.false_ne_true (hnone.symm.trans hstart)
    · exact Bool.false_ne_true (hnone.symm.trans hstop)
  · obtain ⟨run, hrun⟩ := exists_slice? hle hstart hstop
    have hstretch : bytes run = stretch text span := bytes_of_slice? hrun
    rw [value?_eq_ofBytes? hrun, map_toInt_ofBytes?, hstretch, ← exactFrom_eq_placeSum hbytes]
    exact if_congr (by omega) rfl rfl
  · have hrun : ∀ d ∈ List.replicate zeros '0' ++ ds, d.isDigit = true := by
      intro d hd
      rcases List.mem_append.mp hd with hzero | hd
      · rw [List.eq_of_mem_replicate hzero]
        rfl
      · exact hds d hd
    have hnone := value?_eq_none_iff hslice hrun
    rw [ofDigitChars_replicate_append] at hnone
    exact ⟨hnone, fun _ => value_eq_overflow_iff.trans hnone⟩

/-- The largest machine integer with zeros in front, the number behind it, and a span that starts
inside a character. -/
theorem value?_exact_at_limit :
    (value? "7,0002147483647".toList ⟨2, 15⟩).map Int32.toInt = some 2147483647 ∧
      value? "7,0002147483648".toList ⟨2, 15⟩ = none ∧ value? "é7".toList ⟨1, 3⟩ = none := by
  obtain ⟨-, hlargest, -⟩ := value?_exact "7,0002147483647".toList ⟨2, 15⟩
  obtain ⟨-, -, hlarger⟩ := value?_exact "7,0002147483648".toList ⟨2, 15⟩
  obtain ⟨hinside, -⟩ := value?_exact "é7".toList ⟨1, 3⟩
  have hbytes : (stretch "7,0002147483647".toList ⟨2, 15⟩).all (48 ≤ ·) = true := by decide +kernel
  have hsum : placeSum (stretch "7,0002147483647".toList ⟨2, 15⟩) = 2147483647 := by
    decide +kernel
  have hdigits : "2147483648".toList.all Char.isDigit = true := by decide +kernel
  have hnumber : Nat.ofDigitChars 10 "2147483648".toList 0 = 2147483648 := by decide +kernel
  refine ⟨?_, ?_, ?_⟩
  · rw [hlargest (by decide) (by decide) (by decide)
        (fun byte hbyte => of_decide_eq_true (List.all_eq_true.mp hbytes byte hbyte)),
      hsum, if_pos (Int.le_refl _)]
  · exact (hlarger 3 "2147483648".toList rfl (List.all_eq_true.mp hdigits)).1.mpr (by omega)
  · exact hinside (.inr (.inr (.inr (.inl (by decide)))))

end PageSelection.Numeral
