import PageSelection.Proofs.Text.Slice

/-!
# Texts as streams of bytes

Bytes are valid UTF-8 if they are the bytes of some text (`isValidUTF8_iff`), and decoding finds
that text (`fromUTF8?_bytes`, `bytes_of_fromUTF8?`). The bytes of a slice are those between its ends
(`bytes_of_slice?`). A line feed is a byte of its own, and that byte is part of no other character
(`lineFeed_mem_bytes`): bytes can be cut at line feeds before they are decoded.
-/

namespace PageSelection.Text

theorem bytes_append (cs ds : List Char) : bytes (cs ++ ds) = bytes cs ++ bytes ds :=
  List.flatMap_append

theorem bytes_ne_nil {cs : List Char} (h : cs ≠ []) : bytes cs ≠ [] := by
  rw [← List.length_pos_iff, length_bytes]
  exact byteLength_pos h

/-- The bytes of a slice are those between its ends. -/
theorem bytes_of_slice? {cs own : List Char} {start stop : Nat}
    (h : slice? cs start stop = some own) :
    bytes own = ((bytes cs).drop start).take (stop - start) := by
  obtain ⟨before, after, rfl, rfl, rfl⟩ := eq_append_of_slice? h
  rw [bytes_append, bytes_append, List.drop_left' (length_bytes before), Nat.add_sub_cancel_left,
    List.take_left' (length_bytes own)]

/-- A list of bytes is known by the array of them. -/
theorem toByteArray_injective {a b : List UInt8} (h : a.toByteArray = b.toByteArray) : a = b := by
  have hdata := congrArg (·.data.toList) h
  simpa using hdata

/-- **Valid bytes are the bytes of a text.** -/
theorem isValidUTF8_iff {stream : List UInt8} :
    stream.toByteArray.IsValidUTF8 ↔ ∃ cs, bytes cs = stream := by
  constructor
  · rintro ⟨cs, hcs⟩
    exact ⟨cs, toByteArray_injective hcs.symm⟩
  · rintro ⟨cs, rfl⟩
    exact ⟨cs, rfl⟩

/-- Decoding undoes encoding. -/
theorem fromUTF8?_bytes (cs : List Char) :
    String.fromUTF8? (bytes cs).toByteArray = some (String.ofList cs) := by
  have hvalid : (bytes cs).toByteArray.IsValidUTF8 := isValidUTF8_iff.mpr ⟨cs, rfl⟩
  unfold String.fromUTF8?
  rw [dif_pos hvalid]
  rfl

theorem bytes_injective {cs ds : List Char} (h : bytes cs = bytes ds) : cs = ds := by
  have hdecoded : some (String.ofList cs) = some (String.ofList ds) := by
    rw [← fromUTF8?_bytes, h, fromUTF8?_bytes]
  exact String.ofList_inj.mp (Option.some.inj hdecoded)

/-- What can be decoded was encoded. -/
theorem bytes_of_fromUTF8? {stream : List UInt8} {text : String}
    (h : String.fromUTF8? stream.toByteArray = some text) : bytes text.toList = stream := by
  unfold String.fromUTF8? at h
  split at h
  · next hvalid =>
    obtain ⟨cs, rfl⟩ := isValidUTF8_iff.mp hvalid
    obtain rfl : String.ofList cs = text := Option.some.inj h
    rw [String.toList_ofList]
  · cases h

/-- A byte is 10 only if its number is. -/
theorem ten_eq_ofNat_iff {n : Nat} (h : n < 256) : (10 : UInt8) = UInt8.ofNat n ↔ n = 10 := by
  rw [← UInt8.toNat_inj, UInt8.toNat_ofNat_of_lt' h]
  exact eq_comm

/-- The bytes of a character above ASCII are above ASCII as well. -/
theorem lineFeed_mem_utf8EncodeChar {c : Char} :
    10 ∈ String.utf8EncodeChar c ↔ c = '\n' := by
  have hcode : c = '\n' ↔ c.val.toNat = 10 := by
    rw [Char.ext_iff, ← UInt32.toNat_inj]
    rfl
  rw [hcode]
  simp only [String.utf8EncodeChar]
  generalize c.val.toNat = code
  -- one case for each number of bytes, of which all but a single one are at least 128
  split
  · rw [List.mem_singleton, ten_eq_ofNat_iff (by omega)]
  all_goals
    repeat' split
    all_goals
      simp only [List.mem_cons, List.not_mem_nil, or_false]
      repeat rw [ten_eq_ofNat_iff (by omega)]
      omega

/-- **A line feed is encoded by the byte 10,** and nothing else is. -/
theorem lineFeed_mem_bytes {cs : List Char} : 10 ∈ bytes cs ↔ '\n' ∈ cs := by
  rw [bytes, List.mem_flatMap]
  constructor
  · rintro ⟨c, hc, hfeed⟩
    rwa [← lineFeed_mem_utf8EncodeChar.mp hfeed]
  · intro h
    exact ⟨'\n', h, lineFeed_mem_utf8EncodeChar.mpr rfl⟩

end PageSelection.Text
