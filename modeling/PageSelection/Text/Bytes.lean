/-!
# Texts and their bytes

A text is a list of characters, and its positions are **byte offsets** in its UTF-8 form. Only
some offsets fall between two characters; those are the *boundaries*, and a text can be divided
there and nowhere else.

* `byteLength` measures a text, and `bytes` spells it out;
* `drop?` and `take?` are the two sides of a text at an offset, and fail inside a character and
  past the end;
* `slice?` is the stretch between two boundaries.

A text is the concatenation of its two sides, and the first side is as long as the offset says
(`eq_append_of_drop?`, `eq_append_of_take?`).
-/

namespace PageSelection.Text

/-- The number of bytes of a text. -/
def byteLength : List Char → Nat
  | [] => 0
  | c :: cs => c.utf8Size + byteLength cs

/-- The bytes of a text, in order. -/
def bytes (cs : List Char) : List UInt8 := cs.flatMap String.utf8EncodeChar

/-- What follows the first `n` bytes of a text, when they end with a character. -/
def drop? : Nat → List Char → Option (List Char)
  | 0, cs => some cs
  | _ + 1, [] => none
  | n + 1, c :: cs => if c.utf8Size ≤ n + 1 then drop? (n + 1 - c.utf8Size) cs else none

/-- The characters of the first `n` bytes of a text, when they end with a character. -/
def take? : Nat → List Char → Option (List Char)
  | 0, _ => some []
  | _ + 1, [] => none
  | n + 1, c :: cs =>
    if c.utf8Size ≤ n + 1 then (take? (n + 1 - c.utf8Size) cs).map (c :: ·) else none

/-- Whether a byte offset falls between two characters, or at an end of the text. -/
def isBoundary (cs : List Char) (offset : Nat) : Bool := (drop? offset cs).isSome

/-- The stretch of a text between two boundaries, of which the first is not after the second. -/
def slice? (cs : List Char) (start stop : Nat) : Option (List Char) :=
  if start ≤ stop then (drop? start cs).bind (take? (stop - start)) else none

@[simp] theorem byteLength_nil : byteLength [] = 0 := rfl

@[simp] theorem byteLength_cons (c : Char) (cs : List Char) :
    byteLength (c :: cs) = c.utf8Size + byteLength cs := rfl

@[simp] theorem byteLength_append (cs ds : List Char) :
    byteLength (cs ++ ds) = byteLength cs + byteLength ds := by
  induction cs with
  | nil => simp
  | cons c cs ih => simp [ih, Nat.add_assoc]

/-- A text is as long as its bytes are many. -/
@[simp] theorem length_bytes (cs : List Char) : (bytes cs).length = byteLength cs := by
  induction cs with
  | nil => rfl
  | cons c cs ih =>
    rw [byteLength_cons, ← ih, bytes, bytes, List.flatMap_cons, List.length_append,
      String.length_utf8EncodeChar]

/-- The length of a string in bytes is that of its characters. -/
theorem byteLength_toList (s : String) : byteLength s.toList = s.utf8ByteSize := by
  rw [← length_bytes, bytes]
  conv => rhs; rw [← String.ofList_toList (s := s)]
  rw [← String.size_toByteArray, String.toByteArray_ofList, List.utf8Encode]
  simp

/-- Behind the bytes of a first part comes the second part. -/
theorem drop?_append (cs ds : List Char) : drop? (byteLength cs) (cs ++ ds) = some ds := by
  induction cs with
  | nil => simp [drop?]
  | cons c cs ih =>
    obtain ⟨k, hk⟩ : ∃ k, c.utf8Size + byteLength cs = k + 1 :=
      ⟨c.utf8Size + byteLength cs - 1, by have := c.utf8Size_pos; omega⟩
    have hle : c.utf8Size ≤ k + 1 := by omega
    have hsub : k + 1 - c.utf8Size = byteLength cs := by omega
    simp [hk, drop?, hle, hsub, ih]

/-- The bytes of a first part are those of its characters. -/
theorem take?_append (cs ds : List Char) : take? (byteLength cs) (cs ++ ds) = some cs := by
  induction cs with
  | nil => simp [take?]
  | cons c cs ih =>
    obtain ⟨k, hk⟩ : ∃ k, c.utf8Size + byteLength cs = k + 1 :=
      ⟨c.utf8Size + byteLength cs - 1, by have := c.utf8Size_pos; omega⟩
    have hle : c.utf8Size ≤ k + 1 := by omega
    have hsub : k + 1 - c.utf8Size = byteLength cs := by omega
    simp [hk, take?, hle, hsub, ih]

/-- What can be dropped is a first part of the right length. -/
theorem eq_append_of_drop? {n : Nat} {cs after : List Char} (h : drop? n cs = some after) :
    ∃ before, cs = before ++ after ∧ byteLength before = n := by
  induction cs generalizing n with
  | nil =>
    cases n with
    | zero => exact ⟨[], by simp_all [drop?], rfl⟩
    | succ n => simp [drop?] at h
  | cons c cs ih =>
    cases n with
    | zero =>
      simp only [drop?, Option.some.injEq] at h
      exact ⟨[], by simp [h], rfl⟩
    | succ n =>
      simp only [drop?] at h
      split at h
      · obtain ⟨before, rfl, hlen⟩ := ih h
        exact ⟨c :: before, rfl, by rw [byteLength_cons]; omega⟩
      · simp at h

/-- What can be taken is a first part of the right length. -/
theorem eq_append_of_take? {n : Nat} {cs before : List Char} (h : take? n cs = some before) :
    ∃ after, cs = before ++ after ∧ byteLength before = n := by
  induction cs generalizing n before with
  | nil =>
    cases n with
    | zero => simp_all [take?]
    | succ n => simp [take?] at h
  | cons c cs ih =>
    cases n with
    | zero =>
      simp only [take?, Option.some.injEq] at h
      exact ⟨c :: cs, by simp [← h], by simp [← h]⟩
    | succ n =>
      simp only [take?] at h
      split at h
      · obtain ⟨before', htake, rfl⟩ := Option.map_eq_some_iff.1 h
        obtain ⟨after, rfl, hlen⟩ := ih htake
        exact ⟨after, rfl, by rw [byteLength_cons]; omega⟩
      · simp at h

end PageSelection.Text
