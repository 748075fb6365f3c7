import PageSelection.Text.Bytes

/-!
# Slices of a text and of its first part

A text that is written as a concatenation has boundaries where its parts meet, and each part is the
slice between two of them (`isBoundary_byteLength`, `slice?_middle`). Conversely, a boundary or a
slice divides the text (`eq_append_of_isBoundary`, `eq_append_of_slice?`), and of two first parts
the longer one begins with the shorter (`exists_append_of_le`), so that there is a slice between any
two boundaries (`exists_slice?`).

A slice that ends within a first part does not depend on what follows that part
(`slice?_append_of_le`); so what has been read from a text can be compared with the same reading of
any other text that begins alike. Nor does a slice behind a first part depend on that part, but for
its length (`slice?_append_right`).
-/

namespace PageSelection.Text

theorem byteLength_pos {cs : List Char} (h : cs ≠ []) : 0 < byteLength cs := by
  obtain ⟨c, cs, rfl⟩ := List.exists_cons_of_ne_nil h
  rw [byteLength_cons]
  exact Nat.add_pos_left c.utf8Size_pos _

/-- Only the empty text has no bytes. -/
theorem byteLength_eq_zero_iff {cs : List Char} : byteLength cs = 0 ↔ cs = [] := by
  constructor
  · intro h
    cases cs with
    | nil => rfl
    | cons c cs => exact absurd h (Nat.ne_of_gt (byteLength_pos (List.cons_ne_nil c cs)))
  · rintro rfl
    rfl

theorem utf8ByteSize_ofList (cs : List Char) : (String.ofList cs).utf8ByteSize = byteLength cs := by
  rw [← byteLength_toList, String.toList_ofList]

/-- The parts of a text meet at a boundary. -/
theorem isBoundary_byteLength (before after : List Char) :
    isBoundary (before ++ after) (byteLength before) = true := by
  unfold isBoundary
  rw [drop?_append, Option.isSome_some]

/-- The part between two boundaries is the slice from one to the other. -/
theorem slice?_middle (before own after : List Char) :
    slice? (before ++ (own ++ after)) (byteLength before) (byteLength before + byteLength own) =
      some own := by
  unfold slice?
  rw [if_pos (Nat.le_add_right _ _), drop?_append, Option.bind_some, Nat.add_sub_cancel_left,
    take?_append]

/-! ### First parts of one text -/

/-- The longer of two first parts of a text begins with the shorter one. -/
theorem exists_append_of_le {cs cs' ds ds' : List Char} (h : cs ++ ds = cs' ++ ds')
    (hle : byteLength cs ≤ byteLength cs') : ∃ more, cs' = cs ++ more ∧ ds = more ++ ds' := by
  rcases List.append_eq_append_iff.mp h with hsplit | ⟨more, rfl, rfl⟩
  · exact hsplit
  · -- the other way round, the part that is left over has no bytes
    rw [byteLength_append] at hle
    obtain rfl : more = [] := byteLength_eq_zero_iff.mp (by omega)
    exact ⟨[], by simp, rfl⟩

/-- First parts of a text that are equally long are equal, and so is what follows them. -/
theorem append_inj_of_byteLength {cs cs' ds ds' : List Char} (h : cs ++ ds = cs' ++ ds')
    (hlength : byteLength cs = byteLength cs') : cs = cs' ∧ ds = ds' := by
  obtain ⟨more, rfl, rfl⟩ := exists_append_of_le h (Nat.le_of_eq hlength)
  rw [byteLength_append] at hlength
  obtain rfl : more = [] := byteLength_eq_zero_iff.mp (by omega)
  exact ⟨(List.append_nil cs).symm, rfl⟩

/-- A boundary divides the text. -/
theorem eq_append_of_isBoundary {cs : List Char} {offset : Nat} (h : isBoundary cs offset = true) :
    ∃ before after, cs = before ++ after ∧ byteLength before = offset := by
  obtain ⟨after, hafter⟩ := Option.isSome_iff_exists.mp h
  obtain ⟨before, hsplit, hlength⟩ := eq_append_of_drop? hafter
  exact ⟨before, after, hsplit, hlength⟩

/-- A slice divides the text into what precedes it, itself, and what follows it. -/
theorem eq_append_of_slice? {cs own : List Char} {start stop : Nat}
    (h : slice? cs start stop = some own) :
    ∃ before after, cs = before ++ (own ++ after) ∧ byteLength before = start ∧
      stop = start + byteLength own := by
  unfold slice? at h
  split at h
  · next hle =>
    obtain ⟨rest, hdrop, htake⟩ := Option.bind_eq_some_iff.mp h
    obtain ⟨before, rfl, hstart⟩ := eq_append_of_drop? hdrop
    obtain ⟨after, rfl, hlength⟩ := eq_append_of_take? htake
    exact ⟨before, after, rfl, hstart, by omega⟩
  · cases h

/-- A slice begins and ends at boundaries. -/
theorem isBoundary_of_slice? {cs own : List Char} {start stop : Nat}
    (h : slice? cs start stop = some own) :
    isBoundary cs start = true ∧ isBoundary cs stop = true := by
  obtain ⟨before, after, rfl, rfl, rfl⟩ := eq_append_of_slice? h
  refine ⟨isBoundary_byteLength before (own ++ after), ?_⟩
  rw [← List.append_assoc, ← byteLength_append]
  exact isBoundary_byteLength (before ++ own) after

/-- A boundary is not past the end. -/
theorem le_byteLength_of_isBoundary {cs : List Char} {offset : Nat}
    (h : isBoundary cs offset = true) : offset ≤ byteLength cs := by
  obtain ⟨before, after, rfl, rfl⟩ := eq_append_of_isBoundary h
  rw [byteLength_append]
  exact Nat.le_add_right _ _

/-- **There is a slice between any two boundaries.** -/
theorem exists_slice? {cs : List Char} {start stop : Nat} (hle : start ≤ stop)
    (hstart : isBoundary cs start = true) (hstop : isBoundary cs stop = true) :
    ∃ own, slice? cs start stop = some own := by
  obtain ⟨before, after, rfl, rfl⟩ := eq_append_of_isBoundary hstart
  obtain ⟨before', after', hsplit, rfl⟩ := eq_append_of_isBoundary hstop
  -- the slice is what the longer of the two first parts has more than the shorter one
  obtain ⟨own, rfl, rfl⟩ := exists_append_of_le hsplit hle
  rw [byteLength_append]
  exact ⟨own, slice?_middle before own after'⟩

/-! ### What follows a first part -/

/-- Dropping bytes of the first part leaves the rest of it in front of the second. -/
theorem drop?_append_of_le {n : Nat} {cs : List Char} (h : n ≤ byteLength cs) (ds : List Char) :
    drop? n (cs ++ ds) = (drop? n cs).map (· ++ ds) := by
  -- the bytes are dropped character by character, and are used up before the first part is
  induction cs generalizing n with
  | nil =>
    obtain rfl : n = 0 := Nat.le_zero.mp h
    rw [List.nil_append, drop?, drop?, Option.map_some, List.nil_append]
  | cons c cs ih =>
    cases n with
    | zero => rw [drop?, drop?, Option.map_some]
    | succ n =>
      rw [List.cons_append, drop?, drop?]
      rw [byteLength_cons] at h
      by_cases hle : c.utf8Size ≤ n + 1
      · rw [if_pos hle, if_pos hle, ih (Nat.sub_le_iff_le_add'.mpr h)]
      · rw [if_neg hle, if_neg hle, Option.map_none]

/-- Bytes of the first part are taken from it alone. -/
theorem take?_append_of_le {n : Nat} {cs : List Char} (h : n ≤ byteLength cs) (ds : List Char) :
    take? n (cs ++ ds) = take? n cs := by
  induction cs generalizing n with
  | nil =>
    obtain rfl : n = 0 := Nat.le_zero.mp h
    rw [List.nil_append, take?, take?]
  | cons c cs ih =>
    cases n with
    | zero => rw [take?, take?]
    | succ n =>
      rw [List.cons_append, take?, take?]
      rw [byteLength_cons] at h
      by_cases hle : c.utf8Size ≤ n + 1
      · rw [if_pos hle, if_pos hle, ih (Nat.sub_le_iff_le_add'.mpr h)]
      · rw [if_neg hle, if_neg hle]

/-- **Slices of a first part.** What follows the part does not matter. -/
theorem slice?_append_of_le {cs : List Char} {start stop : Nat} (h : stop ≤ byteLength cs)
    (ds : List Char) : slice? (cs ++ ds) start stop = slice? cs start stop := by
  unfold slice?
  by_cases hle : start ≤ stop
  · rw [if_pos hle, if_pos hle, drop?_append_of_le (Nat.le_trans hle h)]
    cases hdrop : drop? start cs with
    | none => rfl
    | some rest =>
      -- what is left behind `start` still reaches as far as `stop`
      obtain ⟨before, rfl, hlength⟩ := eq_append_of_drop? hdrop
      rw [byteLength_append, hlength] at h
      show take? (stop - start) (rest ++ ds) = take? (stop - start) rest
      exact take?_append_of_le (Nat.sub_le_iff_le_add'.mpr h) ds
  · rw [if_neg hle, if_neg hle]

/-! ### Behind a first part -/

/-- Behind a first part, bytes are dropped as if that part were not there. -/
theorem drop?_append_right (before cs : List Char) (n : Nat) :
    drop? (n + byteLength before) (before ++ cs) = drop? n cs := by
  induction before with
  | nil => rfl
  | cons c before ih =>
    -- the first character is dropped in any case, since the offset is behind it
    obtain ⟨k, hk⟩ : ∃ k, n + (c.utf8Size + byteLength before) = k + 1 :=
      ⟨n + (c.utf8Size + byteLength before) - 1, by have := c.utf8Size_pos; omega⟩
    have hle : c.utf8Size ≤ k + 1 := by omega
    have hsub : k + 1 - c.utf8Size = n + byteLength before := by omega
    rw [byteLength_cons, hk, List.cons_append, drop?, if_pos hle, hsub, ih]

/-- **Slices behind a first part.** They are those of the second part alone, at offsets that are
counted from its beginning. -/
theorem slice?_append_right (before cs : List Char) (start stop : Nat) :
    slice? (before ++ cs) (start + byteLength before) (stop + byteLength before) =
      slice? cs start stop := by
  unfold slice?
  rw [drop?_append_right, Nat.add_sub_add_right]
  simp only [Nat.add_le_add_iff_right]

end PageSelection.Text
