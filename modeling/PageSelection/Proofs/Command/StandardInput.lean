import PageSelection.Command.Input
import PageSelection.Proofs.RangeList.Phase
import PageSelection.Proofs.Text.Encoding

/-!
# The lines of standard input

`Text.Lines` says what the lines of a text are: they are ended by a line feed, with or without a
carriage return in front of it, or by the end of the text. The command works on bytes instead. It
cuts them after each line feed, decodes one line after the other, and fails at the first one that
it cannot decode.

Both come to the same. The byte of a line feed is part of no other character, so that the bytes of
a text are cut where its lines end (`mapM_decodeLine`); and if all lines can be decoded one by one,
then so can the whole stream (`exists_bytes_of_mapM`). Hence the inputs are the numbered lines that
are not blank (`stdinInputs_bytes`), or there are none because the stream is not valid
(`stdinInputs_of_not_valid`).
-/

namespace PageSelection

/-! ### Lines of a text -/

/-- The lines of a text are these, each without the line feed, or the carriage return and the line
feed, that ends it. A last line need not be ended, but then it is not empty. -/
inductive Text.Lines : List Char → List (List Char) → Prop
  | nil : Lines [] []
  | last {line : List Char} (hne : line ≠ []) (hfeed : '\n' ∉ line) : Lines line [line]
  | feed {line rest : List Char} {lines : List (List Char)} (hfeed : '\n' ∉ line)
      (hreturn : line.getLast? ≠ some '\r') (h : Lines rest lines) :
      Lines (line ++ '\n' :: rest) (line :: lines)
  | returnFeed {line rest : List Char} {lines : List (List Char)} (hfeed : '\n' ∉ line)
      (h : Lines rest lines) : Lines (line ++ '\r' :: '\n' :: rest) (line :: lines)

/-- Every text has lines. -/
theorem Text.exists_lines (cs : List Char) : ∃ lines, Lines cs lines := by
  -- by induction on the length: what follows the first line feed is shorter
  induction hn : cs.length using Nat.strongRecOn generalizing cs with
  | ind n ih =>
    by_cases hfeed : '\n' ∈ cs
    · obtain ⟨line, rest, rfl, hline⟩ := List.eq_append_cons_of_mem hfeed
      have hlt : rest.length < n := by
        rw [← hn, List.length_append, List.length_cons]
        omega
      obtain ⟨lines, hlines⟩ := ih rest.length hlt rest rfl
      by_cases hreturn : line.getLast? = some '\r'
      · obtain ⟨line, rfl⟩ := List.getLast?_eq_some_iff.mp hreturn
        refine ⟨line :: lines, ?_⟩
        rw [List.append_assoc]
        exact .returnFeed (fun h => hline (List.mem_append_left _ h)) hlines
      · exact ⟨line :: lines, .feed hline hreturn hlines⟩
    · by_cases hne : cs = []
      · exact ⟨[], hne ▸ .nil⟩
      · exact ⟨[cs], .last hne hfeed⟩

namespace Command

/-! ### Lines of bytes -/

/-- Cutting loses nothing. -/
theorem flatten_splitLines (stream : List UInt8) : (splitLines stream).flatten = stream := by
  induction stream with
  | nil => rfl
  | cons byte stream ih =>
    rw [splitLines]
    split
    · rw [List.flatten_cons, ih, List.singleton_append]
    · split
      · next hnil => rw [← ih, hnil]; rfl
      · next line lines hcons => rw [← ih, hcons]; rfl

/-- The first cut is behind the first line feed. -/
theorem splitLines_append {line : List UInt8} (h : 10 ∉ line) (rest : List UInt8) :
    splitLines (line ++ 10 :: rest) = (line ++ [10]) :: splitLines rest := by
  induction line with
  | nil => rfl
  | cons byte line ih =>
    have hbyte : byte ≠ 10 := fun heq => h (heq ▸ List.mem_cons_self)
    rw [List.cons_append, splitLines, if_neg hbyte, ih fun hmem => h (List.mem_cons_of_mem _ hmem)]
    rfl

/-- Without a line feed there is only one line. -/
theorem splitLines_of_not_mem {line : List UInt8} (hne : line ≠ []) (h : 10 ∉ line) :
    splitLines line = [line] := by
  induction line with
  | nil => exact absurd rfl hne
  | cons byte line ih =>
    have hbyte : byte ≠ 10 := fun heq => h (heq ▸ List.mem_cons_self)
    rw [splitLines, if_neg hbyte]
    by_cases hnil : line = []
    · rw [hnil]
      rfl
    · rw [ih hnil fun hmem => h (List.mem_cons_of_mem _ hmem)]

/-! ### Decoding lines -/

theorem dropLineEnd_feed {line : List Char} (h : line.getLast? ≠ some '\r') :
    dropLineEnd (line ++ ['\n']) = line := by
  obtain ⟨reversed, rfl⟩ : ∃ reversed, line = List.reverse reversed :=
    ⟨line.reverse, line.reverse_reverse.symm⟩
  rw [List.getLast?_reverse] at h
  rw [dropLineEnd, List.reverse_append, List.reverse_reverse]
  cases reversed with
  | nil => rfl
  | cons c reversed =>
    have hc : c ≠ '\r' := fun heq => h (heq ▸ rfl)
    simp [hc]

theorem dropLineEnd_returnFeed (line : List Char) : dropLineEnd (line ++ ['\r', '\n']) = line := by
  rw [dropLineEnd, List.reverse_append]
  exact List.reverse_reverse line

theorem dropLineEnd_of_not_mem {line : List Char} (h : '\n' ∉ line) : dropLineEnd line = line := by
  rw [← List.mem_reverse] at h
  unfold dropLineEnd
  split
  · next heq => exact absurd (heq ▸ List.mem_cons_self) h
  · next heq => exact absurd (heq ▸ List.mem_cons_self) h
  · rfl

theorem decodeLine_bytes (cs : List Char) :
    decodeLine (Text.bytes cs) = .ok (String.ofList (dropLineEnd cs)) := by
  unfold decodeLine
  rw [Text.fromUTF8?_bytes]
  simp only [String.toList_ofList]
  rfl

theorem bytes_of_decodeLine {line : List UInt8} {text : String} (h : decodeLine line = .ok text) :
    ∃ cs, Text.bytes cs = line := by
  unfold decodeLine at h
  split at h
  · next decoded hdecoded => exact ⟨decoded.toList, Text.bytes_of_fromUTF8? hdecoded⟩
  · cases h

/-- The bytes of a text are cut where its first line ends. -/
theorem splitLines_bytes {line : List Char} (h : '\n' ∉ line) (rest : List Char) :
    splitLines (Text.bytes (line ++ '\n' :: rest)) =
      Text.bytes (line ++ ['\n']) :: splitLines (Text.bytes rest) := by
  rw [Text.bytes_append, Text.bytes_append]
  exact splitLines_append (mt Text.lineFeed_mem_bytes.mp h) _

/-- **Decoding line by line.** The lines of the bytes of a text are the lines of the text. -/
theorem mapM_decodeLine {cs : List Char} {lines : List (List Char)} (h : Text.Lines cs lines) :
    (splitLines (Text.bytes cs)).mapM decodeLine = .ok (lines.map String.ofList) := by
  induction h with
  | nil => rfl
  | last hne hfeed =>
    rw [splitLines_of_not_mem (Text.bytes_ne_nil hne) (mt Text.lineFeed_mem_bytes.mp hfeed),
      List.mapM_cons, decodeLine_bytes, dropLineEnd_of_not_mem hfeed]
    rfl
  | feed hfeed hreturn _ ih =>
    rw [splitLines_bytes hfeed, List.mapM_cons, decodeLine_bytes, dropLineEnd_feed hreturn, ih]
    rfl
  | @returnFeed line rest lines hfeed _ ih =>
    -- the cut leaves the carriage return in the line, and only its decoding takes it off
    have hfeed' : '\n' ∉ line ++ ['\r'] := by simpa using hfeed
    rw [List.append_cons, splitLines_bytes hfeed', List.mapM_cons, decodeLine_bytes,
      List.append_assoc, List.singleton_append, dropLineEnd_returnFeed, ih]
    rfl

/-- If all lines can be decoded, then they are lines of a text. -/
theorem exists_bytes_of_mapM {lines : List (List UInt8)} {texts : List String}
    (h : lines.mapM decodeLine = .ok texts) : ∃ cs, Text.bytes cs = lines.flatten := by
  induction lines generalizing texts with
  | nil => exact ⟨[], rfl⟩
  | cons line lines ih =>
    rw [List.mapM_cons, bind_eq_ok_iff] at h
    obtain ⟨text, hline, h⟩ := h
    rw [bind_eq_ok_iff] at h
    obtain ⟨texts, hlines, -⟩ := h
    obtain ⟨cs, hcs⟩ := bytes_of_decodeLine hline
    obtain ⟨ds, hds⟩ := ih hlines
    exact ⟨cs ++ ds, by rw [Text.bytes_append, hcs, hds, List.flatten_cons]⟩

/-! ### The inputs of standard input -/

/-- The inputs that lines are: those that are not blank, by their numbers. -/
def lineInputs (lines : List (List Char)) : List Document :=
  ((lines.zipIdx 1).filter fun (line, _) => !line.all Text.isBlank).map fun (line, number) =>
    ⟨"<stdin:" ++ toString number ++ ">", String.ofList line⟩

/-- **The lines of valid input** are its inputs. -/
theorem stdinInputs_bytes {cs : List Char} {lines : List (List Char)} (h : Text.Lines cs lines) :
    stdinInputs (Text.bytes cs) = .ok (lineInputs lines) := by
  unfold stdinInputs lineInputs
  rw [mapM_decodeLine h]
  refine congrArg Except.ok ?_
  -- both sides number the lines, name them and leave some out, in a different order
  rw [List.zipIdx_map, List.map_map, List.filter_map, List.zipIdx_succ, List.filter_map,
    List.map_map]
  congr 1
  refine List.filter_congr fun (line, number) _ => ?_
  simp only [Function.comp_apply, Prod.map_apply, String.toList_ofList]

/-- **Input that is not valid** has no inputs. -/
theorem stdinInputs_of_not_valid {stream : List UInt8} (h : ¬ stream.toByteArray.IsValidUTF8) :
    stdinInputs stream = .error .invalidEncoding := by
  have hmapM : ∀ texts, (splitLines stream).mapM decodeLine ≠ .ok texts := by
    intro texts htexts
    obtain ⟨cs, hcs⟩ := exists_bytes_of_mapM htexts
    rw [flatten_splitLines] at hcs
    exact h (Text.isValidUTF8_iff.mpr ⟨cs, hcs⟩)
  unfold stdinInputs
  cases hlines : (splitLines stream).mapM decodeLine with
  | ok texts => exact absurd hlines (hmapM texts)
  | error e =>
    -- there is only one error
    cases e
    rfl

end Command

/-- A text has only one list of lines, since decoding its bytes gives only one. -/
theorem Text.Lines.unique {cs : List Char} {lines lines' : List (List Char)} (h : Lines cs lines)
    (h' : Lines cs lines') : lines = lines' := by
  have hmap : lines.map String.ofList = lines'.map String.ofList :=
    Except.ok.inj ((Command.mapM_decodeLine h).symm.trans (Command.mapM_decodeLine h'))
  exact (List.map_inj_right fun _ _ => String.ofList_inj.mp).mp hmap

end PageSelection
