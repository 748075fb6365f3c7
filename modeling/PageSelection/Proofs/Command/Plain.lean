import PageSelection.Command.Plain
import PageSelection.Proofs.Command.Rendering

/-!
# The plain console can be relied on

Every offset of a document can be located, be it in the text or not. So the plain form of an error
at a single place only needs the document of the error, and fails if that is missing. It begins with
a message and with the place (`exists_render_errorAt`), and this is what the console has to be
relied on for.
-/

namespace PageSelection

namespace Diagnostic

open Document (exists_lineSpan exists_location)

/-- A label has an excerpt if its document is there, which is made from the document alone. -/
theorem exists_excerpt (d : Document) (role : Role) (span : Span) (message : String) :
    ∃ location line, d.location span.start = .ok location ∧
      ∀ {ds : Documents} {id : Document.Id}, ds.get? id = some d →
        Label.excerpt ds ⟨role, id, span, message⟩ =
          .ok ⟨⟨role, id, span, message⟩, d, location, line⟩ := by
  obtain ⟨column, hlocation⟩ := exists_location d span.start
  obtain ⟨line, hline, -⟩ := exists_lineSpan d span.start
  refine ⟨⟨d.lineIndex span.start + 1, column⟩, line, hlocation, fun {ds id} hd => ?_⟩
  have hfind : ds.find id = .ok d := by
    unfold Documents.find
    rw [hd]
    rfl
  unfold Label.excerpt
  rw [hfind]
  show (do
    let location ← d.location span.start
    let line ← d.lineSpan (d.lineIndex span.start)
    return (⟨⟨role, id, span, message⟩, d, location, line⟩ : Excerpt)) = _
  rw [hlocation, hline]
  rfl

/-- **The plain form of an error at a single place** depends on the document alone, and tells the
place in it. -/
theorem exists_render_errorAt (d : Document) (span : Span) (message label : String)
    (notes : List String) :
    ∃ text, Tells text d span.start ∧ ∀ {ds : Documents} {id : Document.Id}, ds.get? id = some d →
      (errorAt id span message label notes).render ds = .ok text := by
  obtain ⟨location, line, hlocation, hexcerpt⟩ := exists_excerpt d .primary span label
  -- no line of the excerpt shows the identifier in its label
  let excerpt : Excerpt := ⟨⟨.primary, .none, span, label⟩, d, location, line⟩
  let width := max 0 excerpt.lineNumber.length
  let blank := String.ofList (List.replicate width ' ')
  let separator := if notes.isEmpty then [] else [blank ++ " │"]
  let rest := (excerpt.lines width).tail ++ separator ++ notes.map (blank ++ " = " ++ ·) ++ [""]
  refine ⟨_, ⟨"error: " ++ message ++ "\n" ++ blank ++ " ┌─ ",
    "\n" ++ String.join (rest.map (· ++ "\n")), location, hlocation, rfl⟩, fun {ds id} hd => ?_⟩
  unfold render errorAt
  rw [List.mapM_cons, hexcerpt hd]
  show Except.ok (String.join ((("error: " ++ message) :: (blank ++ " ┌─ " ++ d.name ++ ":" ++
    toString location.line ++ ":" ++ toString location.column) :: rest).map (· ++ "\n"))) = _
  simp only [List.map_cons, String.join_cons, String.append_assoc]

end Diagnostic

/-- **The plain console can be relied on.** -/
theorem Command.Console.faithful_plain : Console.plain.Faithful where
  renders {_ _ d span} hd _ _ _ _ _ _ message label notes := by
    obtain ⟨text, -, hrender⟩ := Diagnostic.exists_render_errorAt d span message label notes
    exact ⟨text, hrender hd⟩
  tells {_ _ d span} hd _ message label notes text htext := by
    obtain ⟨text', htells, hrender⟩ := Diagnostic.exists_render_errorAt d span message label notes
    obtain rfl : text' = text := Except.ok.inj ((hrender hd).symm.trans htext)
    exact htells
  confined {_ _ _ _ d} hd hd' _ span message label notes := by
    obtain ⟨text, -, hrender⟩ := Diagnostic.exists_render_errorAt d span message label notes
    exact (hrender hd).trans (hrender hd').symm

end PageSelection
