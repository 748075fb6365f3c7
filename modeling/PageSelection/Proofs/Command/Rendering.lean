import PageSelection.Command.Console
import PageSelection.Proofs.Selection.Report

/-!
# Rendering an error

What a diagnostic looks like is up to the console, and results about the command hold on every
console of which three things can be relied on (`Console.Faithful`). An error at a place that can be
looked up is rendered, for rendering fails only where a look-up does; the text that is rendered
tells this place, which is what a diagnostic is headed by; and it does not depend on what else is in
the collection, of which only the document under the label is asked for. Nothing is assumed about
colours, about the form in which a line is shown, or about what happens to diagnostics of another
kind.

A text that selects no pages has a diagnostic at a place that can be looked up, and this is all that
the console has to be given: `Console.Faithful.exists_complaint`.
-/

namespace PageSelection

/-- The text tells the place of an offset in a document: the name of the document, a line number and
a column number stand in it, one behind the other. -/
def Tells (text : String) (d : Document) (offset : Nat) : Prop :=
  ∃ (before after : String) (location : Document.Location), d.location offset = .ok location ∧
    text = before ++ d.name ++ ":" ++ toString location.line ++ ":" ++ toString location.column ++
      after

namespace Command

/-- **What is relied on of a console,** for errors at a single place. -/
structure Console.Faithful (c : Console) : Prop where
  /-- An error is rendered if it is at characters of a document in the collection, and line and
  column of both ends can be looked up. -/
  renders : ∀ {ds : Documents} {id : Document.Id} {d : Document} {span : Span},
    ds.get? id = some d → span.start ≤ span.stop →
    Text.isBoundary d.text.toList span.start = true →
    Text.isBoundary d.text.toList span.stop = true →
    d.Resolves span.start → d.Resolves span.stop → ∀ colour message label notes,
      ∃ text, c.render colour ds (.errorAt id span message label notes) = .ok text
  /-- What is rendered tells where the error begins. -/
  tells : ∀ {ds : Documents} {id : Document.Id} {d : Document} {span : Span},
    ds.get? id = some d → ∀ colour message label notes text,
      c.render colour ds (.errorAt id span message label notes) = .ok text →
      Tells text d span.start
  /-- The other documents in the collection do not matter, nor by which identifier the document of
  the error is found. -/
  confined : ∀ {ds ds' : Documents} {id id' : Document.Id} {d : Document},
    ds.get? id = some d → ds'.get? id' = some d → ∀ colour span message label notes,
      c.render colour ds (.errorAt id span message label notes) =
        c.render colour ds' (.errorAt id' span message label notes)

/-- `IsComplaint c colour input e span text` holds when the input is rejected for the error `e`, at
`span`, and the text is what a console renders for that. -/
structure IsComplaint (c : Console) (colour : Colour) (input : Document) (e : Selection.Error)
    (span : Span) (text : String) : Prop where
  /-- The input selects no pages. -/
  rejected : Selection.ofText input.text = .error e
  /-- Its diagnostic has a single label, which is at this place. -/
  place : ∀ id, ∃ words, (e.diagnostic id input.text).labels = [⟨.primary, id, span, words⟩]
  /-- The text names the input, and tells the place in it. -/
  tells : Tells text input span.start
  /-- The text is what is rendered, whatever collection the input is in. -/
  rendered : ∀ (ds : Documents) (id : Document.Id), ds.get? id = some input →
    c.render colour ds (e.diagnostic id input.text) = .ok text

end Command

namespace Selection

/-- **The diagnostic of an error** is at a single place, which is that of some characters. -/
theorem exists_errorAt {d : Document} {e : Error} (h : ofText d.text = .error e) :
    ∃ (span : Span) (own : List Char) (message label : String) (notes : List String),
      span.Marks d.text.toList own ∧
        ∀ id, e.diagnostic id d.text = .errorAt id span message label notes := by
  have hform : ∃ span message label notes, ∀ id : Document.Id,
      e.diagnostic id d.text = .errorAt id span message label notes := by
    unfold Error.diagnostic
    split <;> exact ⟨_, _, _, _, fun _ => rfl⟩
  obtain ⟨span, message, label, notes, hdiagnostic⟩ := hform
  -- the place is the one that is marked, since there is only one label
  obtain ⟨words, marked, own, hlabels, hmarks, -⟩ := exists_label h .none
  rw [hdiagnostic] at hlabels
  obtain rfl : span = marked := congrArg Diagnostic.Label.span (List.singleton_inj.mp hlabels)
  exact ⟨span, own, message, label, notes, hmarks, hdiagnostic⟩

end Selection

namespace Command

/-- **Complaints can be rendered.** Whatever text selects no pages, and for whatever reason, there
is something to show for it. -/
theorem Console.Faithful.exists_complaint {c : Console} (hc : c.Faithful) {input : Document}
    {e : Selection.Error} (h : Selection.ofText input.text = .error e) (colour : Colour) :
    ∃ span text, IsComplaint c colour input e span text := by
  obtain ⟨span, own, message, label, notes, hmarks, hdiagnostic⟩ := Selection.exists_errorAt h
  -- the input alone in a collection is one way to render its diagnostic, and any other is the same
  have hfound := Documents.get?_add_self .empty input
  obtain ⟨text, htext⟩ := hc.renders hfound hmarks.start_le hmarks.isBoundary_start
    hmarks.isBoundary_stop (Document.resolves (Nat.le_trans hmarks.start_le hmarks.stop_le))
    (Document.resolves hmarks.stop_le) colour message label notes
  refine ⟨span, text, ?_⟩
  exact {
    rejected := h
    place := fun id => ⟨label, by rw [hdiagnostic]; rfl⟩
    tells := hc.tells hfound colour message label notes text htext
    rendered := fun ds id hd => by
      rw [hdiagnostic, hc.confined hd hfound, htext] }

end Command

end PageSelection
