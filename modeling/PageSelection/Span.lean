/-!
# Spans

A **span** is a stretch of a text, given by the byte offset of its first byte and the byte offset
just past its last one. Tokens, list items and errors all say where they stand by a span, so that
a report can point at the very characters that caused it.
-/

namespace PageSelection

/-- The stretch of a text from byte `start` up to, and not including, byte `stop`. -/
structure Span where
  /-- Offset of the first byte. -/
  start : Nat
  /-- Offset just past the last byte. -/
  stop : Nat
  deriving DecidableEq, Repr

namespace Span

/-- The empty span that stands at an offset. -/
def point (offset : Nat) : Span := ⟨offset, offset⟩

/-- The stretch that runs from the start of `first` to the end of `last`. -/
def join (first last : Span) : Span := ⟨first.start, last.stop⟩

@[simp] theorem start_point (offset : Nat) : (point offset).start = offset := rfl

@[simp] theorem stop_point (offset : Nat) : (point offset).stop = offset := rfl

@[simp] theorem start_join (first last : Span) : (join first last).start = first.start := rfl

@[simp] theorem stop_join (first last : Span) : (join first last).stop = last.stop := rfl

end Span

end PageSelection
