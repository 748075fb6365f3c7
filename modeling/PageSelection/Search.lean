/-!
# Binary search

Halving search in an array whose elements are ordered against a target: those before it first,
then those that match it, then those after it. Both the membership test of an interval set and
the look-up of a line by its offset are such searches.

The window that is still open is `[lo, hi)`. Its upper end never passes the end of the array, so
each probe is in bounds, and each step makes it strictly smaller.
-/

namespace PageSelection

/-- What a search found. -/
inductive Search
  /-- The element at this index matches. -/
  | found (index : Nat)
  /-- No element matches; this is where one would have to be inserted. -/
  | missing (index : Nat)
  deriving DecidableEq, Repr

namespace Search

variable {α : Type}

/-- Searches the window `[lo, hi)` of `xs`; `order x` says how `x` stands to the target. -/
def window (order : α → Ordering) (xs : Array α) (lo hi : Nat) (inside : hi ≤ xs.size) : Search :=
  if h : lo < hi then
    let mid := lo + (hi - lo) / 2
    have : mid < xs.size := by omega
    match order xs[mid] with
    | .lt => window order xs (mid + 1) hi inside
    | .eq => .found mid
    | .gt => window order xs lo mid (by omega)
  else
    .missing lo
termination_by hi - lo

/-- Searches all of `xs`. -/
def run (order : α → Ordering) (xs : Array α) : Search :=
  window order xs 0 xs.size (Nat.le_refl _)

/-- Whether an element matched. -/
def isFound : Search → Bool
  | found _ => true
  | missing _ => false

end Search

end PageSelection
