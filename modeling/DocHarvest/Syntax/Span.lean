/-!
# Places in a source text

A `Span` is the part of a source text that a token, a comment or a whole construct takes up. Offsets
count characters and rows count line feeds, both from zero.
-/

namespace DocHarvest.Syntax

/-- A half-open part of a source text, with the rows on which it starts and ends. -/
structure Span where
  start : Nat
  stop : Nat
  startRow : Nat
  endRow : Nat
deriving DecidableEq, Repr, Inhabited

namespace Span

/-- The characters of a source text that a span takes up. -/
def text (source : List Char) (s : Span) : List Char :=
  (source.drop s.start).take (s.stop - s.start)

/-- The span from the start of one span to the end of another. -/
def through (first last : Span) : Span :=
  ⟨first.start, last.stop, first.startRow, last.endRow⟩

end Span

end DocHarvest.Syntax
