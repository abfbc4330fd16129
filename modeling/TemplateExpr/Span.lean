-- Places in a source text: a range of bytes and the line of its first byte.
-- Every token and every expression carries one, and errors name one.

namespace TemplateExpr

/-- Bytes `start` up to but not including `stop`, on line `line` counted from one. -/
structure Span where
  start : Nat
  stop : Nat
  line : Nat
deriving DecidableEq, Repr, Inhabited

namespace Span

/-- From the start of the first place to the end of the second. -/
def cover (first last : Span) : Span := ⟨first.start, last.stop, first.line⟩

/-- The form in which messages name a place. -/
def text (s : Span) : String := s!"line {s.line} ({s.start}..{s.stop})"

@[simp] theorem start_cover (a b : Span) : (a.cover b).start = a.start := rfl
@[simp] theorem stop_cover (a b : Span) : (a.cover b).stop = b.stop := rfl
@[simp] theorem line_cover (a b : Span) : (a.cover b).line = a.line := rfl

end Span

end TemplateExpr
