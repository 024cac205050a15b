/-!
Places in the text of a pattern.
-/

namespace CommandShell.Pattern

/-- A place between two characters, by line and column, both counted from 1. -/
structure Place where
  line : Nat := 1
  column : Nat := 1
  deriving DecidableEq, Repr

/-- The place behind a character. -/
def Place.after (p : Place) (c : Char) : Place :=
  if c = '\n' then ⟨p.line + 1, 1⟩ else ⟨p.line, p.column + 1⟩

/-- What stands between two places. -/
structure Span where
  start : Place
  stop : Place
  deriving DecidableEq, Repr

/-- A place, as a span without characters. -/
def Place.span (p : Place) : Span := ⟨p, p⟩

/-- The span is within one line. -/
def Span.isInLine (s : Span) : Bool := s.start.line == s.stop.line

/-- The span starts in front of the other one, or ends in front of it. -/
def Span.le (s t : Span) : Bool :=
  let key (p : Place) := (p.line, p.column)
  let less (a b : Nat × Nat) := a.1 < b.1 || (a.1 == b.1 && a.2 < b.2)
  less (key s.start) (key t.start) || (s.start == t.start && !less (key t.stop) (key s.stop))

end CommandShell.Pattern
