import CommandShell.Pattern.Span
import CommandShell.Text.Lines
import CommandShell.Text.Padding

/-!
What can be wrong with the text of a pattern, and how it is shown.
-/

namespace CommandShell.Pattern

open Text

inductive FaultKind where
  | unclosedGroup
  | unopenedGroup
  | unclosedGroupName
  | emptyGroupName
  | invalidGroupName
  | repeatedGroupName
  | lookAround
  | unknownFlag
  | repeatedFlag
  | repeatedFlagNegation
  | danglingFlagNegation
  | unclosedFlags
  | missingExpression
  | unclosedCount
  | emptyCount
  | invalidNumber
  | invalidCountRange
  | unclosedEscape
  | unknownEscape
  | backreference
  | invalidHexDigit
  | emptyHex
  | invalidHex
  | invalidClassName
  | unclosedBoundary
  | unknownBoundary
  | unclosedBoundaryOrCount
  | unclosedClass
  | escapeInClass
  | invalidRange
  | invalidRangeEnd
  | tooDeep (limit : Nat)
  | noCharacters
  | charactersInByteClass
  | unknownProperty
  deriving DecidableEq, Repr

def FaultKind.message : FaultKind → String
  | unclosedGroup => "unclosed group"
  | unopenedGroup => "unopened group"
  | unclosedGroupName => "unclosed capture group name"
  | emptyGroupName => "empty capture group name"
  | invalidGroupName => "invalid capture group character"
  | repeatedGroupName => "duplicate capture group name"
  | lookAround => "look-around, including look-ahead and look-behind, is not supported"
  | unknownFlag => "unrecognized flag"
  | repeatedFlag => "duplicate flag"
  | repeatedFlagNegation => "flag negation operator repeated"
  | danglingFlagNegation => "dangling flag negation operator"
  | unclosedFlags => "expected flag but got end of regex"
  | missingExpression => "repetition operator missing expression"
  | unclosedCount => "unclosed counted repetition"
  | emptyCount => "repetition quantifier expects a valid decimal"
  | invalidNumber => "decimal literal invalid"
  | invalidCountRange => "invalid repetition count range, the start must be <= the end"
  | unclosedEscape => "incomplete escape sequence, reached end of pattern prematurely"
  | unknownEscape => "unrecognized escape sequence"
  | backreference => "backreferences are not supported"
  | invalidHexDigit => "invalid hexadecimal digit"
  | emptyHex => "hexadecimal literal empty"
  | invalidHex => "hexadecimal literal is not a Unicode scalar value"
  | invalidClassName => "invalid Unicode character class"
  | unclosedBoundary =>
    "special word boundary assertion is either unclosed or contains an invalid character"
  | unknownBoundary =>
    "unrecognized special word boundary assertion, valid choices are: " ++
      "start, end, start-half or end-half"
  | unclosedBoundaryOrCount =>
    "found either the beginning of a special word boundary or a bounded repetition on a \\b " ++
      "with an opening brace, but no closing brace"
  | unclosedClass => "unclosed character class"
  | escapeInClass => "invalid escape sequence found in character class"
  | invalidRange => "invalid character class range, the start must be <= the end"
  | invalidRangeEnd => "invalid range boundary, must be a literal"
  | tooDeep limit => s!"exceed the maximum number of nested parentheses/brackets ({limit})"
  | noCharacters => "pattern can match invalid UTF-8"
  | charactersInByteClass => "Unicode not allowed here"
  | unknownProperty => "Unicode property not found"

/-- What is wrong with a text that is no pattern, the part that shows it, and the part before it that
it is at odds with, if there is one. -/
structure Fault where
  kind : FaultKind
  span : Span
  earlier : Option Span := none
  deriving DecidableEq, Repr

namespace Fault

/-- The parts to be marked, in their order. -/
def spans (f : Fault) : List Span :=
  match f.earlier with
  | none => [f.span]
  | some s => if s.le f.span then [s, f.span] else [f.span, s]

/-- The marks below a line, from the given column on.  A part without characters has one mark. -/
def marks (column : Nat) : List Span → List Char
  | [] => []
  | s :: rest =>
    let gap := s.start.column - column
    let width := max 1 (s.stop.column - s.start.column)
    List.replicate gap ' ' ++ List.replicate width '^' ++ marks (column + gap + width) rest

/-- The lines of a text, each after its margin, and below it the marks for what is wrong there. -/
def annotate (f : Fault) (margin : Nat → String) (number : Nat) : List String → List String
  | [] => []
  | line :: rest =>
    let here := f.spans.filter fun s => s.isInLine && s.start.line == number
    let below :=
      if here.isEmpty then [] else [fill (margin number).length 0 ++ String.ofList (marks 1 here)]
    (margin number ++ line) :: below ++ annotate f margin (number + 1) rest

/-- A part that goes over several lines, in words. -/
def note (s : Span) : String :=
  s!"on line {s.start.line} (column {s.start.column}) through line {s.stop.line} " ++
    s!"(column {s.stop.column - 1})"

/-- The fault below the text that it is in.  The lines of a text of several are numbered. -/
def message (text : String) (f : Fault) : String :=
  let heading := "regex parse error:"
  let ending := "error: " ++ f.kind.message
  if text.toList.contains '\n' then
    let count := (lines text).length + (if endsLine text then 1 else 0)
    let width := (toString count).length
    let margin number := padLeft width (toString number) ++ ": "
    let divider := String.ofList (List.replicate 79 '~')
    let notes := (f.spans.filter (!·.isInLine)).map note
    joinLines ([heading, divider] ++ f.annotate margin 1 (lines text) ++ [divider] ++ notes ++ [ending])
  else
    joinLines ([heading] ++ f.annotate (fun _ => "    ") 1 (lines text) ++ [ending])

end Fault

end CommandShell.Pattern
