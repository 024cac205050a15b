import CommandShell.Pattern.Span

/-!
Patterns as they are written.
-/

namespace CommandShell.Pattern

/-- What a part of a pattern, or all of what follows in its group, is to be read with. -/
inductive Flag where
  | ignoreCase
  | manyLines
  | anyWithBreaks
  | swapGreed
  | characters
  | returnBreaks
  | loose
  deriving DecidableEq, Repr

/-- A flag, or the sign after which flags are switched off. -/
inductive FlagItem where
  | negation
  | flag (flag : Flag)
  deriving DecidableEq, Repr

/-- A class of characters that a letter stands for. -/
inductive Kind where
  | digit
  | blank
  | word
  deriving DecidableEq, Repr

/-- A class of ASCII characters that has a name inside brackets. -/
inductive AsciiClass where
  | alnum
  | alpha
  | ascii
  | blank
  | cntrl
  | digit
  | graph
  | lower
  | print
  | punct
  | space
  | upper
  | word
  | xdigit
  deriving DecidableEq, Repr

/-- A condition on the place between two characters. -/
inductive Condition where
  | lineStart
  | lineEnd
  | textStart
  | textEnd
  | boundary
  | noBoundary
  | wordStart
  | wordEnd
  | wordStartHalf
  | wordEndHalf
  deriving DecidableEq, Repr

/-- A character of a pattern.  One that is written by two hexadecimal digits may stand for a byte. -/
structure Letter where
  span : Span
  char : Char
  isByte : Bool := false
  deriving DecidableEq, Repr

/-- A part of a pattern that has no parts. -/
inductive Atom where
  | letter (letter : Letter)
  | any (span : Span)
  | condition (span : Span) (condition : Condition)
  | kind (span : Span) (kind : Kind) (negated : Bool)
  /-- The characters of a Unicode property, by the property's name. -/
  | property (span : Span) (name : String) (negated : Bool)
  deriving DecidableEq, Repr

def Atom.span : Atom → Span
  | letter l => l.span
  | any s => s
  | condition s _ => s
  | kind s _ _ => s
  | property s _ _ => s

/-- An operation on two classes. -/
inductive SetOp where
  | inter
  | diff
  | symmDiff
  deriving DecidableEq, Repr

/-- What stands between brackets. -/
inductive ClassTree where
  | empty (span : Span)
  | letter (letter : Letter)
  | range (span : Span) (first last : Letter)
  | ascii (span : Span) (name : AsciiClass) (negated : Bool)
  | kind (span : Span) (kind : Kind) (negated : Bool)
  | property (span : Span) (name : String) (negated : Bool)
  | bracket (span : Span) (negated : Bool) (inner : ClassTree)
  | union (span : Span) (parts : List ClassTree)
  | op (span : Span) (op : SetOp) (left right : ClassTree)
  deriving Repr

def ClassTree.span : ClassTree → Span
  | empty s => s
  | letter l => l.span
  | range s _ _ => s
  | ascii s _ _ => s
  | kind s _ _ => s
  | property s _ _ => s
  | bracket s _ _ => s
  | union s _ => s
  | op s _ _ _ => s

inductive GroupKind where
  /-- The group with the given number, counted by opening brackets. -/
  | numbered (index : Nat)
  /-- A group without a number, and the flags for what is inside. -/
  | plain (flags : List FlagItem)
  deriving DecidableEq, Repr

inductive Tree where
  | empty (span : Span)
  | flags (span : Span) (flags : List FlagItem)
  | atom (atom : Atom)
  | bracket (span : Span) (negated : Bool) (inner : ClassTree)
  /-- At least `least` times, and at most `most` times if that is given. -/
  | times (span : Span) (least : Nat) (most : Option Nat) (greedy : Bool) (inner : Tree)
  | group (span : Span) (kind : GroupKind) (inner : Tree)
  | either (span : Span) (branches : List Tree)
  | seq (span : Span) (parts : List Tree)
  deriving Repr

def Tree.span : Tree → Span
  | empty s => s
  | flags s _ => s
  | atom a => a.span
  | bracket s _ _ => s
  | times s _ _ _ _ => s
  | group s _ _ => s
  | either s _ => s
  | seq s _ => s

/-- What the items say on a flag, if it is among them. -/
def flagState (flag : Flag) (negated : Bool) : List FlagItem → Option Bool
  | [] => none
  | .negation :: rest => flagState flag true rest
  | .flag f :: rest => if f = flag then some (!negated) else flagState flag negated rest

end CommandShell.Pattern
