import CommandShell.Pattern.Automaton
import CommandShell.Pattern.Meaning

/-!
Finding patterns in text.  All nodes that the text so far may have led to are kept, and each character
takes them on, so that a search never goes back.
-/

namespace CommandShell.Pattern

open Text

def wordIndex : CharIndex := .ofSet wordChars

def asciiWordIndex : CharIndex := .ofSet Kind.word.asciiChars

/-- The characters in front of a place in a text and behind it. -/
structure Sides where
  before : Option Char
  after : Option Char

namespace Sides

/-- A line begins here, where a line feed ends lines. -/
def isLineStart (s : Sides) : Bool := s.before.all (· == '\n')

def isLineEnd (s : Sides) : Bool := s.after.all (· == '\n')

/-- Words stand in front of the place and behind it. -/
def words (s : Sides) (ascii : Bool) : Bool × Bool :=
  let index := if ascii then asciiWordIndex else wordIndex
  (s.before.any index.contains, s.after.any index.contains)

/-- The look is met.  Where returns break lines too, a return and a line feed are one break. -/
def meets (s : Sides) : Look → Bool
  | .textStart => s.before.isNone
  | .textEnd => s.after.isNone
  | .lineStart => s.isLineStart
  | .lineEnd => s.isLineEnd
  | .returnLineStart => s.isLineStart || (s.before == some '\r' && s.after != some '\n')
  | .returnLineEnd =>
    s.after.all (· == '\r') || (s.after == some '\n' && s.before != some '\r')
  | .boundary ascii => (s.words ascii).1 != (s.words ascii).2
  | .noBoundary ascii => (s.words ascii).1 == (s.words ascii).2
  | .wordStart ascii => !(s.words ascii).1 && (s.words ascii).2
  | .wordEnd ascii => (s.words ascii).1 && !(s.words ascii).2
  | .wordStartHalf ascii => !(s.words ascii).1
  | .wordEndHalf ascii => !(s.words ascii).2

end Sides

/-- What has been reached at a place. -/
structure Reached where
  /-- For each node the last place at which it was reached, counted from 1. -/
  seen : Array Nat
  /-- The nodes that read a character. -/
  readers : List Nat
  isFound : Bool

namespace Automaton

/-- Goes on from some nodes, and from those that they lead to, as far as no character is read.  Each
node is left once, for two others at most. -/
def reach (a : Automaton) (sides : Sides) (place : Nat) :
    Nat → (work : List Nat) → (readers : List Nat) → (seen : Array Nat) → Reached
  | 0, _, readers, seen => ⟨seen, readers, false⟩
  | _, [], readers, seen => ⟨seen, readers, false⟩
  | fuel + 1, n :: work, readers, seen =>
    if seen[n]? == some place then a.reach sides place fuel work readers seen
    else
      let seen := seen.set! n place
      match a.nodes[n]? with
      | some (.char _ _) | some (.set _ _) =>
        a.reach sides place fuel work (n :: readers) seen
      | some (.look l next) =>
        a.reach sides place fuel (if sides.meets l then next :: work else work) readers seen
      | some (.fork left right) =>
        a.reach sides place fuel (left :: right :: work) readers seen
      | some .found => ⟨seen, readers, true⟩
      | none => a.reach sides place fuel work readers seen

/-- The node that a reading node leads to by the character. -/
def step? (a : Automaton) (c : Char) (n : Nat) : Option Nat :=
  match a.nodes[n]? with
  | some (.char d next) => if c == d then some next else none
  | some (.set s next) => if s.contains c then some next else none
  | _ => none

/-- A search under way finds something in the rest of the text. -/
def findsFrom (a : Automaton) (before : Option Char) (place : Nat) (work : List Nat)
    (seen : Array Nat) (rest : List Char) : Bool :=
  let work := a.first :: work
  let r := a.reach ⟨before, rest.head?⟩ place (2 * a.nodes.size + work.length) work [] seen
  r.isFound ||
    match rest with
    | [] => false
    | c :: cs => a.findsFrom (some c) (place + 1) (r.readers.filterMap (a.step? c)) r.seen cs

/-- Something in the text is found. -/
def finds (a : Automaton) (text : String) : Bool :=
  a.findsFrom none 1 [] (Array.replicate a.nodes.size 0) text.toList

end Automaton

end CommandShell.Pattern
