import CommandShell.Pattern.Basic
import CommandShell.Text.CharIndex

/-!
Automata that find patterns.  A node is made after those that it leads to, except for the one where a
loop begins, which is put in place when the loop is complete.
-/

namespace CommandShell.Pattern

open Text

inductive Node where
  | char (char : Char) (next : Nat)
  | set (chars : CharIndex) (next : Nat)
  | look (look : Look) (next : Nat)
  | fork (left right : Nat)
  | found
  deriving Repr

/-- A step that adds nodes. -/
abbrev Building := StateM (Array Node)

namespace Building

/-- Adds a node and gives its number. -/
def add (n : Node) : Building Nat := modifyGet fun nodes => (nodes.size, nodes.push n)

/-- Nodes that go on to the next number, a number of times one after the other. -/
def copies (f : Nat → Building Nat) : Nat → Nat → Building Nat
  | 0, next => pure next
  | n + 1, next => do copies f n (← f next)

/-- The same where each time may be the last or is left out. -/
def options (f : Nat → Building Nat) (next : Nat) : Nat → Building Nat
  | 0 => pure next
  | n + 1 => do add (.fork (← f (← options f next n)) next)

/-- Nodes that come back to their beginning or go on. -/
def loop (f : Nat → Building Nat) (next : Nat) : Building Nat := do
  let back ← add .found
  let first ← f back
  modify (·.set! back (.fork first next))
  return first

end Building

open Building

mutual

/-- Adds the nodes of a pattern in front of the next one, and gives the first. -/
def build : Pattern → Nat → Building Nat
  | .empty, next => pure next
  | .text chars, next => chars.foldrM (fun c next => add (.char c next)) next
  | .set s, next => add (.set (.ofSet s) next)
  | .look l, next => add (.look l next)
  | .group _ p, next => build p next
  | .seq ps, next => buildSequence ps next
  | .either ps, next => buildChoice ps next
  | .times least (some most) _ p, next => do
    copies (build p) least (← options (build p) next (most - least))
  | .times 0 none _ p, next => do add (.fork (← loop (build p) next) next)
  | .times (least + 1) none _ p, next => do copies (build p) least (← loop (build p) next)

def buildSequence : List Pattern → Nat → Building Nat
  | [], next => pure next
  | p :: ps, next => do build p (← buildSequence ps next)

def buildChoice : List Pattern → Nat → Building Nat
  | [], _ => add (.set (.ofSet .empty) 0)
  | [p], next => build p next
  | p :: ps, next => do add (.fork (← build p next) (← buildChoice ps next))

end

/-- An automaton and the number of its first node. -/
structure Automaton where
  nodes : Array Node
  first : Nat
  deriving Repr

/-- The automaton that finds a pattern. -/
def automaton (p : Pattern) : Automaton :=
  let (first, nodes) := (build p 0).run #[.found]
  { nodes, first }

end CommandShell.Pattern
