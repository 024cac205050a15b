import CommandShell.Pattern.Basic
import CommandShell.Pattern.Utf8
import CommandShell.Text.Pieces
import Std.Data.HashMap

/-!
How much room the automaton of a pattern takes.  It reads bytes, from either end of a text, and has
one state for each byte, one for each place where paths part or meet, and two around each group when
it reads forwards.  Its states are numbered in the order in which they are made.

Paths of a class share states.  Those that have been made are remembered by slots, of which there are
so many; a later state takes the slot of an earlier one.
-/

namespace CommandShell.Pattern

open Text

/-- The room for a state, for an edge of a state that reads bytes, and for one of a state that reads
nothing. -/
def stateRoom : Nat := 32

def edgeRoom : Nat := 8

def forkRoom : Nat := 4

/-- The room that an automaton may take. -/
def roomLimit : Nat := 10485760

/-- How many states an automaton has, and the room that their edges take. -/
structure Meter where
  states : Nat := 0
  edges : Nat := 0
  deriving DecidableEq, Repr

namespace Meter

def room (m : Meter) : Nat := stateRoom * m.states + m.edges

def isOver (m : Meter) : Bool := roomLimit < m.room

def addStates (m : Meter) (n : Nat) : Meter := { m with states := m.states + n }

/-- A state that reads bytes by the given number of edges. -/
def addReader (m : Meter) (n : Nat) : Meter := ⟨m.states + 1, m.edges + edgeRoom * n⟩

/-- That many edges that read nothing. -/
def addForks (m : Meter) (n : Nat) : Meter := { m with edges := m.edges + forkRoom * n }

/-- What `f` adds, `n` times.  No more is added when the room is used up. -/
def addTimes (f : Meter → Meter) : Nat → Meter → Meter
  | 0, m => m
  | n + 1, m => if m.isOver then m else addTimes f n (f m)

end Meter

/-- The slot of some numbers: the FNV-1a hash of the numbers as words. -/
def slotOf (slots : Nat) (ns : List Nat) : Nat :=
  (ns.foldl (fun (h : UInt64) n => (h ^^^ n.toUInt64) * 1099511628211) 14695981039346656037).toNat %
    slots

/-- An edge that reads a byte and leads to the state with the given number. -/
structure Edge where
  bytes : ByteRange
  next : Nat
  deriving DecidableEq, Repr

/-- A state under way: its edges, the latest first, and the bytes of one whose end is not known. -/
structure OpenState where
  edges : List Edge := []
  pending : Option ByteRange := none

/-- The edges, of which the open one leads to `next`. -/
def OpenState.close (o : OpenState) (next : Nat) : List Edge :=
  match o.pending with
  | some bytes => ⟨bytes, next⟩ :: o.edges
  | none => o.edges

/-- The states of a class that is read forwards. -/
structure ForwardClass where
  meter : Meter
  known : Std.HashMap Nat (List Edge × Nat) := {}
  /-- The states on the path to the latest byte, the last one first. -/
  path : List OpenState := [{}]

namespace ForwardClass

/-- How many slots there are. -/
def slots : Nat := 10000

/-- The number of a state with the given edges, the latest first. -/
def state (k : ForwardClass) (edges : List Edge) : Nat × ForwardClass :=
  let slot := slotOf slots (edges.reverse.flatMap fun e => [e.bytes.first, e.bytes.last, e.next])
  let fresh :=
    let number := k.meter.states
    (number, { k with
      meter := k.meter.addReader edges.length
      known := k.known.insert slot (edges, number) })
  match k.known[slot]? with
  | some (es, number) => if es = edges then (number, k) else fresh
  | none => fresh

/-- Closes the path behind its first `kept` states and one more, with `next` as its end. -/
def closePath (k : ForwardClass) (kept next : Nat) : List OpenState → ForwardClass
  | [] => k
  | o :: rest =>
    if kept < rest.length then
      let (number, k) := k.state (o.close next)
      k.closePath kept number rest
    else { k with path := { edges := o.close next } :: rest }

/-- How many of the bytes the path has already. -/
def shared : List ByteRange → List OpenState → Nat
  | b :: bs, o :: os => if o.pending = some b then shared bs os + 1 else 0
  | _, _ => 0

/-- Opens a path for the bytes. -/
def openPath (path : List OpenState) : List ByteRange → List OpenState
  | [] => path
  | b :: bs =>
    let path := match path with
      | o :: rest => { o with pending := some b } :: rest
      | [] => []
    bs.foldl (fun path b => { pending := some b } :: path) path

/-- Adds a sequence of bytes, which comes after all others in order. -/
def add (target : Nat) (k : ForwardClass) (bytes : List ByteRange) : ForwardClass :=
  let kept := shared bytes k.path.reverse
  let k := k.closePath kept target k.path
  { k with path := openPath k.path (bytes.drop kept) }

/-- The room with that of a class. -/
def measure (sequences : List (List ByteRange)) (m : Meter) : Meter :=
  let target := m.states
  let k := sequences.foldl (add target) { meter := m.addStates 1 }
  let k := k.closePath 0 target k.path
  match k.path with
  | [o] => (k.state o.edges).2.meter
  | _ => k.meter

end ForwardClass

/-- The states of a class that is read backwards. -/
structure BackwardClass where
  meter : Meter
  known : Std.HashMap Nat (List Nat × Nat) := {}

namespace BackwardClass

/-- How many slots there are. -/
def slots : Nat := 1000

/-- Adds a byte in front of the state `next`. -/
def addByte (k : BackwardClass × Nat) (b : ByteRange) : BackwardClass × Nat :=
  let (k, next) := k
  let key := [next, b.first, b.last]
  let slot := slotOf slots key
  let fresh :=
    let number := k.meter.states
    ({ meter := k.meter.addStates 1, known := k.known.insert slot (key, number) }, number)
  match k.known[slot]? with
  | some (old, number) => if old = key then (k, number) else fresh
  | none => fresh

/-- Adds a sequence of bytes. -/
def add (target : Nat) (k : BackwardClass) (bytes : List ByteRange) : BackwardClass :=
  let k := (bytes.foldl addByte (k, target)).1
  { k with meter := k.meter.addForks 1 }

/-- The room with that of a class. -/
def measure (sequences : List (List ByteRange)) (m : Meter) : Meter :=
  (sequences.foldl (add (m.states + 1)) { meter := m.addStates 2 }).meter

end BackwardClass

/-- The room with that of the states that read some texts after a common start.  A text that ends
here parts those before it from those after it; texts with the same next byte share a state unless
they are parted. -/
def measureTexts : Nat → List (List Nat) → Meter → Meter
  | 0, _, m => m
  | fuel + 1, texts, m =>
    let texts := match texts with
      | [] :: rest => [] :: rest.dropWhile List.isEmpty
      | texts => texts
    let groups := pieces List.isEmpty texts
    let m := groups.foldl (fun m group =>
      let bytes := (group.filterMap List.head?).eraseDups
      let m := bytes.foldl (fun m b =>
        let rests := group.filterMap fun t => if t.head? = some b then some t.tail else none
        if rests.all List.isEmpty then m else measureTexts fuel rests m) m
      match bytes.length with
      | 0 => m
      | 1 => (m.addStates 1).addForks 1
      | n => (m.addReader n).addForks 1) m
    (m.addStates 1).addForks (groups.length - 1)

/-- The bytes of a text. -/
def textBytes (chars : List Char) : List Nat := chars.flatMap fun c => utf8 c.toNat

/-- The room with that of a class. -/
def measureSet (backward : Bool) (s : CharSet) (m : Meter) : Meter :=
  let ranges := s.ranges
  if ranges.all (·.2 < 0x80) then (m.addStates 1).addReader ranges.length
  else
    let sequences := ranges.flatMap fun r => byteSequences 64 r.1 r.2
    if backward then BackwardClass.measure sequences m else ForwardClass.measure sequences m

/-- The automaton of the pattern ends in a state with several edges. -/
def endsInFork (backward : Bool) : Pattern → Bool
  | .times 0 none _ p => p.least?.any (0 < ·)
  | .times _ none _ _ => true
  | .times least most _ p => if most = some least then endsInFork backward p else false
  | .group _ p => backward && endsInFork backward p
  | .seq ps => lastEndsInFork ps
  | _ => false
where
  /-- The same of a sequence. -/
  lastEndsInFork : List Pattern → Bool
    | [] => false
    | [p] => endsInFork backward p
    | p :: ps => if backward then endsInFork backward p else lastEndsInFork ps

/-- All are texts. -/
def texts? (ps : List Pattern) : Option (List (List Char)) :=
  ps.mapM fun
    | .text cs => some cs
    | _ => none

mutual

/-- The room with that of the pattern's automaton. -/
def measure (backward : Bool) : Pattern → Meter → Meter
  | .empty, m | .look _, m => m.addStates 1
  | .text chars, m => m.addStates (textBytes chars).length
  | .set s, m => measureSet backward s m
  | .group _ p, m =>
    if backward then measure backward p m
    else (measureOnce backward p (m.addStates 1)).addStates 1
  | .seq ps, m => measureSequence backward ps m
  | .either ps, m =>
    match texts? ps with
    | some texts =>
      let texts := texts.map fun cs => if backward then (textBytes cs).reverse else textBytes cs
      measureTexts (texts.foldl (fun n t => max n t.length) 0 + 1) texts (m.addStates 1)
    | none => measureBranches backward 0 ps m
  | .times 0 (some 1) _ p, m =>
    ((measureOnce backward p (m.addStates 1)).addStates 1).addForks 2
  | .times 0 none _ p, m =>
    if p.least?.any (0 < ·) then (measureOnce backward p (m.addStates 1)).addForks 1
    else ((measureOnce backward p m).addStates 3).addForks 4
  | .times least none _ p, m =>
    ((m.addTimes (measureOnce backward p) least).addStates 1).addForks 1
  | .times least (some most) _ p, m =>
    if least = most then
      let m := m.addTimes (measureOnce backward p) (least - 1)
      if m.isOver then m else measure backward p m
    else
      let m := if least = 0 then m.addStates 1 else m.addTimes (measureOnce backward p) least
      let option (m : Meter) := (measureOnce backward p (m.addStates 1)).addForks 2
      (m.addStates 1).addTimes option (most - least)

/-- The same with the edge behind the automaton, if there is room for one more. -/
def measureOnce (backward : Bool) (p : Pattern) (m : Meter) : Meter :=
  (measure backward p m).addForks (if endsInFork backward p then 1 else 0)

/-- The room with that of the parts of a sequence. -/
def measureSequence (backward : Bool) : List Pattern → Meter → Meter
  | [], m => m
  | [p], m => measure backward p m
  | p :: q :: ps, m =>
    if backward then
      let m := measureSequence backward (q :: ps) m
      (measure backward p m).addForks (if endsInFork backward q then 1 else 0)
    else measureSequence backward (q :: ps) (measureOnce backward p m)

/-- The room with that of the branches of a choice, of which some have been measured. -/
def measureBranches (backward : Bool) (before : Nat) : List Pattern → Meter → Meter
  | [], m => m
  | p :: ps, m =>
    let m := (measureOnce backward p m).addForks 1
    let m := if before = 1 then m.addStates 2 else m
    measureBranches backward (before + 1) ps m

end

mutual

/-- The pattern is found at the text's beginning only, or with `atEnd` at its end. -/
def isAnchored (atEnd : Bool) : Pattern → Bool
  | .look l => l == if atEnd then .textEnd else .textStart
  | .times least _ _ p => 0 < least && isAnchored atEnd p
  | .group _ p => isAnchored atEnd p
  | .seq ps => (isAnchoredSequence atEnd ps).1
  | .either ps => areAnchored atEnd ps
  | _ => false

/-- Whether some part is anchored that no characters part from the sequence's end, and whether the
whole sequence matches no characters. -/
def isAnchoredSequence (atEnd : Bool) : List Pattern → Bool × Bool
  | [] => (false, true)
  | p :: ps =>
    let (rest, isThin) := isAnchoredSequence atEnd ps
    let here := isAnchored atEnd p
    let isThinHere := p.most? == some 0
    let anchored := if atEnd then rest || (isThin && here) else here || (isThinHere && rest)
    (anchored, isThinHere && isThin)

def areAnchored (atEnd : Bool) : List Pattern → Bool
  | [] => true
  | p :: ps => isAnchored atEnd p && areAnchored atEnd ps

end

/-- The room of the automaton that looks for the pattern.  Unless the pattern is anchored, it starts
with a loop over all bytes. -/
def room (backward : Bool) (p : Pattern) : Meter :=
  let start : Meter := {}
  let start :=
    if isAnchored backward p then start.addStates 1 else ((start.addStates 2).addReader 1).addForks 2
  (measureOnce backward (if backward then p else .group 0 p) start).addStates 1

/-- The automaton of the pattern takes more room than it may. -/
def isTooLarge (p : Pattern) : Bool := (room false p).isOver || (room true p).isOver

end CommandShell.Pattern
