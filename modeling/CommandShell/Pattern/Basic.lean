import CommandShell.Text.CharSet

/-!
Patterns.  The functions that build them bring them into a plain form: no part is empty, texts are
as long as can be, and a class of one character is a text.
-/

namespace CommandShell

open Text

namespace Pattern

/-- A condition on the characters on both sides of a place. -/
inductive Look where
  | textStart
  | textEnd
  | lineStart
  | lineEnd
  | returnLineStart
  | returnLineEnd
  | boundary (ascii : Bool)
  | noBoundary (ascii : Bool)
  | wordStart (ascii : Bool)
  | wordEnd (ascii : Bool)
  | wordStartHalf (ascii : Bool)
  | wordEndHalf (ascii : Bool)
  deriving DecidableEq, Repr

end Pattern

/-- A pattern. -/
inductive Pattern where
  | empty
  | text (chars : List Char)
  | set (chars : CharSet)
  | look (look : Pattern.Look)
  /-- At least `least` times, and at most `most` times if that is given. -/
  | times (least : Nat) (most : Option Nat) (greedy : Bool) (inner : Pattern)
  | group (index : Nat) (inner : Pattern)
  | seq (parts : List Pattern)
  | either (branches : List Pattern)
  deriving Repr, BEq

namespace Pattern

/-- The pattern that is found nowhere. -/
def fail : Pattern := .set .empty

def ofText (chars : List Char) : Pattern := if chars.isEmpty then .empty else .text chars

def ofChar (c : Char) : Pattern := .text [c]

/-- The pattern of one character of a set. -/
def ofSet (s : CharSet) : Pattern :=
  match s.ranges with
  | [] => fail
  | [(a, b)] => if a == b then ofChar (Char.ofNat a) else .set s
  | _ => .set s

mutual

/-- The fewest characters that a pattern can match, if it can match any text. -/
def least? : Pattern → Option Nat
  | .empty | .look _ => some 0
  | .text chars => some chars.length
  | .set s => if s.ranges.isEmpty then none else some 1
  | .times least _ _ p => p.least?.map (· * least)
  | .group _ p => p.least?
  | .seq parts => leastSum? parts
  | .either branches => leastOf? branches

def leastSum? : List Pattern → Option Nat
  | [] => some 0
  | p :: ps =>
    match p.least?, leastSum? ps with
    | some m, some n => some (m + n)
    | _, _ => none

/-- The smallest of all, if all have one. -/
def leastOf? : List Pattern → Option Nat
  | [] => none
  | [p] => p.least?
  | p :: ps =>
    match p.least?, leastOf? ps with
    | some m, some n => some (min m n)
    | _, _ => none

end

mutual

/-- The most characters that a pattern can match, if there is a bound. -/
def most? : Pattern → Option Nat
  | .empty | .look _ => some 0
  | .text chars => some chars.length
  | .set s => if s.ranges.isEmpty then none else some 1
  | .times _ most _ p =>
    match most, p.most? with
    | some m, some n => some (m * n)
    | _, _ => none
  | .group _ p => p.most?
  | .seq parts => mostSum? parts
  | .either branches => mostOf? branches

def mostSum? : List Pattern → Option Nat
  | [] => some 0
  | p :: ps =>
    match p.most?, mostSum? ps with
    | some m, some n => some (m + n)
    | _, _ => none

def mostOf? : List Pattern → Option Nat
  | [] => none
  | [p] => p.most?
  | p :: ps =>
    match p.most?, mostOf? ps with
    | some m, some n => some (max m n)
    | _, _ => none

end

/-- The pattern repeated.  What matches no character is repeated once at most. -/
def repeated (least : Nat) (most : Option Nat) (greedy : Bool) (p : Pattern) : Pattern :=
  let isThin := p.most? == some 0
  let least := if isThin then min least 1 else least
  let most := if isThin then some (min (most.getD 1) 1) else most
  if least == 0 && most == some 0 then .empty
  else if least == 1 && most == some 1 then p
  else .times least most greedy p

/-- The parts of a sequence; any other pattern is its own only part. -/
def parts : Pattern → List Pattern
  | .empty => []
  | .seq ps => ps
  | p => [p]

/-- Puts a part in front of others, and joins two texts. -/
def joinText (p : Pattern) (ps : List Pattern) : List Pattern :=
  match p, ps with
  | .text cs, .text ds :: rest => .text (cs ++ ds) :: rest
  | p, ps => p :: ps

/-- One pattern after the other. -/
def inSequence (ps : List Pattern) : Pattern :=
  match (ps.flatMap parts).foldr joinText [] with
  | [] => .empty
  | [p] => p
  | ps => .seq ps

/-- The branches of a choice; any other pattern is its own only branch. -/
def branches : Pattern → List Pattern
  | .either ps => ps
  | p => [p]

/-- The characters, if all patterns are texts of one. -/
def singleChars? (ps : List Pattern) : Option (List Char) :=
  ps.mapM fun
    | .text [c] => some c
    | _ => none

/-- The sets, if all patterns are such. -/
def sets? (ps : List Pattern) : Option (List CharSet) :=
  ps.mapM fun
    | .set s => some s
    | _ => none

/-- The longest list that both lists start with. -/
def commonStart : List Pattern → List Pattern → List Pattern
  | p :: ps, q :: qs => if p == q then p :: commonStart ps qs else []
  | _, _ => []

/-- The parts that all of some sequences start with. -/
def sharedParts : List Pattern → List Pattern
  | .seq ps :: rest =>
    rest.foldl (fun shared p =>
      match p with
      | .seq qs => commonStart shared qs
      | _ => []) ps
  | _ => []

/-- A choice of branches that is no choice of characters and that has no common start. -/
def simpleChoice (ps : List Pattern) : Option Pattern :=
  match ps with
  | [] => some fail
  | [p] => some p
  | ps =>
    match singleChars? ps, sets? ps with
    | some cs, _ => some (ofSet (CharSet.ofRanges (cs.map fun c => (c.toNat, c.toNat))))
    | none, some ss => some (ofSet (ss.foldr CharSet.union .empty))
    | none, none => none

mutual

/-- How many parts a pattern has, all parts of parts included. -/
def size : Pattern → Nat
  | .empty | .text _ | .set _ | .look _ => 1
  | .times _ _ _ p | .group _ p => p.size + 1
  | .seq ps | .either ps => sizes ps + 1

def sizes : List Pattern → Nat
  | [] => 0
  | p :: ps => p.size + sizes ps

end

/-- A choice whose branches have `fuel` parts at most.  Characters make a set, and what all branches
start with is put in front. -/
def choiceOf : Nat → List Pattern → Pattern
  | 0, ps => .either ps
  | fuel + 1, ps =>
    let ps := ps.flatMap branches
    match simpleChoice ps with
    | some p => p
    | none =>
      match (sharedParts ps).length with
      | 0 => .either ps
      | n =>
        let rests := ps.map fun p => inSequence (p.parts.drop n)
        inSequence (sharedParts ps ++ [choiceOf fuel rests])

def choice (ps : List Pattern) : Pattern := choiceOf (sizes ps + 1) ps

end Pattern

end CommandShell
