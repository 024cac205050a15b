import CommandShell.Pattern.Escape

/-!
Classes of characters in brackets.
-/

namespace CommandShell.Pattern

/-- The parts of a class that have been read since the last bracket or operator, the latest first. -/
structure Members where
  span : Span
  parts : List ClassTree := []

namespace Members

def push (m : Members) (t : ClassTree) : Members :=
  { span := ⟨if m.parts.isEmpty then t.span.start else m.span.start, t.span.stop⟩
    parts := t :: m.parts }

def tree (m : Members) : ClassTree :=
  match m.parts with
  | [] => .empty m.span
  | [t] => t
  | ts => .union m.span ts.reverse

end Members

/-- What a part of a class is inside of. -/
inductive ClassFrame where
  /-- A bracket, by the span of its opening, after these parts of the class around it. -/
  | opened (outer : Members) (span : Span) (negated : Bool)
  /-- The right side of an operator. -/
  | op (op : SetOp) (left : ClassTree)

/-- The innermost bracket was never closed. -/
def unclosedClass (here : Place) : List ClassFrame → Fault
  | [] => ⟨.unclosedClass, here.span, none⟩
  | .opened _ span _ :: _ => ⟨.unclosedClass, span, none⟩
  | .op _ _ :: rest => unclosedClass here rest

/-- The operator that the right side has just been read of. -/
def applyOp (frames : List ClassFrame) (right : ClassTree) : ClassTree × List ClassFrame :=
  match frames with
  | .op op left :: rest => (.op ⟨left.span.start, right.span.stop⟩ op left right, rest)
  | _ => (right, frames)

/-- Reads the signs that a class may begin with and that are members of it there: `-` any number of
times. -/
def readDashes (start : Place) (m : Members) : Nat → Cursor → Except Fault (Members × Cursor)
  | 0, c => .ok (m, c)
  | fuel + 1, c =>
    if c.char? == some '-' then
      let m := m.push (.letter ⟨c.charSpan, '-', false⟩)
      let c := c.advance
      if c.isAtEnd then .error ⟨.unclosedClass, start.span, none⟩ else readDashes start m fuel c
    else .ok (m, c)

/-- Reads an opening bracket and the signs after it: a `^` that negates the class, and `-` or `]` as
members. -/
def openClass (outer : Members) (c : Cursor) :
    Except Fault (ClassFrame × Members × Cursor) := do
  let start := c.place
  let unclosed (c : Cursor) : Fault := ⟨.unclosedClass, ⟨start, c.place⟩, none⟩
  let c := c.advance
  if c.isAtEnd then throw (unclosed c)
  let negated := c.char? == some '^'
  let c := if negated then c.advance else c
  if c.isAtEnd then throw (unclosed c)
  let first := c.place
  let (m, c) ← readDashes start { span := first.span } c.rest.length c
  if m.parts.isEmpty && c.char? == some ']' then
    let m := m.push (.letter ⟨c.charSpan, ']', false⟩)
    let c := c.advance
    if c.isAtEnd then throw (unclosed c)
    return (.opened outer ⟨start, c.place⟩ negated, m, c)
  return (.opened outer ⟨start, c.place⟩ negated, m, c)

def asciiClass? (name : List Char) : Option AsciiClass :=
  match String.ofList name with
  | "alnum" => some .alnum
  | "alpha" => some .alpha
  | "ascii" => some .ascii
  | "blank" => some .blank
  | "cntrl" => some .cntrl
  | "digit" => some .digit
  | "graph" => some .graph
  | "lower" => some .lower
  | "print" => some .print
  | "punct" => some .punct
  | "space" => some .space
  | "upper" => some .upper
  | "word" => some .word
  | "xdigit" => some .xdigit
  | _ => none

/-- Reads a class such as `[:alpha:]`, if there is one. -/
def readAsciiClass? (c : Cursor) : Option (ClassTree × Cursor) := do
  let inside ← c.after? ['[', ':']
  let negated := inside.char? == some '^'
  let inside := if negated then inside.bump else inside
  let name := inside.rest.takeWhile (· != ':')
  let past ← (inside.drop name.length).after? [':', ']']
  let kind ← asciiClass? name
  return (.ascii ⟨c.place, past.place⟩ kind negated, past)

/-- Reads one end of a range, or a member. -/
def readMember (c : Cursor) : Except Fault (Atom × Cursor) :=
  match c.char? with
  | some '\\' => readEscape c
  | some x => .ok (.letter ⟨c.charSpan, x, false⟩, c.bump)
  | none => .error ⟨.unclosedClass, c.place.span, none⟩

/-- The part as a member of a class. -/
def Atom.member : Atom → Except Fault ClassTree
  | letter l => .ok (.letter l)
  | kind s k negated => .ok (.kind s k negated)
  | property s name negated => .ok (.property s name negated)
  | a => .error ⟨.escapeInClass, a.span, none⟩

/-- The part as an end of a range. -/
def Atom.rangeEnd : Atom → Except Fault Letter
  | letter l => .ok l
  | a => .error ⟨.invalidRangeEnd, a.span, none⟩

/-- Reads a member or a range.  A `-` makes none in front of `]` or of another `-`. -/
def readRange (frames : List ClassFrame) (c : Cursor) : Except Fault (ClassTree × Cursor) := do
  let (first, c) ← readMember c
  let c := c.skipSpace
  if c.isAtEnd then throw (unclosedClass c.place frames)
  let next := c.peekSpaced?
  if c.char? != some '-' || next == some ']' || next == some '-' then return (← first.member, c)
  let c := c.advance
  if c.isAtEnd then throw (unclosedClass c.place frames)
  let (last, c) ← readMember c
  let span : Span := ⟨first.span.start, last.span.stop⟩
  let first ← first.rangeEnd
  let last ← last.rangeEnd
  if first.char ≤ last.char then return (.range span first last, c)
  throw ⟨.invalidRange, span, none⟩

/-- The operator that the text goes on with. -/
def opOf? (c : Cursor) : Option SetOp :=
  if c.startsWith ['&', '&'] then some .inter
  else if c.startsWith ['-', '-'] then some .diff
  else if c.startsWith ['~', '~'] then some .symmDiff
  else none

/-- Reads a class up to the bracket that closes the outermost frame. -/
def readMembers (frames : List ClassFrame) (m : Members) :
    Nat → Cursor → Except Fault (ClassTree × Cursor)
  | 0, c => .error (unclosedClass c.place frames)
  | fuel + 1, c => do
    let c := c.skipSpace
    match c.char? with
    | none => throw (unclosedClass c.place frames)
    | some '[' =>
      match readAsciiClass? c with
      | some (t, c) => readMembers frames (m.push t) fuel c
      | none =>
        let (frame, inner, c) ← openClass m c
        readMembers (frame :: frames) inner fuel c
    | some ']' =>
      match applyOp frames m.tree with
      | (inner, .opened outer span negated :: rest) =>
        let c := c.bump
        let t := ClassTree.bracket ⟨span.start, c.place⟩ negated inner
        if rest.isEmpty then return (t, c) else readMembers rest (outer.push t) fuel c
      | _ => throw (unclosedClass c.place frames)
    | some _ =>
      match opOf? c with
      | some op =>
        let (left, rest) := applyOp frames m.tree
        let c := c.drop 2
        readMembers (.op op left :: rest) { span := c.place.span } fuel c
      | none =>
        let (t, c) ← readRange frames c
        readMembers frames (m.push t) fuel c

/-- Reads the class that starts with the bracket at the cursor. -/
def readBracket (c : Cursor) : Except Fault (ClassTree × Cursor) := do
  let (frame, m, c) ← openClass { span := c.place.span } c
  readMembers [frame] m c.rest.length.succ c

end CommandShell.Pattern
