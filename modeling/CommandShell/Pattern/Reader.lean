import CommandShell.Pattern.Bracket
import CommandShell.Text.Property

/-!
Patterns read from their text.
-/

namespace CommandShell.Pattern

open Text

/-- The parts of an alternative that have been read, the latest first. -/
structure Parts where
  start : Place
  parts : List Tree := []

namespace Parts

def push (p : Parts) (t : Tree) : Parts := { p with parts := t :: p.parts }

/-- The alternative, which ends at the given place. -/
def tree (p : Parts) (stop : Place) : Tree :=
  match p.parts with
  | [] => .empty ⟨p.start, stop⟩
  | [t] => t
  | ts => .seq ⟨p.start, stop⟩ ts.reverse

end Parts

/-- The alternatives of a group that have been read, the latest first. -/
structure Branches where
  start : Place
  branches : List Tree

/-- A group that has been opened: what stands before it and around it, and the span of its opening
bracket. -/
structure OpenGroup where
  outer : Parts
  branches : Option Branches
  span : Span
  kind : GroupKind
  /-- Blanks stood for nothing in front of it. -/
  loose : Bool

/-- A text of which a part has been read. -/
structure Reader where
  cursor : Cursor
  parts : Parts
  branches : Option Branches := none
  /-- The groups around, the innermost first. -/
  groups : List OpenGroup := []
  /-- How many groups with a number there are. -/
  count : Nat := 0
  /-- The names of groups, and where they stand. -/
  names : List (String × Span) := []

namespace Reader

def ofText (text : String) : Reader :=
  { cursor := .ofText text, parts := { start := {} } }

/-- All alternatives, of which the last ends at the given place. -/
def alternatives (r : Reader) (stop : Place) : Tree :=
  let last := r.parts.tree stop
  match r.branches with
  | none => last
  | some b => .either ⟨b.start, stop⟩ (last :: b.branches).reverse

/-- Reads `|`. -/
def readBar (r : Reader) : Reader :=
  let here := r.cursor.place
  let branch := r.parts.tree here
  let branches := match r.branches with
    | none => ⟨r.parts.start, [branch]⟩
    | some b => { b with branches := branch :: b.branches }
  let cursor := r.cursor.bump
  { r with cursor, parts := { start := cursor.place }, branches := some branches }

def flagOf? : Char → Option Flag
  | 'i' => some .ignoreCase
  | 'm' => some .manyLines
  | 's' => some .anyWithBreaks
  | 'U' => some .swapGreed
  | 'u' => some .characters
  | 'R' => some .returnBreaks
  | 'x' => some .loose
  | _ => none

/-- Reads flags up to the `:` or `)` after them, where `read` holds the items so far, the latest
first. -/
def readFlags (read : List (FlagItem × Span)) : Nat → Cursor → Except Fault (List FlagItem × Cursor)
  | 0, c => .error ⟨.unclosedFlags, c.place.span, none⟩
  | fuel + 1, c =>
    match c.char? with
    | none => .error ⟨.unclosedFlags, c.place.span, none⟩
    | some x =>
      if x = ':' || x = ')' then
        match read with
        | (.negation, span) :: _ => .error ⟨.danglingFlagNegation, span, none⟩
        | _ => .ok ((read.map (·.1)).reverse, c)
      else
        match if x = '-' then some FlagItem.negation else (flagOf? x).map .flag with
        | none => .error ⟨.unknownFlag, c.charSpan, none⟩
        | some item =>
          match read.find? (·.1 == item) with
          | some (_, span) =>
            let kind := if x = '-' then .repeatedFlagNegation else .repeatedFlag
            .error ⟨kind, c.charSpan, some span⟩
          | none => readFlags ((item, c.charSpan) :: read) fuel c.bump

/-- The character may stand in a group's name. -/
def isNameChar (first : Bool) (c : Char) : Bool :=
  c == '_' || Property.alphabetic.contains c ||
    (!first && (c == '.' || c == '[' || c == ']' || Category.numbers.any (·.contains c.toNat)))

/-- Reads the characters of a group's name. -/
def readNameChars (first : Bool) : Nat → Cursor → Except Fault (List Char × Cursor)
  | 0, c => .error ⟨.unclosedGroupName, c.place.span, none⟩
  | fuel + 1, c =>
    match c.char? with
    | none => .error ⟨.unclosedGroupName, c.place.span, none⟩
    | some '>' => .ok ([], c)
    | some x =>
      if !isNameChar first x then .error ⟨.invalidGroupName, c.charSpan, none⟩
      else do
        let (xs, c) ← readNameChars false fuel c.bump
        .ok (x :: xs, c)

/-- Opens a group at `start`, whose inside begins at the cursor. -/
def openGroup (r : Reader) (span : Span) (kind : GroupKind) (cursor : Cursor) : Reader :=
  let group := ⟨r.parts, r.branches, span, kind, r.cursor.loose⟩
  let count := match kind with
    | .numbered _ => r.count + 1
    | .plain _ => r.count
  { r with cursor, parts := { start := cursor.place }, branches := none, groups := group :: r.groups, count }

/-- Opens a group with a name, which starts at the cursor. -/
def openNamed (r : Reader) (span : Span) (c : Cursor) : Except Fault Reader := do
  let (name, closing) ← readNameChars true (c.rest.length + 1) c
  if name.isEmpty then throw ⟨.emptyGroupName, c.place.span, none⟩
  let name := String.ofList name
  let nameSpan := ⟨c.place, closing.place⟩
  match r.names.find? (·.1 == name) with
  | some (_, earlier) => throw ⟨.repeatedGroupName, nameSpan, some earlier⟩
  | none =>
    let r := { r with names := (name, nameSpan) :: r.names }
    return r.openGroup span (.numbered (r.count + 1)) closing.bump

/-- Reads what follows `(?`: flags for the rest of the group, or a group without a number. -/
def openFlagged (r : Reader) (span : Span) (sign : Place) (c : Cursor) : Except Fault Reader := do
  if c.isAtEnd then throw ⟨.unclosedGroup, span, none⟩
  let (items, c) ← readFlags [] (c.rest.length + 1) c
  let loose := flagState .loose false items
  let ending := c.char?
  let c := c.bump
  if ending == some ')' then
    if items.isEmpty then throw ⟨.missingExpression, sign.span, none⟩
    let cursor := { c with loose := loose.getD c.loose }
    return { r with cursor, parts := r.parts.push (.flags ⟨span.start, c.place⟩ items) }
  else return r.openGroup span (.plain items) { c with loose := loose.getD c.loose }

/-- The text goes on with a look-around. -/
def lookAround? (c : Cursor) : Option Cursor :=
  ([['?', '='], ['?', '!'], ['?', '<', '='], ['?', '<', '!']].filterMap c.after?).head?

/-- Reads `(` and what belongs to it. -/
def readOpening (r : Reader) : Except Fault Reader :=
  let span := r.cursor.charSpan
  let c := r.cursor.advance
  match lookAround? c, (c.after? ['?', 'P', '<'] <|> c.after? ['?', '<']), c.after? ['?'] with
  | some past, _, _ => .error ⟨.lookAround, ⟨span.start, past.place⟩, none⟩
  | none, some name, _ => r.openNamed span name
  | none, none, some past => r.openFlagged span c.place past
  | none, none, none => .ok (r.openGroup span (.numbered (r.count + 1)) c)

/-- Reads `)`. -/
def readClosing (r : Reader) : Except Fault Reader :=
  match r.groups with
  | [] => .error ⟨.unopenedGroup, r.cursor.charSpan, none⟩
  | g :: groups =>
    let inner := r.alternatives r.cursor.place
    let cursor := { r.cursor.bump with loose := g.loose }
    let t := .group ⟨g.span.start, cursor.place⟩ g.kind inner
    .ok { r with cursor, parts := g.outer.push t, branches := g.branches, groups }

/-- The last part, which is to be repeated, and the parts before it. -/
def repeatable (r : Reader) : Except Fault (Tree × Parts) :=
  match r.parts.parts with
  | [] | .empty _ :: _ | .flags _ _ :: _ => .error ⟨.missingExpression, r.cursor.place.span, none⟩
  | t :: rest => .ok (t, { r.parts with parts := rest })

/-- Repeats the last part; a `?` at the cursor makes the repetition a reluctant one. -/
def repeatLast (r : Reader) (t : Tree) (rest : Parts) (least : Nat) (most : Option Nat) (c : Cursor) :
    Reader :=
  let reluctant := c.char? == some '?'
  let c := if reluctant then c.bump else c
  let t := .times ⟨t.span.start, c.place⟩ least most (!reluctant) t
  { r with cursor := c, parts := rest.push t }

/-- Reads a sign for a repetition. -/
def readRepeat (r : Reader) (least : Nat) (most : Option Nat) : Except Fault Reader := do
  let (t, rest) ← r.repeatable
  return r.repeatLast t rest least most r.cursor.bump

/-- The number that digits stand for. -/
def value (digits : List Char) : Nat :=
  digits.foldl (fun n c => n * 10 + (c.toNat - '0'.toNat)) 0

def skipBlanks (c : Cursor) : Nat → Cursor
  | 0 => c
  | fuel + 1 =>
    match c.char? with
    | some x => if isBlank x then skipBlanks c.bump fuel else c
    | none => c

/-- Reads a decimal number with blanks around it, which is below 2³². -/
def readNumber (c : Cursor) : Except Fault Nat × Cursor :=
  let first := skipBlanks c c.rest.length
  let (digits, past) := first.takeSpaced Char.isDigit first.rest.length
  let c := (past.takeSpaced isBlank past.rest.length).2
  let span := ⟨first.place, past.place⟩
  if digits.isEmpty then (.error ⟨.emptyCount, span, none⟩, c)
  else if value digits < 4294967296 then (.ok (value digits), c)
  else (.error ⟨.invalidNumber, span, none⟩, c)

/-- Reads a count such as `{2,5}`. -/
def readCount (r : Reader) : Except Fault Reader := do
  let start := r.cursor.place
  let unclosed (c : Cursor) : Fault := ⟨.unclosedCount, ⟨start, c.place⟩, none⟩
  let (t, rest) ← r.repeatable
  let c := r.cursor.advance
  if c.isAtEnd then throw (unclosed c)
  let (least, c) := readNumber c
  if c.isAtEnd then throw (unclosed c)
  let (least, most, c) ←
    if c.char? == some ',' then
      let c := c.advance
      if c.isAtEnd then throw (unclosed c)
      else if c.char? == some '\x7d' then pure (← least, none, c)
      else
        let least ← least
        let (most, c) := readNumber c
        pure (least, some (← most), c)
    else
      let least ← least
      pure (least, some least, c)
  if c.char? != some '\x7d' then throw (unclosed c)
  let past := r.repeatLast t rest least most c.advance
  if most.any (· < least) then throw ⟨.invalidCountRange, ⟨start, past.cursor.place⟩, none⟩
  return past

/-- Reads a part that has no parts. -/
def readAtom (c : Cursor) (x : Char) : Except Fault (Tree × Cursor) :=
  match x with
  | '\\' => (readEscape c).map fun (a, c) => (.atom a, c)
  | '.' => .ok (.atom (.any c.charSpan), c.bump)
  | '^' => .ok (.atom (.condition c.charSpan .lineStart), c.bump)
  | '$' => .ok (.atom (.condition c.charSpan .lineEnd), c.bump)
  | x => .ok (.atom (.letter ⟨c.charSpan, x, false⟩), c.bump)

/-- Reads on from the character at the cursor. -/
def step (r : Reader) (x : Char) : Except Fault Reader :=
  match x with
  | '(' => r.readOpening
  | ')' => r.readClosing
  | '|' => .ok r.readBar
  | '[' => do
    let (t, cursor) ← readBracket r.cursor
    match t with
    | .bracket span negated inner =>
      return { r with cursor, parts := r.parts.push (.bracket span negated inner) }
    | t => throw ⟨.unclosedClass, t.span, none⟩
  | '?' => r.readRepeat 0 (some 1)
  | '*' => r.readRepeat 0 none
  | '+' => r.readRepeat 1 none
  | '\x7b' => r.readCount
  | x => do
    let (t, cursor) ← readAtom r.cursor x
    return { r with cursor, parts := r.parts.push t }

/-- The pattern that has been read when nothing is left. -/
def finish (r : Reader) : Except Fault Tree :=
  match r.groups with
  | [] => .ok (r.alternatives r.cursor.place)
  | g :: _ => .error ⟨.unclosedGroup, g.span, none⟩

/-- Reads all that is left.  Each step reads one character at least. -/
def run : Nat → Reader → Except Fault Tree
  | 0, r => r.finish
  | fuel + 1, r =>
    let r := { r with cursor := r.cursor.skipSpace }
    match r.cursor.char? with
    | none => r.finish
    | some x =>
      match r.step x with
      | .error e => .error e
      | .ok r => run fuel r

end Reader

/-- Reads the text of a pattern. -/
def Tree.ofText (text : String) : Except Fault Tree :=
  (Reader.ofText text).run (text.length + 1)

end CommandShell.Pattern
