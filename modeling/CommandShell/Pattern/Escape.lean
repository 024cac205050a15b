import CommandShell.Pattern.Cursor
import CommandShell.Pattern.Fault
import CommandShell.Pattern.Tree

/-!
What follows a backslash in a pattern.
-/

namespace CommandShell.Pattern

/-- The class that a letter stands for, and whether it is the characters outside. -/
def kindOf? : Char → Option (Kind × Bool)
  | 'd' => some (.digit, false)
  | 'D' => some (.digit, true)
  | 's' => some (.blank, false)
  | 'S' => some (.blank, true)
  | 'w' => some (.word, false)
  | 'W' => some (.word, true)
  | _ => none

/-- The character that a character after a backslash stands for: itself if it is an ASCII sign, or a
control. -/
def escaped? : Char → Option Char
  | 'a' => some '\x07'
  | 'f' => some '\x0c'
  | 'n' => some '\n'
  | 'r' => some '\r'
  | 't' => some '\t'
  | 'v' => some '\x0b'
  | c => if c.toNat < 0x80 && !c.isAlphanum && c != '<' && c != '>' then some c else none

def conditionOf? : Char → Option Condition
  | 'A' => some .textStart
  | 'z' => some .textEnd
  | 'b' => some .boundary
  | 'B' => some .noBoundary
  | '<' => some .wordStart
  | '>' => some .wordEnd
  | _ => none

def hexDigit? (c : Char) : Option Nat :=
  if c.isDigit then some (c.toNat - '0'.toNat)
  else if 'a' ≤ c && c ≤ 'f' then some (c.toNat - 'a'.toNat + 10)
  else if 'A' ≤ c && c ≤ 'F' then some (c.toNat - 'A'.toNat + 10)
  else none

/-- The number that hexadecimal digits stand for. -/
def hexValue (digits : List Nat) : Nat := digits.foldl (fun n d => n * 16 + d) 0

/-- The character with the given number. -/
def charOf? (n : Nat) : Option Char := if n.isValidChar then some (Char.ofNat n) else none

/-- Reads exactly `count` hexadecimal digits. -/
def readHexDigits (count : Nat) (c : Cursor) : Except Fault (List Nat × Cursor) :=
  match count with
  | 0 => .ok ([], c)
  | count + 1 =>
    match c.char? with
    | none => .error ⟨.unclosedEscape, c.place.span, none⟩
    | some x =>
      match hexDigit? x with
      | none => .error ⟨.invalidHexDigit, c.charSpan, none⟩
      | some d => do
        let (ds, c) ← readHexDigits count c.advance
        .ok (d :: ds, c)

/-- Reads hexadecimal digits up to the closing brace, which the rest starts with. -/
def readHexBraced (opening : Place) : Nat → Cursor → Except Fault (List Nat × Cursor)
  | 0, c => .error ⟨.unclosedEscape, ⟨opening, c.place⟩, none⟩
  | fuel + 1, c =>
    match c.char? with
    | none => .error ⟨.unclosedEscape, ⟨opening, c.place⟩, none⟩
    | some '\x7d' => .ok ([], c)
    | some x =>
      match hexDigit? x with
      | none => .error ⟨.invalidHexDigit, c.charSpan, none⟩
      | some d => do
        let (ds, c) ← readHexBraced opening fuel c.advance
        .ok (d :: ds, c)

/-- Reads a character by its number, from the letter after the backslash at `start` on. -/
def readHex (start : Place) (letter : Char) (c : Cursor) : Except Fault (Letter × Cursor) :=
  let count := if letter = 'x' then 2 else if letter = 'u' then 4 else 8
  let c := c.advance
  match c.char? with
  | none => .error ⟨.unclosedEscape, c.place.span, none⟩
  | some '\x7b' => do
    let opening := c.place
    let inside := c.charSpan.stop
    let (digits, c) ← readHexBraced opening c.rest.length c.advance
    let closing := c.place
    let c := c.advance
    if digits.isEmpty then .error ⟨.emptyHex, ⟨opening, c.place⟩, none⟩
    else
      match charOf? (hexValue digits) with
      | none => .error ⟨.invalidHex, ⟨inside, closing⟩, none⟩
      | some x => .ok (⟨⟨start, c.place⟩, x, false⟩, c)
  | some _ => do
    let first := c.place
    let (digits, c) ← readHexDigits count c
    match charOf? (hexValue digits) with
    | none => .error ⟨.invalidHex, ⟨first, c.place⟩, none⟩
    | some x => .ok (⟨⟨start, c.place⟩, x, letter = 'x'⟩, c)

/-- Reads the name of a property, from the letter after the backslash at `start` on. -/
def readProperty (start : Place) (negated : Bool) (c : Cursor) : Except Fault (Atom × Cursor) :=
  let c := c.advance
  match c.char? with
  | none => .error ⟨.unclosedEscape, c.place.span, none⟩
  | some '\x7b' =>
    let (name, c) := c.advance.takeSpaced (· != '\x7d') c.rest.length
    if c.isAtEnd then .error ⟨.unclosedEscape, c.place.span, none⟩
    else
      let c := c.bump
      .ok (.property ⟨start, c.place⟩ (String.ofList name) negated, c)
  | some '\\' => .error ⟨.invalidClassName, c.charSpan, none⟩
  | some x =>
    let c := c.advance
    .ok (.property ⟨start, c.place⟩ (String.singleton x) negated, c)

/-- The conditions that are written as names after `\b`. -/
def namedCondition? (name : List Char) : Option Condition :=
  match String.ofList name with
  | "start" => some .wordStart
  | "end" => some .wordEnd
  | "start-half" => some .wordStartHalf
  | "end-half" => some .wordEndHalf
  | _ => none

/-- Reads a name in braces after the `\b` at `start`.  What starts like a count is none. -/
def readBoundaryName (start : Place) (c : Cursor) :
    Except Fault (Option (Condition × Cursor)) :=
  let isNameChar (x : Char) := x.isAlpha || x == '-'
  let inside := c.advance
  match inside.char? with
  | none => .error ⟨.unclosedBoundaryOrCount, ⟨start, inside.place⟩, none⟩
  | some x =>
    if !isNameChar x then .ok none
    else
      let (name, closing) := inside.takeSpaced isNameChar inside.rest.length
      if closing.char? != some '\x7d' then .error ⟨.unclosedBoundary, ⟨c.place, closing.place⟩, none⟩
      else
        match namedCondition? name with
        | none => .error ⟨.unknownBoundary, ⟨inside.place, closing.place⟩, none⟩
        | some k => .ok (some (k, closing.bump))

/-- Reads a condition, from behind its letter on. -/
def readCondition (start : Place) (condition : Condition) (c : Cursor) :
    Except Fault (Atom × Cursor) := do
  let plain := (.condition ⟨start, c.place⟩ condition, c)
  if condition = .boundary && c.char? == some '\x7b' then
    match ← readBoundaryName start c with
    | none => .ok plain
    | some (k, c) => .ok (.condition ⟨start, c.place⟩ k, c)
  else .ok plain

/-- Reads what starts with the backslash at the cursor. -/
def readEscape (c : Cursor) : Except Fault (Atom × Cursor) :=
  let start := c.place
  let c := c.bump
  match c.char? with
  | none => .error ⟨.unclosedEscape, ⟨start, c.place⟩, none⟩
  | some x =>
    let past := c.bump
    let span := ⟨start, past.place⟩
    if x.isDigit then .error ⟨.backreference, span, none⟩
    else if x = 'x' || x = 'u' || x = 'U' then
      (readHex start x c).map fun (letter, c) => (.letter letter, c)
    else if x = 'p' || x = 'P' then readProperty start (x = 'P') c
    else
      match kindOf? x, escaped? x, conditionOf? x with
      | some (kind, negated), _, _ => .ok (.kind span kind negated, past)
      | none, some e, _ => .ok (.letter ⟨span, e, false⟩, past)
      | none, none, some condition => readCondition start condition past
      | none, none, none => .error ⟨.unknownEscape, span, none⟩

end CommandShell.Pattern
