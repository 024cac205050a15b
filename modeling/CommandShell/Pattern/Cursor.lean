import CommandShell.Pattern.Span
import CommandShell.Text.Blank

/-!
What is left of a pattern's text, and where it starts.
-/

namespace CommandShell.Pattern

open Text

structure Cursor where
  rest : List Char
  place : Place := {}
  /-- Blanks stand for nothing, and so does what stands between `#` and the line's end. -/
  loose : Bool := false
  deriving Repr

/-- The rest of a text behind blanks and comments. -/
def skipLoose (inComment : Bool) (place : Place) : List Char → List Char × Place
  | [] => ([], place)
  | c :: cs =>
    if inComment then skipLoose (c != '\n') (place.after c) cs
    else if c == '#' then skipLoose true (place.after c) cs
    else if isBlank c then skipLoose false (place.after c) cs
    else (c :: cs, place)

/-- The characters of a list that follow its first one, blanks between them left out. -/
def peekLoose : List Char → Option Char
  | [] => none
  | c :: cs =>
    if isBlank c then peekLoose cs
    else if c == '#' then (cs.dropWhile isBlank).head?
    else some c

namespace Cursor

def ofText (text : String) : Cursor := { rest := text.toList }

/-- The next character. -/
def char? (c : Cursor) : Option Char := c.rest.head?

def isAtEnd (c : Cursor) : Bool := c.rest.isEmpty

/-- Behind the next character. -/
def bump (c : Cursor) : Cursor :=
  match c.rest with
  | [] => c
  | x :: xs => { c with rest := xs, place := c.place.after x }

def skipSpace (c : Cursor) : Cursor :=
  if c.loose then
    let (rest, place) := skipLoose false c.place c.rest
    { c with rest, place }
  else c

/-- Behind the next character and the blanks after it. -/
def advance (c : Cursor) : Cursor := c.bump.skipSpace

/-- The character after the next one. -/
def peek? (c : Cursor) : Option Char := c.rest[1]?

/-- The character after the next one and the blanks behind it. -/
def peekSpaced? (c : Cursor) : Option Char :=
  if c.loose then peekLoose c.rest.tail else c.peek?

/-- The next character's span. -/
def charSpan (c : Cursor) : Span :=
  match c.rest with
  | [] => c.place.span
  | x :: _ => ⟨c.place, c.place.after x⟩

/-- The text from the cursor on starts with the given characters. -/
def startsWith (c : Cursor) (cs : List Char) : Bool := cs.isPrefixOf c.rest

/-- Behind the next `n` characters. -/
def drop (c : Cursor) : Nat → Cursor
  | 0 => c
  | n + 1 => c.bump.drop n

/-- Behind the characters, if the text goes on with them. -/
def after? (c : Cursor) (cs : List Char) : Option Cursor :=
  if c.startsWith cs then some (c.drop cs.length) else none

/-- Behind all characters from here on that satisfy `p`, with these characters. -/
def takeSpaced (p : Char → Bool) : Nat → Cursor → List Char × Cursor
  | 0, c => ([], c)
  | fuel + 1, c =>
    match c.rest with
    | [] => ([], c)
    | x :: _ =>
      if p x then
        let (xs, c) := takeSpaced p fuel c.advance
        (x :: xs, c)
      else ([], c)

end Cursor

end CommandShell.Pattern
