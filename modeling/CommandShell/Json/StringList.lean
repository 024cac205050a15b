/-!
Lists of texts in JSON: the reader and the writer of the history file.
-/

namespace CommandShell.Json

/-- Why a text is no JSON list of strings. -/
inductive Fault where
  /-- It could still become one if it went on. -/
  | truncated
  | invalid
  deriving DecidableEq, Repr

/-- How much of a number has been read. -/
inductive NumberPart where
  | minus
  | zero
  | whole
  | point
  | fraction
  | exponent
  | exponentSign
  | exponentDigits
  deriving DecidableEq, Repr

/-- Where in a list of strings the reader is.  The text under way is held last character first. -/
inductive Place where
  | start
  /-- After the opening bracket. -/
  | first
  /-- After a comma. -/
  | element
  /-- In a string; one that is no element of the list is wrong at its end. -/
  | string (wanted : Bool) (text : List Char)
  | escape (wanted : Bool) (text : List Char)
  /-- In the four bytes of a code unit, of which `count` have been read; `high` is a surrogate that
  waits for its partner and `value` is lost by anything but a digit. -/
  | unit (wanted : Bool) (text : List Char) (high : Option Nat) (count : Nat) (value : Option Nat)
  /-- After a high surrogate: a backslash must follow, and then a `u`. -/
  | partner (wanted : Bool) (text : List Char) (high : Nat) (slashRead : Bool)
  /-- After an element. -/
  | next
  | finished
  /-- In a literal word, of which these letters are to come. -/
  | word (rest : List Char)
  | number (part : NumberPart)
  deriving DecidableEq, Repr

/-- The strings read so far and the place after them. -/
structure Reader where
  found : List String := []
  place : Place := .start
  deriving Repr

namespace Reader

def isSpace (c : Char) : Bool := c == ' ' || c == '\n' || c == '\t' || c == '\r'

def goto (r : Reader) (place : Place) : Except Fault Reader := .ok { r with place }

/-- Enters a value that is none of those wanted; it is wrong when it is complete. -/
def enterOther (r : Reader) (c : Char) : Except Fault Reader :=
  match c with
  | 'n' => r.goto (.word ['u', 'l', 'l'])
  | 't' => r.goto (.word ['r', 'u', 'e'])
  | 'f' => r.goto (.word ['a', 'l', 's', 'e'])
  | '-' => r.goto (.number .minus)
  | '0' => r.goto (.number .zero)
  | c => if c.isDigit then r.goto (.number .whole) else .error .invalid

/-- Ends the string under way. -/
def close (r : Reader) (wanted : Bool) (text : List Char) : Except Fault Reader :=
  if wanted then .ok ⟨r.found ++ [String.ofList text.reverse], .next⟩ else .error .invalid

/-- The character of an escape of one letter. -/
def unescape? : Char → Option Char
  | '"' => some '"'
  | '\\' => some '\\'
  | '/' => some '/'
  | 'b' => some '\x08'
  | 'f' => some '\x0c'
  | 'n' => some '\n'
  | 'r' => some '\r'
  | 't' => some '\t'
  | _ => none

def hexDigit? (c : Char) : Option Nat :=
  if c.isDigit then some (c.toNat - '0'.toNat)
  else if 'a' ≤ c ∧ c ≤ 'f' then some (c.toNat - 'a'.toNat + 10)
  else if 'A' ≤ c ∧ c ≤ 'F' then some (c.toNat - 'A'.toNat + 10)
  else none

/-- Takes a code unit: a character of its own, or one of a pair of surrogates. -/
def takeUnit (r : Reader) (wanted : Bool) (text : List Char) (high : Option Nat) (u : Nat) :
    Except Fault Reader :=
  let low := 0xDC00 ≤ u && u ≤ 0xDFFF
  match high with
  | some h =>
    if low then
      r.goto (.string wanted (Char.ofNat (0x10000 + (h - 0xD800) * 0x400 + (u - 0xDC00)) :: text))
    else .error .invalid
  | none =>
    if low then .error .invalid
    else if 0xD800 ≤ u ∧ u ≤ 0xDBFF then r.goto (.partner wanted text u false)
    else r.goto (.string wanted (Char.ofNat u :: text))

/-- The part of a number that `c` leads to. -/
def numberStep : NumberPart → Char → Option NumberPart
  | .minus, c => if c = '0' then some .zero else if c.isDigit then some .whole else none
  | .zero, c =>
    if c = '.' then some .point else if c = 'e' ∨ c = 'E' then some .exponent else none
  | .whole, c =>
    if c.isDigit then some .whole
    else if c = '.' then some .point else if c = 'e' ∨ c = 'E' then some .exponent else none
  | .point, c => if c.isDigit then some .fraction else none
  | .fraction, c =>
    if c.isDigit then some .fraction else if c = 'e' ∨ c = 'E' then some .exponent else none
  | .exponent, c =>
    if c = '+' ∨ c = '-' then some .exponentSign
    else if c.isDigit then some .exponentDigits else none
  | .exponentSign, c | .exponentDigits, c => if c.isDigit then some .exponentDigits else none

/-- Reads one character. -/
def step (r : Reader) (c : Char) : Except Fault Reader :=
  match r.place with
  | .start =>
    if isSpace c then .ok r
    else if c = '[' then r.goto .first
    else if c = '"' then r.goto (.string false [])
    else r.enterOther c
  | .first =>
    if isSpace c then .ok r
    else if c = ']' then r.goto .finished
    else if c = '"' then r.goto (.string true [])
    else r.enterOther c
  | .element =>
    if isSpace c then .ok r
    else if c = '"' then r.goto (.string true [])
    else r.enterOther c
  | .string wanted text =>
    if c = '"' then r.close wanted text
    else if c = '\\' then r.goto (.escape wanted text)
    else if c.toNat < 0x20 then .error .invalid
    else r.goto (.string wanted (c :: text))
  | .escape wanted text =>
    if c = 'u' then r.goto (.unit wanted text none 0 (some 0))
    else
      match unescape? c with
      | some x => r.goto (.string wanted (x :: text))
      | none => .error .invalid
  | .unit wanted text high count value =>
    let value := match value, hexDigit? c with
      | some v, some d => some (v * 16 + d)
      | _, _ => none
    let count := count + c.utf8Size
    if count < 4 then r.goto (.unit wanted text high count value)
    else
      match value with
      | some u => r.takeUnit wanted text high u
      | none => .error .invalid
  | .partner wanted text high slashRead =>
    if slashRead then
      if c = 'u' then r.goto (.unit wanted text (some high) 0 (some 0)) else .error .invalid
    else if c = '\\' then r.goto (.partner wanted text high true)
    else .error .invalid
  | .next =>
    if isSpace c then .ok r
    else if c = ',' then r.goto .element
    else if c = ']' then r.goto .finished
    else .error .invalid
  | .finished => if isSpace c then .ok r else .error .invalid
  | .word rest =>
    match rest with
    | x :: y :: rest => if c = x then r.goto (.word (y :: rest)) else .error .invalid
    | _ => .error .invalid
  | .number part =>
    match numberStep part c with
    | some part => r.goto (.number part)
    | none => .error .invalid

/-- The strings of a text that ends here. -/
def finish (r : Reader) : Except Fault (List String) :=
  match r.place with
  | .finished => .ok r.found
  | .number .zero | .number .whole | .number .fraction | .number .exponentDigits => .error .invalid
  | _ => .error .truncated

end Reader

/-- The list of strings that a text is in JSON. -/
def readStrings (text : String) : Except Fault (List String) :=
  (text.toList.foldlM Reader.step {}).bind Reader.finish

/-- The two small hexadecimal digits of a number below 256. -/
def hexPair (n : Nat) : List Char := [Nat.digitChar (n / 16), Nat.digitChar (n % 16)]

/-- A character inside a string. -/
def escapeChar (c : Char) : List Char :=
  match c with
  | '"' => ['\\', '"']
  | '\\' => ['\\', '\\']
  | '\x08' => ['\\', 'b']
  | '\x0c' => ['\\', 'f']
  | '\n' => ['\\', 'n']
  | '\r' => ['\\', 'r']
  | '\t' => ['\\', 't']
  | c => if c.toNat < 0x20 then ['\\', 'u', '0', '0'] ++ hexPair c.toNat else [c]

def writeString (s : String) : List Char :=
  '"' :: (s.toList.flatMap escapeChar ++ ['"'])

/-- A list of strings in JSON, each on a line of its own. -/
def writeStrings : List String → String
  | [] => "[]"
  | ss =>
    let rows := ss.map fun s => "  " ++ String.ofList (writeString s)
    "[\n" ++ ",\n".intercalate rows ++ "\n]"

end CommandShell.Json
