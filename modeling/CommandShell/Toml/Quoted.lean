import CommandShell.Toml.Digits

/-!
Strings in a TOML document.
-/

namespace CommandShell.Toml.Reader

/-- The character of a hexadecimal code point. -/
def scalarOf (digits : List Char) : Option Char := do
  let values ← digits.mapM hexValue?
  let n := values.foldl (fun n d => n * 16 + d) 0
  if n.isValidChar then some (Char.ofNat n) else none

def unescape? : Char → Option Char
  | 'b' => some '\x08'
  | 't' => some '\t'
  | 'n' => some '\n'
  | 'f' => some '\x0c'
  | 'r' => some '\r'
  | '"' => some '"'
  | '\\' => some '\\'
  | _ => none

/-- Reads the escape after a backslash. -/
def readEscape : List Char → Read Char
  | 'u' :: a :: b :: c :: d :: rest => (scalarOf [a, b, c, d]).map (·, rest)
  | 'U' :: a :: b :: c :: d :: e :: f :: g :: h :: rest =>
    (scalarOf [a, b, c, d, e, f, g, h]).map (·, rest)
  | c :: rest => (unescape? c).map (·, rest)
  | [] => none

/-- Reads a basic string after its opening quote; `text` is what came before, last character
first. -/
def readBasic : (fuel : Nat) → (text : List Char) → List Char → Read String
  | 0, _, _ => none
  | _, _, [] => none
  | fuel + 1, text, c :: cs =>
    if c = '"' then some (String.ofList text.reverse, cs)
    else if c = '\\' then
      match readEscape cs with
      | some (x, rest) => readBasic fuel (x :: text) rest
      | none => none
    else if isForbidden c then none
    else readBasic fuel (c :: text) cs

/-- Reads a literal string after its opening apostrophe. -/
def readLiteral (cs : List Char) : Read String :=
  let body := cs.takeWhile fun c => c != '\'' && !isForbidden c
  match cs.drop body.length with
  | '\'' :: rest => some (String.ofList body, rest)
  | _ => none

/-- The text without a line break at its start. -/
def skipFirstBreak : List Char → List Char
  | '\n' :: cs => cs
  | '\r' :: '\n' :: cs => cs
  | cs => cs

/-- Skips spaces, tabs and line breaks, as an escaped line end does. -/
def skipBreaks : List Char → List Char
  | '\r' :: '\n' :: cs => skipBreaks cs
  | c :: cs => if isSpace c || c == '\n' then skipBreaks cs else c :: cs
  | [] => []

/-- The end of a string of several lines: three quotes, in front of which two more may belong to the
string. -/
def closing (quote : Char) (cs : List Char) : Option (List Char × List Char) :=
  let run := cs.takeWhile (· == quote)
  if run.length < 3 then none
  else
    let extra := run.take (min (run.length - 3) 2)
    some (extra, cs.drop (extra.length + 3))

/-- Reads a basic string of several lines after its opening quotes. -/
def readLongBasic : (fuel : Nat) → (text : List Char) → List Char → Read String
  | 0, _, _ => none
  | _, _, [] => none
  | fuel + 1, text, c :: cs =>
    match closing '"' (c :: cs) with
    | some (extra, rest) => some (String.ofList (text.reverse ++ extra), rest)
    | none =>
      if c = '\\' then
        match readEscape cs with
        | some (x, rest) => readLongBasic fuel (x :: text) rest
        | none =>
          match skipSpaces cs with
          | '\n' :: rest | '\r' :: '\n' :: rest => readLongBasic fuel text (skipBreaks rest)
          | _ => none
      else if c = '\r' then
        match cs with
        | '\n' :: rest => readLongBasic fuel ('\n' :: text) rest
        | _ => none
      else if isForbidden c && c != '\n' then none
      else readLongBasic fuel (c :: text) cs

/-- Reads a literal string of several lines after its opening apostrophes. -/
def readLongLiteral : (text : List Char) → List Char → Read String
  | _, [] => none
  | text, c :: cs =>
    match closing '\'' (c :: cs) with
    | some (extra, rest) => some (String.ofList (text.reverse ++ extra), rest)
    | none =>
      if c = '\r' then
        if cs.head? = some '\n' then readLongLiteral text cs else none
      else if isForbidden c && c != '\n' then none
      else readLongLiteral (c :: text) cs

/-- Reads a string that starts with a quote or an apostrophe. -/
def readString : List Char → Read String
  | '"' :: '"' :: '"' :: cs => readLongBasic (cs.length + 1) [] (skipFirstBreak cs)
  | '\'' :: '\'' :: '\'' :: cs => readLongLiteral [] (skipFirstBreak cs)
  | '"' :: cs => readBasic (cs.length + 1) [] cs
  | '\'' :: cs => readLiteral cs
  | _ => none

end CommandShell.Toml.Reader
