import CommandShell.Text.Padding

/-!
TOML text for people: strings in the plainest form that can hold them, and lists with a line for
each item.
-/

namespace CommandShell.Toml

open Text

/-- The ways of writing a string. -/
inductive StringForm where
  | basic
  | literal
  | longBasic
  | longLiteral
  deriving DecidableEq, Repr

namespace Printer

/-- A character that can only be written as an escape. -/
def needsEscape (c : Char) : Bool :=
  (c.toNat ≤ 0x1F && c != '\t' && c != '\n') || c.toNat == 0x7F

/-- The length of the longest run of `q`; `run` is that of the one under way. -/
def longestRun (q : Char) (run : Nat) : List Char → Nat
  | [] => run
  | c :: cs => if c = q then longestRun q (run + 1) cs else max run (longestRun q 0 cs)

/-- The first form that writes the string without an escape, else one that has them. -/
def formOf (cs : List Char) : StringForm :=
  let escapes := cs.any needsEscape
  let backslash := cs.contains '\\'
  let newline := cs.contains '\n'
  let quotes := longestRun '"' 0 cs
  let apostrophes := longestRun '\'' 0 cs
  if !escapes && !backslash && quotes == 0 && !newline then .basic
  else if !escapes && apostrophes == 0 && !newline then .literal
  else if !escapes && !backslash && quotes ≤ 2 then .longBasic
  else if !escapes && apostrophes ≤ 2 then .longLiteral
  else if newline then .longBasic
  else .basic

/-- Four hexadecimal digits in capitals. -/
def hex4 (n : Nat) : List Char :=
  [n / 4096 % 16, n / 256 % 16, n / 16 % 16, n % 16].map fun d => (Nat.digitChar d).toUpper

/-- The characters of a string with escapes; `run` counts the quotes just before, of which `most`
may stand together unescaped. -/
def escape (long : Bool) (most : Nat) (run : Nat) : List Char → List Char
  | [] => []
  | c :: cs =>
    if c = '"' then
      if run < most then c :: escape long most (run + 1) cs
      else '\\' :: '"' :: escape long most 0 cs
    else
      let written :=
        if c = '\x08' then ['\\', 'b']
        else if c = '\t' then ['\\', 't']
        else if c = '\n' then if long then [c] else ['\\', 'n']
        else if c = '\x0c' then ['\\', 'f']
        else if c = '\r' then ['\\', 'r']
        else if c = '\\' then ['\\', '\\']
        else if needsEscape c then ['\\', 'u'] ++ hex4 c.toNat
        else [c]
      written ++ escape long most 0 cs

/-- The string with its quotes.  A string of several lines starts on a line of its own. -/
def string (s : String) : String :=
  let cs := s.toList
  let start := if cs.contains '\n' then "\n" else ""
  match formOf cs with
  | .basic => "\"" ++ String.ofList (escape false 0 0 cs) ++ "\""
  | .literal => "'" ++ s ++ "'"
  | .longBasic => "\"\"\"" ++ start ++ String.ofList (escape true 2 0 cs) ++ "\"\"\""
  | .longLiteral => "'''" ++ start ++ s ++ "'''"

/-- A list of strings: on one line if it has at most one. -/
def strings : List String → String
  | [] => "[]"
  | [s] => "[" ++ string s ++ "]"
  | ss => "[\n" ++ String.join (ss.map fun s => "    " ++ string s ++ ",\n") ++ "]"

end Printer

/-- A value that is written. -/
inductive Field where
  | text (s : String)
  | number (n : Nat)
  | truth (b : Bool)
  | texts (ss : List String)

def Field.render : Field → String
  | .text s => Printer.string s
  | .number n => toString n
  | .truth b => if b then "true" else "false"
  | .texts ss => Printer.strings ss

/-- A table of a document: its name and its assignments. -/
structure Section where
  name : String
  fields : List (String × Field)

def Section.render (s : Section) : String :=
  "[" ++ s.name ++ "]\n" ++ String.join (s.fields.map fun f => f.1 ++ " = " ++ f.2.render ++ "\n")

/-- A document of some tables, with an empty line between them. -/
def render (sections : List Section) : String :=
  "\n".intercalate (sections.map Section.render)

end CommandShell.Toml
