import CommandShell.Toml.Date
import CommandShell.Toml.Number
import CommandShell.Toml.Quoted

/-!
From the text of a TOML document to its table.
-/

namespace CommandShell.Toml

namespace Reader

def isBareKeyChar (c : Char) : Bool := c.isAlphanum || c == '_' || c == '-'

/-- Reads one part of a key. -/
def readKeyPart : List Char → Read String
  | '"' :: cs => readBasic (cs.length + 1) [] cs
  | '\'' :: cs => readLiteral cs
  | cs =>
    let part := cs.takeWhile isBareKeyChar
    if part.isEmpty then none else some (String.ofList part, cs.drop part.length)

/-- How deep lists and tables in braces may lie in each other, and how many parts a key may have. -/
def depthLimit : Nat := 79

/-- Reads a key with its dots; it has at most `room` parts. -/
def readParts : (room : Nat) → List Char → Read (List String)
  | 0, _ => none
  | room + 1, cs =>
    match readKeyPart (skipSpaces cs) with
    | none => none
    | some (part, rest) =>
      match skipSpaces rest with
      | '.' :: rest => (readParts room rest).map fun (parts, rest) => (part :: parts, rest)
      | rest => some ([part], rest)

def readKey (cs : List Char) : Read (List String) := readParts depthLimit cs

/-- What is left after a comment, if one starts here. -/
def skipComment (cs : List Char) : Option (List Char) :=
  match cs with
  | '#' :: cs =>
    match cs.dropWhile (!isForbidden ·) with
    | [] => some []
    | '\n' :: rest => some ('\n' :: rest)
    | '\r' :: '\n' :: rest => some ('\n' :: rest)
    | _ => none
  | cs => some cs

/-- Skips blanks, comments and line breaks between the items of a list. -/
def skipFiller (inComment : Bool) : List Char → Option (List Char)
  | [] => some []
  | '\r' :: '\n' :: cs => skipFiller false cs
  | c :: cs =>
    if c = '\n' then skipFiller false cs
    else if inComment then if isForbidden c then none else skipFiller true cs
    else if isSpace c then skipFiller false cs
    else if c = '#' then skipFiller true cs
    else some (c :: cs)

mutual

/-- Reads a value.  Lists and tables in braces may lie `depth` deep in it. -/
def readValue : (fuel depth : Nat) → List Char → Read Value
  | 0, _, _ => none
  | fuel + 1, depth, cs =>
    match cs, depth with
    | '"' :: _, _ | '\'' :: _, _ => (readString cs).map fun (s, rest) => (.text s, rest)
    | '[' :: _, 0 | '\x7b' :: _, 0 => none
    | '[' :: rest, depth + 1 => (readItems fuel depth rest).map fun (vs, rest) => (.list vs, rest)
    | '\x7b' :: rest, depth + 1 =>
      match skipSpaces rest with
      | '\x7d' :: rest => some (.table .inline [], rest)
      | rest => (readPairs fuel depth [] rest).map fun (es, rest) => (.table .inline es, rest)
    | cs, _ =>
      match skipDate cs with
      | some rest => some (.date, rest)
      | none =>
        let word := cs.takeWhile isBareValueChar
        (bareValue? word).map (·, cs.drop word.length)

/-- Reads the items of a list up to its closing bracket. -/
def readItems : (fuel depth : Nat) → List Char → Read (List Value)
  | 0, _, _ => none
  | fuel + 1, depth, cs =>
    match skipFiller false cs with
    | none => none
    | some (']' :: rest) => some ([], rest)
    | some cs =>
      match readValue fuel depth cs with
      | none => none
      | some (v, rest) =>
        match skipFiller false rest with
        | some (',' :: rest) => (readItems fuel depth rest).map fun (vs, rest) => (v :: vs, rest)
        | some (']' :: rest) => some ([v], rest)
        | _ => none

/-- Reads the assignments of a table in braces up to its closing brace. -/
def readPairs : (fuel depth : Nat) → Entries → List Char → Read Entries
  | 0, _, _, _ => none
  | fuel + 1, depth, es, cs =>
    match readKey cs with
    | some (key, '=' :: rest) =>
      match readValue fuel depth (skipSpaces rest) with
      | none => none
      | some (v, rest) =>
        match es.assign key v, skipSpaces rest with
        | some es, ',' :: rest => readPairs fuel depth es rest
        | some es, '\x7d' :: rest => some (es, rest)
        | _, _ => none
    | _ => none

end

/-- A document as far as it has been read: its table, and the path of the last header. -/
structure Document where
  entries : Entries := []
  path : List String := []

/-- Goes on with the table of a header, which is added in the way that is given. -/
def Document.openAt (d : Document) (add : String → Entries → Option Entries) (path : List String) :
    Option Document :=
  match path.getLast? with
  | none => none
  | some key => (d.entries.changeAt (add key) path.dropLast).map (⟨·, path⟩)

/-- What is left after the end of a line. -/
def endLine (cs : List Char) : Option (List Char) :=
  match skipComment (skipSpaces cs) with
  | some [] => some []
  | some ('\n' :: rest) | some ('\r' :: '\n' :: rest) => some rest
  | _ => none

/-- Reads one header or assignment, or nothing in an empty line. -/
def readStatement (d : Document) (cs : List Char) : Read Document :=
  match cs with
  | [] | '#' :: _ | '\n' :: _ | '\r' :: _ => some (d, cs)
  | '[' :: '[' :: rest =>
    match readKey rest with
    | some (path, ']' :: ']' :: rest) =>
      (d.openAt Entries.openNextTable path).map (·, rest)
    | _ => none
  | '[' :: rest =>
    match readKey rest with
    | some (path, ']' :: rest) => (d.openAt Entries.openTable path).map (·, rest)
    | _ => none
  | cs =>
    match readKey cs with
    | some (key, '=' :: rest) =>
      match readValue rest.length depthLimit (skipSpaces rest) with
      | none => none
      | some (v, rest) =>
        (d.entries.changeAt (·.assign key v) d.path).map fun es => ({ d with entries := es }, rest)
    | _ => none

/-- Reads line after line. -/
def readDocument : (fuel : Nat) → Document → List Char → Option Entries
  | 0, _, _ => none
  | fuel + 1, d, cs =>
    match readStatement d (skipSpaces cs) with
    | none => none
    | some (d, rest) =>
      match endLine rest with
      | none => none
      | some [] => some d.entries
      | some rest => readDocument fuel d rest

end Reader

/-- The table that a text is in TOML.  A byte-order mark at its start is skipped. -/
def read? (text : String) : Option Entries :=
  let cs := match text.toList with
    | '\uFEFF' :: rest => rest
    | cs => cs
  Reader.readDocument (text.length + 1) {} cs

end CommandShell.Toml
