import CommandShell.Error
import CommandShell.Schema.Help
import CommandShell.Text.Case

/-!
The names that commands answer to.
-/

namespace CommandShell

open Text

universe u

/-- A set of commands whose names can be qualified.  Those of the core can also be called by a name
that starts with a dot. -/
structure Group where
  qualifier : String
  name : String
  isCore : Bool := false
  deriving DecidableEq, Repr

/-- What a registry shows of a command. -/
structure Entry where
  name : String
  description : String
  group : Group
  signature : Signature

namespace Entry

/-- What no two commands in a registry may share.  It can still be another command's plain name, when that
name has dots. -/
def qualifiedName (e : Entry) : String :=
  if e.group.qualifier.isEmpty then e.name else s!"{e.group.qualifier}.{e.name}"

/-- All names of the command. -/
def names (e : Entry) : List String :=
  e.name :: ((if e.group.qualifier.isEmpty then [] else [e.qualifiedName]) ++
    if e.group.isCore then ["." ++ e.name] else [])

def answersTo (e : Entry) (name : String) : Bool := e.names.any (eqIgnoringCase · name)

def help (e : Entry) : String := Help.render e.name e.description e.signature

/-- What entries are sorted by. -/
def sortKey (e : Entry) : String := lowercase e.qualifiedName

/-- A row for each entry, with its name and its description, sorted by name.  The column's width is
counted in bytes, the blanks that fill it in characters. -/
def listing (es : List Entry) : String :=
  let sorted := es.mergeSort fun a b => a.sortKey ≤ b.sortKey
  let width := (sorted.map (·.qualifiedName.utf8ByteSize)).foldl max 0
  joinLines <| sorted.map fun e => "  " ++ padRight width e.qualifiedName ++ "  " ++ e.description

/-- The only item whose entry answers to a name. -/
def select {α : Type u} (entry : α → Entry) (items : List α) (name : String) :
    Except ShellError α :=
  match items.filter fun a => (entry a).answersTo name with
  | [] => .error (.unknownCommand name)
  | [a] => .ok a
  | found => .error (.ambiguousCommand name (listing (found.map entry)))

end Entry

end CommandShell
