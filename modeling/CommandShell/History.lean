import CommandShell.Files.FileSystem
import CommandShell.Json.StringList
import CommandShell.Terminal.Key
import CommandShell.Text.Blank

/-!
The lines entered in a session, and the walk through them.
-/

namespace CommandShell

open Text

/-- How many lines are remembered unless told otherwise. -/
def History.defaultLimit : Nat := 20

/-- At most `limit` different lines, the latest last. -/
structure History where
  entries : List String := []
  limit : Nat := History.defaultLimit
  deriving DecidableEq, Repr

namespace History

def new (limit : Nat) : History := { limit }

/-- Remembers a trimmed line.  A blank one is ignored, and one that is there already moves to the
end. -/
def record (h : History) (line : String) : History :=
  let line := trim line
  if line.isEmpty || h.limit == 0 then h
  else
    let others := h.entries.erase line
    { h with entries := others.drop (others.length + 1 - h.limit) ++ [line] }

/-- Remembers lines one after another. -/
def recordAll (h : History) (lines : List String) : History := lines.foldl record h

end History

/-- The place in a history that Up and Down move; at its length no line is shown. -/
structure Cursor where
  index : Nat
  deriving DecidableEq, Repr

namespace Cursor

def new (h : History) : Cursor := ⟨h.entries.length⟩

/-- Moves by a key.  Nothing moves in an empty history. -/
def step (c : Cursor) (h : History) (key : Key) : Cursor :=
  if h.entries.isEmpty then c
  else
    match key with
    | .up => ⟨c.index - 1⟩
    | .down => if c.index < h.entries.length then ⟨c.index + 1⟩ else c
    | _ => c

/-- The line to edit at the cursor. -/
def line (c : Cursor) (h : History) : String := (h.entries[c.index]?).getD ""

end Cursor

/-- Why a history file cannot be loaded or saved. -/
inductive HistoryFault where
  | file (fault : FileFault)
  | format (fault : Json.Fault)
  deriving DecidableEq, Repr

namespace History

/-- Reads the history kept in a file; a missing file holds none. -/
def load (fs : FileSystem) (path : String) (limit : Nat) : Except HistoryFault History :=
  match fs.read path with
  | .error .notFound => .ok (new limit)
  | .error fault => .error (.file fault)
  | .ok bytes =>
    match String.fromUTF8? ⟨bytes.toArray⟩ with
    | none => .error (.format .invalid)
    | some text =>
      match Json.readStrings text with
      | .error fault => .error (.format fault)
      | .ok lines => .ok ((new limit).recordAll lines)

/-- Writes the history to a file, making the folders that it needs. -/
def save (h : History) (fs : FileSystem) (path : String) : Except FileFault FileSystem :=
  let text := Json.writeStrings h.entries
  match FileSystem.parent? path with
  | none => fs.write path text.toUTF8.data.toList
  | some folder =>
    (fs.makeFolders folder).bind fun fs => fs.write path text.toUTF8.data.toList

end History

end CommandShell
