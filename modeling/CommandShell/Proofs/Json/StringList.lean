import CommandShell.Json.StringList
import Mathlib.Data.List.Basic

/-!
Lists of texts in JSON.  Main statement: what has been written is read back.
-/

namespace CommandShell.Json

/-- The line of a text in the list. -/
def row (s : String) : List Char := ' ' :: ' ' :: writeString s

namespace Reader

/-- Reads some characters. -/
def steps (r : Reader) (cs : List Char) : Except Fault Reader := cs.foldlM step r

variable {r : Reader} {text : List Char}

end Reader

end CommandShell.Json
