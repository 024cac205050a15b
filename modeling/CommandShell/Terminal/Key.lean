/-!
Key presses.
-/

namespace CommandShell

/-- A key press; Enter is a line feed or a carriage return. -/
inductive Key where
  | char (c : Char)
  | up
  | down
  | left
  | right
  | home
  | finish
  deriving DecidableEq, Repr

namespace Key

/-- The name on a key; that of a character is the character. -/
def name : Key → String
  | char c => c.toString
  | up => "Up"
  | down => "Down"
  | left => "Left"
  | right => "Right"
  | home => "Home"
  | finish => "End"

def ofName? (name : String) : Option Key :=
  match [up, down, left, right, home, finish].find? (·.name == name), name.toList with
  | some key, _ => some key
  | none, [c] => some (char c)
  | none, _ => none

end Key

end CommandShell
