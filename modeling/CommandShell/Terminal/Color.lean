/-!
The colours of text on a terminal.
-/

namespace CommandShell

inductive Color where
  | black
  | red
  | green
  | yellow
  | blue
  | magenta
  | cyan
  | white
  deriving DecidableEq, Repr

namespace Color

def all : List Color := [black, red, green, yellow, blue, magenta, cyan, white]

def name : Color → String
  | black => "black"
  | red => "red"
  | green => "green"
  | yellow => "yellow"
  | blue => "blue"
  | magenta => "magenta"
  | cyan => "cyan"
  | white => "white"

def ofName? (name : String) : Option Color := all.find? (·.name == name)

/-- The number that selects the colour in an escape sequence. -/
def ansiCode : Color → Nat
  | black => 30
  | red => 31
  | green => 32
  | yellow => 33
  | blue => 34
  | magenta => 35
  | cyan => 36
  | white => 37

end Color

end CommandShell
