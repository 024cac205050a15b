/-!
What a command does to its output.
-/

namespace CommandShell

inductive OutputAction where
  | write (text : String)
  | writeLine (text : String)
  | newLine
  | clearScreen
  deriving DecidableEq, Repr

namespace OutputAction

/-- The characters that a link carries for the action.  A link cannot clear anything; the next
stage sees a line break instead. -/
def linkText : OutputAction → String
  | write text => text
  | writeLine text => text ++ "\n"
  | newLine | clearScreen => "\n"

/-- The characters that the action adds to error text, which is not shown in place and so cannot
be cleared. -/
def errorText : OutputAction → String
  | write text => text
  | writeLine text => text ++ "\n"
  | newLine => "\n"
  | clearScreen => ""

end OutputAction

end CommandShell
