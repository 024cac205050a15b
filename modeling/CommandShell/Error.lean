import CommandShell.Files.Fault
import CommandShell.Line.Error
import CommandShell.Schema.Binding

/-!
What stops a line, and what a command fails with.
-/

namespace CommandShell

open Text Line

/-- What stops a line before it runs. -/
inductive ShellError where
  | parse (error : ParseError)
  | bind (command : String) (error : BindError)
  | unknownCommand (name : String)
  | duplicateCommand (name : String)
  | ambiguousCommand (name listing : String)
  | inputUnreadable (path : String)
  | inputUndecodable (path : String)
  | outputUnwritable (path : String) (fault : FileFault)
  deriving DecidableEq, Repr

def ShellError.message : ShellError → String
  | parse e => e.message
  | bind command e => s!"{command}: {e.message}"
  | unknownCommand name => s!"Unknown command '{name}'."
  | duplicateCommand name => s!"A command named '{name}' is already registered."
  | ambiguousCommand name listing =>
    s!"Ambiguous command '{name}' - please qualify. Possible commands:\n{listing}"
  | inputUnreadable path => s!"Could not find or read command input file '{path}'."
  | inputUndecodable path => s!"Could not decode text in command input file '{path}'."
  | outputUnwritable path fault => s!"Could not open redirect file '{path}': {fault.message}"

/-- What a running command fails with. -/
inductive CommandError where
  | message (text : String)
  | io (fault : IoFault)
  | setup (error : ShellError)
  | cancelled
  | panicked (reason : String)
  | aggregate (inner : List CommandError)
  deriving Inhabited

namespace CommandError

mutual

/-- The error as one text, which has a line for each part of an aggregate. -/
def text : CommandError → String
  | .message text => text
  | .io fault => fault.message
  | .setup e => e.message
  | .cancelled => "Command cancelled."
  | .panicked reason => "Command panicked: " ++ reason
  | .aggregate inner => joinLines (texts inner)

def texts : List CommandError → List String
  | [] => []
  | e :: es => e.text :: texts es

end

mutual

/-- A message for each error that is no aggregate. -/
def messages : CommandError → List String
  | .aggregate inner => messagesOfAll inner
  | e => [e.text]

def messagesOfAll : List CommandError → List String
  | [] => []
  | e :: es => e.messages ++ messagesOfAll es

end

/-- The failure of a command that binds arguments by itself. -/
def ofBindError (e : BindError) : CommandError := .message e.message

def isCancelled : CommandError → Bool
  | .cancelled => true
  | _ => false

/-- The lines that report an error of a command; one found before any command ran has no name in
front. -/
def render (command : Option String) (e : CommandError) : List String :=
  match command with
  | some name => if name.isEmpty then e.messages else e.messages.map fun m => s!"{name}: {m}"
  | none => e.messages

end CommandError

/-- A failure on its way to the error output. -/
structure StageError where
  command : Option String
  rawText : String
  error : CommandError

def StageError.render (e : StageError) : List String := e.error.render e.command

end CommandShell
