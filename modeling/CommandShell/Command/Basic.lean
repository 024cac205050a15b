import CommandShell.Command.Entry
import CommandShell.Command.Request

/-!
Commands, and what they are told when they are called.
-/

namespace CommandShell

open Line

/-- What a command knows about its place in the pipeline. -/
structure Context where
  session : Nat := 0
  /-- The command's name as typed. -/
  name : String := ""
  rawText : String := ""
  tokens : List Token := []
  /-- The place among the stages, counted from 0. -/
  index : Nat := 0
  stageCount : Nat := 1
  inputPiped : Bool := true
  outputPiped : Bool := true
  /-- The window that output goes to. -/
  window : Option Nat × Option Nat := (none, none)
  errorWindow : Option Nat × Option Nat := (none, none)
  /-- All registered commands. -/
  commands : List Entry := []

namespace Context

def isFirst (c : Context) : Bool := c.index == 0

def isLast (c : Context) : Bool := c.index + 1 == c.stageCount

end Context

/-- The arguments of a call, with the schema that bound them. -/
structure Call where
  schema : Schema := .root
  arguments : ValueSet := {}
  options : ValueSet := {}
  rawText : String := ""

namespace Call

/-- The subcommand that was called. -/
def subcommand (c : Call) : Option String := c.schema.label

def argument? (c : Call) (name : String) : Option String := c.arguments.text? name

def option? (c : Call) (name : String) : Option String := c.options.text? name

/-- The option is given. -/
def isSet (c : Call) (name : String) : Bool := c.options.contains name

end Call

/-- A command.  `relayError` decides what is shown of a failure of an earlier stage. -/
structure Command where
  name : String
  description : String
  signature : Signature := {}
  body : Context → Call → Body
  relayError : Context → StageError → Option StageError := fun _ e => some e

end CommandShell
