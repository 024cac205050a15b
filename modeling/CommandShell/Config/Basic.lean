import CommandShell.Home
import CommandShell.Terminal.Color
import CommandShell.Text.Blank
import CommandShell.Text.Case

/-!
The configuration, and the defaults for all that it sets.
-/

namespace CommandShell

open Text

structure SessionConfig where
  prompt : String := "> "
  historyLength : Nat := 20
  showSessionId : Bool := true
  /-- The file that the history is kept in; none if it is blank. -/
  historyFile : String := ""
  startInfo : List String := []
  deriving DecidableEq, Repr

structure PipelineConfig where
  linkCapacity : Nat := 10240
  /-- In milliseconds. -/
  pollInterval : Nat := 20
  nullDevice : String := "null"
  errorColor : Color := .red
  deriving DecidableEq, Repr

structure CommandsConfig where
  /-- What qualifies the names of the built-in commands. -/
  groupQualifier : String := "sys"
  disabled : List String := []
  deriving DecidableEq, Repr

structure LoggingConfig where
  level : String := "info"
  file : String := "~/.local/share/pipeshell/pipeshell.log"
  deriving DecidableEq, Repr

structure Config where
  session : SessionConfig := {}
  pipeline : PipelineConfig := {}
  commands : CommandsConfig := {}
  logging : LoggingConfig := {}
  deriving DecidableEq, Repr

/-- How much is logged. -/
inductive LogLevel where
  | off
  | error
  | warn
  | info
  | debug
  | trace
  deriving DecidableEq, Repr

namespace LogLevel

def all : List LogLevel := [off, error, warn, info, debug, trace]

def name : LogLevel → String
  | off => "OFF"
  | error => "ERROR"
  | warn => "WARN"
  | info => "INFO"
  | debug => "DEBUG"
  | trace => "TRACE"

/-- How much of the levels is logged, from nothing on. -/
def rank : LogLevel → Nat
  | off => 0
  | error => 1
  | warn => 2
  | info => 3
  | debug => 4
  | trace => 5

/-- What is of the level `l` is logged. -/
def includes (filter l : LogLevel) : Bool := l.rank ≤ filter.rank

end LogLevel

namespace LoggingConfig

/-- The level of a name in any letter case; an unknown name stands for `info`. -/
def levelFilter (c : LoggingConfig) : LogLevel :=
  (LogLevel.all.find? fun l => eqIgnoringCase l.name c.level).getD .info

/-- The log file, unless nothing is logged. -/
def logPath? (c : LoggingConfig) (home : Option String) : Option String :=
  let file := trim c.file
  if file.isEmpty || c.levelFilter == .off then none else some (expandHome home file)

end LoggingConfig

/-- The configuration turns the built-in command off. -/
def CommandsConfig.isDisabled (c : CommandsConfig) (command : String) : Bool :=
  c.disabled.any fun d => eqIgnoringCase d command

/-- What every pipeline of a session needs to know. -/
structure PipelineSettings where
  linkCapacity : Nat := 10240
  pollInterval : Nat := 20
  errorColor : Color := .red
  deriving DecidableEq, Repr

def PipelineConfig.settings (c : PipelineConfig) : PipelineSettings :=
  { linkCapacity := max c.linkCapacity 1
    pollInterval := max c.pollInterval 1
    errorColor := c.errorColor }

/-- What a session needs to know. -/
structure SessionSettings where
  prompt : String := "> "
  showSessionId : Bool := true
  startInfo : List String := []
  historyLength : Nat := 20
  historyFile : Option String := none
  nullDevice : String := "null"
  pipeline : PipelineSettings := {}
  deriving DecidableEq, Repr

def Config.sessionSettings (c : Config) (home : Option String) : SessionSettings :=
  let historyFile := trim c.session.historyFile
  { prompt := c.session.prompt
    showSessionId := c.session.showSessionId
    startInfo := c.session.startInfo
    historyLength := c.session.historyLength
    historyFile := if historyFile.isEmpty then none else some (expandHome home historyFile)
    nullDevice := c.pipeline.nullDevice
    pipeline := c.pipeline.settings }

end CommandShell
