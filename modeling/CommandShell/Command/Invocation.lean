import CommandShell.Command.Registry
import CommandShell.Line.Group

/-!
The stages of a line with their commands and bound arguments.
-/

namespace CommandShell

open Line

/-- What a stage runs. -/
inductive Stage where
  | command (registered : Registered) (binding : Binding)
  /-- A line that could not be understood is run as a stage that fails. -/
  | failed (error : ShellError)

/-- A stage that is ready to run. -/
structure Invocation where
  stage : Stage
  /-- The command's name as typed. -/
  name : String := ""
  rawText : String := ""
  position : Nat := 0
  tokens : List Token := []

namespace Invocation

/-- A stage that only fails. -/
def failed (error : ShellError) : Invocation := { stage := .failed error }

/-- The name that is put before the stage's errors. -/
def displayName (i : Invocation) : Option String :=
  match i.stage with
  | .command _ _ => some i.name
  | .failed _ => none

/-- The first token of a segment, which has to be a plain word. -/
def head (s : Segment) : Except ShellError Token :=
  match s.tokens with
  | t :: _ => if t.kind = .value then .ok t else .error (.parse (.missingCommand s.position))
  | [] => .error (.parse (.missingCommand s.position))

/-- Binds the arguments of a segment whose command is known. -/
def bindTo (s : Segment) (name : String) (r : Registered) : Except ShellError Invocation :=
  match splitArguments s.tokens with
  | .error e => .error (.parse e)
  | .ok raw =>
    match bind r.signature raw with
    | .error e => .error (.bind name e)
    | .ok binding =>
      .ok {
        stage := .command r binding
        name
        rawText := s.text
        position := s.position
        tokens := s.tokens }

/-- Looks up a segment's command and binds its arguments. -/
def ofSegment (registry : Registry) (s : Segment) : Except ShellError Invocation :=
  match head s with
  | .error e => .error e
  | .ok first =>
    match registry.resolve first.text with
    | .error e => .error e
    | .ok r => bindTo s first.text r

/-- The invocations of segments, or the first fault among them. -/
def ofSegments (registry : Registry) : List Segment → Except ShellError (List Invocation)
  | [] => .ok []
  | s :: ss =>
    match ofSegment registry s with
    | .error e => .error e
    | .ok i => (ofSegments registry ss).map (i :: ·)

/-- The invocations of a line, which has at least one stage. -/
def ofLine (registry : Registry) (line : CommandLine) : Except ShellError (List Invocation) :=
  if line.segments.isEmpty then .error (.parse .noCommands) else ofSegments registry line.segments

/-- What the stage's command is called with. -/
def call (i : Invocation) : Call :=
  match i.stage with
  | .failed _ => {}
  | .command r binding =>
    { schema := binding.schema r.signature
      arguments := binding.arguments
      options := binding.options
      rawText := i.rawText }

/-- The body that the stage runs. -/
def body (i : Invocation) (context : Context) : Body :=
  match i.stage with
  | .failed error => .failing (.setup error)
  | .command r _ => r.command.body context i.call

/-- What the stage makes of an earlier stage's failure; a failed stage is passed over. -/
def relay (i : Invocation) (context : Context) (e : StageError) : Option StageError :=
  match i.stage with
  | .failed _ => some e
  | .command r _ => r.command.relayError context e

end Invocation

end CommandShell
