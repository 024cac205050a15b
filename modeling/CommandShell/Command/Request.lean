import CommandShell.Chain.Action
import CommandShell.Error
import CommandShell.Reading
import CommandShell.World

/-!
Command bodies as machines that ask for one thing at a time.  Bodies may run for ever, so a body is
given by its states and by what it asks for in each of them.
-/

namespace CommandShell

/-- What a body asks for next, with the state in which it goes on.  A request that fails ends the
command with its failure. -/
inductive Request (σ : Type) where
  | finish (result : Except CommandError Unit)
  | output (action : OutputAction) (next : σ)
  | errorOutput (action : OutputAction) (next : σ)
  /-- No text comes where the input has ended or the pipeline is cancelled. -/
  | read (extent : Extent) (next : Option String → σ)
  | readKey (next : Option Key → σ)
  /-- Forgets the keys typed so far. -/
  | flushKeys (next : σ)
  /-- Waits; whether the time has passed without the pipeline being cancelled. -/
  | sleep (milliseconds : Nat) (next : Bool → σ)
  | checkCancelled (next : Bool → σ)
  /-- Cancels the pipeline. -/
  | cancel (next : σ)
  | endSession (hard : Bool) (next : σ)
  | history (next : List String → σ)
  /-- The sessions of the host that have not ended. -/
  | sessions (next : List SessionControl → σ)
  /-- Changes the environment; it goes on with what the environment was before. -/
  | environment (change : Environment → Environment) (next : Environment → σ)
  /-- The text of a file. -/
  | load (path : String) (next : String → σ)
  /-- Makes the folders that a file at the path needs. -/
  | makeFoldersFor (path : String) (next : σ)
  | openFile (path : String) (append : Bool) (next : FileId → σ)
  | writeFile (file : FileId) (text : String) (next : σ)
  | flushFile (file : FileId) (next : σ)

/-- A running command. -/
structure Body where
  State : Type
  start : State
  next : State → Request State

namespace Body

/-- Output to be written, and the result after it. -/
structure Ending where
  actions : List OutputAction := []
  result : Except CommandError Unit := .ok ()

/-- What a body with an ending asks for. -/
def Ending.next (e : Ending) : Request (Option Ending) :=
  match e.actions with
  | [] => .finish e.result
  | action :: rest => .output action (some { e with actions := rest })

/-- A body that makes one request and then has an ending. -/
def answering (request : Request (Option Ending)) : Body where
  State := Option Ending
  start := none
  next
    | none => request
    | some ending => ending.next

/-- A body that fails at once. -/
def failing (error : CommandError) : Body := answering (.finish (.error error))

/-- A body that writes lines. -/
def writingLines (lines : List String) : Body where
  State := Option Ending
  start := some { actions := lines.map .writeLine }
  next
    | none => .finish (.ok ())
    | some ending => ending.next

/-- The end of a command that a cancelled pipeline has cut short. -/
def finishUnlessCancelled {σ : Type} (cancelled : Bool) : Request σ :=
  .finish (if cancelled then .error .cancelled else .ok ())

end Body

end CommandShell
