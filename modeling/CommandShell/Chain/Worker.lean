import CommandShell.Chain.Output
import CommandShell.Command.Invocation

/-!
A stage of a running chain: its body and where the body stands.
-/

namespace CommandShell

/-- Where a body stands, with the state in which it goes on. -/
inductive Control (σ : Type) where
  | ready (s : σ)
  /-- Characters are still to be written to the next stage. -/
  | writing (rest : List Char) (next : σ)
  | reading (r : Reading) (next : Option String → σ)
  /-- A key is wanted; `waited` once there was none. -/
  | typing (waited : Bool) (next : Option Key → σ)
  | sleeping (next : Bool → σ)
  | finished

/-- A stage that runs. -/
structure Worker where
  context : Context
  invocation : Invocation
  body : Body
  control : Control body.State
  /-- When a pause is over. -/
  wake : Nat := 0
  /-- The error text so far, which is shown after the pipeline. -/
  errorText : String := ""
  /-- The files that the command has opened. -/
  files : List FileId := []

namespace Worker

def start (context : Context) (invocation : Invocation) : Worker :=
  let body := invocation.body context
  { context, invocation, body, control := .ready body.start }

def isFinished (w : Worker) : Bool :=
  match w.control with
  | .finished => true
  | _ => false

/-- Goes on in a state of the body. -/
def resume (w : Worker) (s : w.body.State) : Worker := { w with control := .ready s }

def finish (w : Worker) : Worker :=
  { w with control := .finished, errorText := endErrorText w.errorText, files := [] }

/-- The failure of the stage as it starts its way through the later stages. -/
def stageError (w : Worker) (e : CommandError) : StageError :=
  ⟨w.invocation.displayName, w.context.rawText, e⟩

/-- What the stage makes of an earlier stage's failure. -/
def relay (w : Worker) (e : StageError) : Option StageError := w.invocation.relay w.context e

end Worker

end CommandShell
