import CommandShell.Chain.Action
import CommandShell.Text.Lines
import CommandShell.World

/-!
Where the last stage's output and all error text go.
-/

namespace CommandShell

open Text

/-- A destination of text. -/
inductive Sink where
  | terminal
  | file (id : FileId)
  | null
  deriving DecidableEq, Repr

namespace Sink

def flush (s : Sink) (w : World) : World :=
  match s with
  | .file id => w.flushFile id
  | _ => w

/-- Writes error text, in colour if it goes to the terminal. -/
def writeErrors (s : Sink) (w : World) (text : String) (color : Color) : Attempt World :=
  if text.isEmpty then (.ok (), w)
  else
    match s with
    | .null => (.ok (), w)
    | .file id => (.ok (), w.writeFile id text)
    | .terminal =>
      match w.terminal.setColor (some color) with
      | (.error e, t) => (.error e, { w with terminal := t })
      | (.ok (), t) =>
        let (written, t) := t.write (withLineTermination text t.lineTermination)
        let (restored, t) := t.setColor none
        (restored.bind fun _ => written, { w with terminal := t })

end Sink

/-- The output of the last stage, and what was done to it last. -/
structure ChainOutput where
  sink : Sink
  lineTermination : String := "\n"
  window : Option Nat × Option Nat := (none, none)
  wrote : Bool := false
  lineTerminated : Bool := false
  clearedLast : Bool := false
  deriving DecidableEq, Repr

namespace ChainOutput

/-- A fresh output.  One to the terminal has the terminal's window and line breaks. -/
def new (sink : Sink) (t : Terminal) : ChainOutput :=
  match sink with
  | .terminal => { sink, lineTermination := t.lineTermination, window := t.window }
  | _ => { sink }

def isPiped (o : ChainOutput) : Bool := o.sink != .terminal

def write (o : ChainOutput) (w : World) (text : String) : Attempt (ChainOutput × World) :=
  if text.isEmpty then (.ok (), o, w)
  else
    let after := { o with wrote := true, lineTerminated := endsLine text, clearedLast := false }
    match o.sink with
    | .null => (.ok (), after, w)
    | .file id => (.ok (), after, w.writeFile id text)
    | .terminal =>
      match w.terminal.write (withLineTermination text o.lineTermination) with
      | (.error e, t) => (.error e, o, { w with terminal := t })
      | (.ok (), t) => (.ok (), after, { w with terminal := t })

def newLine (o : ChainOutput) (w : World) : Attempt (ChainOutput × World) :=
  o.write w o.lineTermination

def writeLine (o : ChainOutput) (w : World) (text : String) : Attempt (ChainOutput × World) :=
  match o.write w text with
  | (.error e, after) => (.error e, after)
  | (.ok (), o, w) => o.newLine w

/-- Clears the screen, which is all that a file or the null device ignores. -/
def clearScreen (o : ChainOutput) (w : World) : Attempt (ChainOutput × World) :=
  let after := { o with wrote := false, lineTerminated := true, clearedLast := true }
  match o.sink with
  | .terminal =>
    match w.terminal.clearScreen with
    | (.error e, t) => (.error e, o, { w with terminal := t })
    | (.ok (), t) => (.ok (), after, { w with terminal := t })
  | _ => (.ok (), after, w)

def perform (o : ChainOutput) (w : World) : OutputAction → Attempt (ChainOutput × World)
  | .write text => o.write w text
  | .writeLine text => o.writeLine w text
  | .newLine => o.newLine w
  | .clearScreen => o.clearScreen w

/-- Ends an unfinished line and flushes. -/
def endOfCommand (o : ChainOutput) (w : World) : Attempt (ChainOutput × World) :=
  if o.wrote && !o.lineTerminated then
    match o.newLine w with
    | (.error e, after) => (.error e, after)
    | (.ok (), o, w) => (.ok (), o, o.sink.flush w)
  else (.ok (), o, o.sink.flush w)

end ChainOutput

/-- Error text with its unfinished line ended. -/
def endErrorText (text : String) : String :=
  if !text.isEmpty && !endsLine text then text ++ "\n" else text

end CommandShell
