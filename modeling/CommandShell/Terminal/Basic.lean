import CommandShell.Files.Fault
import CommandShell.Terminal.Color
import CommandShell.Terminal.Key

/-!
Terminals: what is typed at one, and what has been shown on it.
-/

namespace CommandShell

/-- Something that happened on a terminal. -/
inductive TerminalEvent where
  | write (text : String)
  | clear
  | color (color : Option Color)
  | beginOutput
  | endOutput
  /-- A line was asked for, with this text to edit. -/
  | read (initial : String)
  deriving DecidableEq, Repr

/-- What the person at the terminal answers when a line is asked for. -/
inductive LineReply where
  | line (text : String)
  /-- Up or Down; the line under way is dropped. -/
  | recall (key : Key)
  | failed
  | closed
  deriving DecidableEq, Repr

/-- Keys that arrive together; `none` is a read that fails. -/
abbrev KeyBatch := Option (List Key)

/-- Where keys come from while a pipeline runs. -/
inductive KeySource where
  /-- A batch at every look. -/
  | batches (rest : List KeyBatch)
  /-- A batch for each time that the prompt has been written. -/
  | answers (prompt : String) (due : Nat) (rest : List KeyBatch)
  /-- Whole lines only: all that have been entered by then. -/
  | lines
  deriving DecidableEq, Repr

/-- The operations of a terminal that fail. -/
structure TerminalFaults where
  write : Bool := false
  clear : Bool := false
  color : Bool := false
  keys : Bool := false
  deriving DecidableEq, Repr

/-- A terminal: its kind, what will be typed, and what has happened, the latest first. -/
structure Terminal where
  kind : String := "dumb"
  lineTermination : String := "\r\n"
  encoding : String := "utf-8"
  width : Option Nat := none
  height : Option Nat := none
  faults : TerminalFaults := {}
  keys : KeySource := .batches []
  /-- A look for keys when none are left asks for the pipeline to be cancelled. -/
  interruptWhenEmpty : Bool := false
  replies : List LineReply := []
  /-- Whether no more replies can come. -/
  closed : Bool := false
  events : List TerminalEvent := []
  deriving DecidableEq, Repr

namespace Terminal

def fault (operation : String) : IoFault := .device ("terminal " ++ operation ++ " failed")

/-- Adds an event.  Text joins the text before it. -/
def record (t : Terminal) (event : TerminalEvent) : Terminal :=
  match event, t.events with
  | .write text, .write before :: rest => { t with events := .write (before ++ text) :: rest }
  | event, events => { t with events := event :: events }

/-- Writes text as it is. -/
def write (t : Terminal) (text : String) : Except IoFault Unit × Terminal :=
  if t.faults.write then (.error (fault "write"), t)
  else
    let keys := match t.keys with
      | .answers prompt due rest => .answers prompt (if text = prompt then due + 1 else due) rest
      | keys => keys
    (.ok (), { t with keys }.record (.write text))

def writeLine (t : Terminal) (text : String) : Except IoFault Unit × Terminal :=
  t.write (text ++ t.lineTermination)

def clearScreen (t : Terminal) : Except IoFault Unit × Terminal :=
  if t.faults.clear then (.error (fault "clear"), t) else (.ok (), t.record .clear)

/-- Chooses the colour of what is written next; none is the usual one. -/
def setColor (t : Terminal) (color : Option Color) : Except IoFault Unit × Terminal :=
  if t.faults.color then (.error (fault "color"), t) else (.ok (), t.record (.color color))

def beginOutput (t : Terminal) : Terminal := t.record .beginOutput
def endOutput (t : Terminal) : Terminal := t.record .endOutput

/-- What a look for keys gives. -/
structure KeyRead where
  /-- No keys where the read fails. -/
  keys : KeyBatch
  interrupted : Bool := false
  terminal : Terminal

/-- The keys of an entered line. -/
def keysOfLine (line : String) : List Key := line.toList.map .char ++ [.char '\n']

/-- The keys that have arrived since the last look. -/
def readKeys (t : Terminal) : KeyRead :=
  if t.faults.keys then ⟨none, false, t⟩
  else
    match t.keys with
    | .batches [] => ⟨some [], t.interruptWhenEmpty, t⟩
    | .batches (batch :: rest) => ⟨batch, false, { t with keys := .batches rest }⟩
    | .answers _ 0 _ => ⟨some [], false, t⟩
    | .answers prompt (due + 1) [] =>
      ⟨some [], t.interruptWhenEmpty, { t with keys := .answers prompt due [] }⟩
    | .answers prompt (due + 1) (batch :: rest) =>
      ⟨batch, false, { t with keys := .answers prompt due rest }⟩
    | .lines =>
      let keys := t.replies.flatMap fun
        | .line text => keysOfLine text
        | _ => []
      ⟨some keys, false, { t with replies := [] }⟩

/-- Asks for a line: the reply, or none as long as there is no reply to be had. -/
def readLine (t : Terminal) (cancelled : Bool) : Option LineReply × Terminal :=
  match t.replies with
  | reply :: rest => (some reply, { t with replies := rest })
  | [] => (if cancelled || t.closed then some .closed else none, t)

/-- The size of the window, width first. -/
def window (t : Terminal) : Option Nat × Option Nat := (t.width, t.height)

end Terminal

end CommandShell
