import CommandShell.Cancellation
import CommandShell.History

/-!
The state of sessions as others see it, and the list of those that a host has.
-/

namespace CommandShell

/-- The stages of a session's life, in order. -/
inductive SessionState where
  | notStarted
  | login
  | running
  | ending
  | ended
  deriving DecidableEq, Repr

def SessionState.name : SessionState → String
  | .notStarted => "not started"
  | .login => "login"
  | .running => "running"
  | .ending => "ending"
  | .ended => "ended"

/-- What others may see and change of a session. -/
structure SessionControl where
  id : Nat
  state : SessionState := .notStarted
  /-- Cancelled when the session ends hard. -/
  token : TokenId
  history : History := {}
  terminalKind : String := ""
  window : Option Nat × Option Nat := (none, none)
  deriving DecidableEq, Repr

namespace SessionControl

/-- The end has been asked for or has come. -/
def endRequested (c : SessionControl) : Bool := c.state == .ending || c.state == .ended

def isEnded (c : SessionControl) : Bool := c.state == .ended

/-- Moves from one state to another, unless the session is in some third one. -/
def advance (c : SessionControl) (before after : SessionState) : SessionControl :=
  if c.state = before then { c with state := after } else c

/-- Asks for the end. -/
def requestEnd (c : SessionControl) : SessionControl :=
  if c.isEnded then c else { c with state := .ending }

end SessionControl

/-- All sessions, and the numbers of those that have been started, in that order. -/
structure Directory where
  controls : List SessionControl := []
  listed : List Nat := []
  deriving DecidableEq, Repr

namespace Directory

def get? (d : Directory) (id : Nat) : Option SessionControl := d.controls.find? (·.id == id)

def update (d : Directory) (id : Nat) (change : SessionControl → SessionControl) : Directory :=
  { d with controls := d.controls.map fun c => if c.id = id then change c else c }

def isEnded (d : Directory) (id : Nat) : Bool :=
  match d.get? id with
  | some c => c.isEnded
  | none => true

/-- A new session that is not listed. -/
def add (d : Directory) (c : SessionControl) : Directory := { d with controls := d.controls ++ [c] }

/-- Lists a session, and those that have ended no more. -/
def list (d : Directory) (id : Nat) : Directory :=
  { d with listed := d.listed.filter (!d.isEnded ·) ++ [id] }

/-- The listed sessions that have not ended, by number. -/
def live (d : Directory) : List SessionControl :=
  ((d.listed.filterMap d.get?).filter (!·.isEnded)).mergeSort fun a b => a.id ≤ b.id

/-- The session is listed and has not ended. -/
def isLive (d : Directory) (id : Nat) : Bool := d.listed.contains id && !d.isEnded id

end Directory

end CommandShell
