import CommandShell.Builtin.All
import CommandShell.Session.Basic

/-!
A host: the commands, variables and files that its sessions share, and the sessions themselves.
-/

namespace CommandShell

/-- A host.  A session knows the commands that were registered before it was opened. -/
structure Host where
  config : Config
  registry : Registry
  shared : Shared
  /-- All sessions, numbered from 1 in the order in which they were opened. -/
  sessions : List Session := []

namespace Host

/-- A host with the built-in commands that the configuration leaves on. -/
def new (config : Config) (shared : Shared) : Except ShellError Host :=
  match Builtin.register config.commands {} with
  | (.error e, _) => .error e
  | (.ok (), registry) => .ok { config, registry, shared }

def register (h : Host) (group : Group) (command : Command) : Except ShellError Host :=
  match h.registry.register group command with
  | .error e => .error e
  | .ok registry => .ok { h with registry }

/-- The history that a session starts with; a file that cannot be read is ignored. -/
def startHistory (h : Host) (settings : SessionSettings) : History :=
  let loaded := settings.historyFile.bind fun path =>
    (History.load h.shared.files path settings.historyLength).toOption
  loaded.getD (.new settings.historyLength)

/-- Opens a session on a terminal. -/
def openSession (h : Host) (terminal : Terminal) (login : Option Login := none) : Host :=
  let settings := h.config.sessionSettings h.shared.home
  let (token, tokens) := h.shared.tokens.new
  let id := h.sessions.length + 1
  let control : SessionControl :=
    { id, token
      history := h.startHistory settings
      terminalKind := terminal.kind
      window := terminal.window }
  let shared := { h.shared with tokens, directory := h.shared.directory.add control }
  let session : Session :=
    { id, settings, login
      registry := h.registry
      world := { toShared := shared, terminal, session := id } }
  { h with shared, sessions := h.sessions ++ [session] }

def session? (h : Host) (id : Nat) : Option Session := h.sessions.find? (·.id == id)

/-- Replaces a session, whose view of what is shared becomes that of all. -/
def put (h : Host) (s : Session) : Host :=
  let shared := s.current.toShared
  { h with
    shared
    sessions := h.sessions.map fun other =>
      (if other.id = s.id then s else other).mapWorld fun w => { w with toShared := shared } }

/-- Changes what all sessions share. -/
def updateShared (h : Host) (change : Shared → Shared) : Host :=
  let shared := change h.shared
  { h with
    shared
    sessions := h.sessions.map fun s => s.mapWorld fun w => { w with toShared := shared } }

/-- Changes a session. -/
def update (h : Host) (id : Nat) (change : Session → Session) : Host :=
  match h.session? id with
  | none => h
  | some s => h.put (change s)

/-- Lets a session that has been started go on until it ends or waits for a line. -/
def continueSession (fuel : Nat) (h : Host) (id : Nat) : Host :=
  h.update id fun s => if s.isRunning then s.run fuel else s

/-- Starts a session. -/
def runSession (fuel : Nat) (h : Host) (id : Nat) : Host := h.update id (·.run fuel)

/-- Runs a line in a session as if it had been entered there. -/
def processLine (fuel : Nat) (h : Host) (id : Nat) (line : String) : Report × Host :=
  match h.session? id with
  | none => ({}, h)
  | some s =>
    let (report, s) := s.processLine fuel line
    (report, h.put s)

/-- Asks a session to end. -/
def terminate (h : Host) (id : Nat) (hard : Bool) : Host := h.update id (·.terminate hard)

/-- Asks a session of the list to end; whether it was still open. -/
def terminateListed (h : Host) (id : Nat) (hard : Bool) : Bool × Host :=
  if h.shared.directory.isLive id then (true, h.terminate id hard) else (false, h)

end Host

end CommandShell
