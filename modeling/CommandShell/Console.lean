import CommandShell.Config.Overlay
import CommandShell.Host

/-!
The shell as a program of the command line: what its arguments ask for, which files it may touch,
and what it shows and leaves behind.
-/

namespace CommandShell

open Text Line

/-- What the arguments ask for. -/
inductive Order where
  | session
  | line (text : String)
  | dumpConfig
  | help
  | missingLine
  | unknown (argument : String)
  deriving DecidableEq, Repr

def Order.ofArguments : List String → Order
  | [] => .session
  | "--dump-config" :: _ => .dumpConfig
  | ["-c"] => .missingLine
  | "-c" :: text :: _ => .line text
  | "-h" :: _ | "--help" :: _ => .help
  | argument :: _ => .unknown argument

/-- What the program starts with. -/
structure Startup where
  arguments : List String
  environment : List (String × String)
  home : Option String
  files : FileSystem
  /-- The lines of its input. -/
  lines : List String := []

/-- What the program shows and leaves behind. -/
structure Outcome where
  output : String := ""
  errors : String := ""
  code : Nat := 0
  files : FileSystem

namespace Console

def usage : String := "usage: pipeshell [-c <line>] [--dump-config]\n"

/-- The console as a terminal on which some lines have been typed. -/
def terminal (lines : List String) (closed : Bool) : Terminal :=
  { kind := "console"
    lineTermination := "\n"
    keys := .lines
    replies := lines.map .line
    closed }

/-- What an event puts on the console, which marks colours by escape sequences. -/
def eventText : TerminalEvent → String
  | .write text => text
  | .clear => "\x1b[2J\x1b[H"
  | .color (some color) => s!"\x1b[{color.ansiCode}m"
  | .color none => "\x1b[0m"
  | .read initial => if initial.isEmpty then "" else s!"[{initial}] "
  | .beginOutput | .endOutput => ""

/-- All that a session has put on the console. -/
def shown (s : Session) : String :=
  String.join (s.current.terminal.events.reverse.map eventText)

def config (s : Startup) : Config := Config.load (Config.userText? s.files s.home)

/-- The first line of the log. -/
def logLine (builtins : Nat) : String := s!"[INFO] host ready with {builtins} built-in command(s)\n"

/-- Opens the log file and notes the start; a file that cannot be written is given up. -/
def startLog (c : Config) (s : Startup) : FileSystem :=
  match c.logging.logPath? s.home with
  | none => s.files
  | some path =>
    let files := match FileSystem.parent? path with
      | some folder => (s.files.makeFolders folder).toOption.getD s.files
      | none => s.files
    match files.openFile path true with
    | .error _ => files
    | .ok (file, files) =>
      if c.logging.levelFilter.includes .info then
        let (file, files) := file.writeText files (logLine (Builtin.enabled c.commands).length)
        (file.flush files).2
      else files

/-- A host with one session on the console. -/
def openHost (s : Startup) (closed : Bool) : Except ShellError Host :=
  let c := config s
  let shared : Shared :=
    { files := startLog c s, home := s.home, environment := .ofList s.environment }
  (Host.new c shared).map fun h => h.openSession (terminal s.lines closed)

/-- The number of the only session. -/
def sessionId : Nat := 1

/-- What is left when the session has done its work. -/
def outcome (h : Host) (code : Nat) : Outcome :=
  { output := ((h.session? sessionId).map shown).getD "", code, files := h.shared.files }

/-- What is shown when no host can be made. -/
def startFault (e : ShellError) : String := s!"pipeshell: {e.message}\n"

/-- The variables in a block of `NAME=value` entries, each ended by a NUL character. -/
def variablesOf (block : String) : List (String × String) :=
  (pieces (· == '\x00') block.toList).filterMap fun entry =>
    match entry.dropWhile (· != '=') with
    | [] => none
    | _ :: value => some (String.ofList (entry.takeWhile (· != '=')), String.ofList value)

/-- The paths of the files that a configuration names: the history and the log. -/
def pathsNamed (c : Config) (home : Option String) : List String :=
  (c.sessionSettings home).historyFile.toList ++ (c.logging.logPath? home).toList

/-- The paths that an entered line may lead to: those of its redirects, and its words, any of which
a command may take for a path. -/
def pathsIn (s : Session) (raw : String) : List String :=
  let line := expandVariables s.current.environment.get? (trim raw)
  match parse line s.settings.nullDevice with
  | .error _ => []
  | .ok parsed =>
    let words := parsed.segments.flatMap fun segment => segment.tokens.map (·.text)
    let targets := parsed.redirects.filterMap fun redirect =>
      match redirect.endpoint with
      | .path path => some path
      | _ => none
    (words ++ targets).map (expandHome s.current.home)

/-- A stage pauses until something is typed. -/
def wantsInput (c : Chain) : Bool :=
  c.workers.any fun w =>
    decide (c.now < w.wake) &&
      match w.control with
      | .reading _ _ | .typing _ _ => true
      | _ => false

/-- Runs the program; `fuel` bounds the steps of its session. -/
def run (fuel : Nat) (s : Startup) : Outcome :=
  let withHost (work : Host → Outcome) : Outcome :=
    match openHost s true with
    | .error e => { errors := startFault e, code := 1, files := startLog (config s) s }
    | .ok h => work h
  match Order.ofArguments s.arguments with
  | .dumpConfig => { output := (config s).toToml, files := s.files }
  | .help => { errors := usage, files := s.files }
  | .missingLine => { errors := usage, code := 2, files := s.files }
  | .unknown argument =>
    { errors := s!"pipeshell: unknown argument '{argument}'\n" ++ usage, code := 2, files := s.files }
  | .line text =>
    withHost fun h =>
      let (report, h) := h.processLine fuel sessionId text
      outcome h (if report.succeeded then 0 else 1)
  | .session => withHost fun h => outcome (h.runSession fuel sessionId) 0

end Console

end CommandShell
