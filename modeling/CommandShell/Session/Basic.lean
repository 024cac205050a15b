import CommandShell.Line.Expansion
import CommandShell.Pipeline

/-!
A session at a terminal, step by step: the login dialog, then lines one after another, each run as
a pipeline, until the end is asked for or the terminal is gone.
-/

namespace CommandShell

open Text Line

/-- The dialog before the first prompt. -/
structure Login where
  wantsUserName : Bool := true
  wantsPassword : Bool := true
  /-- Whether what was entered is right; what was not asked for is none. -/
  admits : (userName password : Option String) → Bool

/-- What a session asks for on its terminal. -/
inductive Question where
  | userName
  | password (userName : Option String)
  /-- The next line.  The history is as it was when the prompt was written. -/
  | line (history : History) (cursor : Cursor)

/-- Where a session stands. -/
inductive Phase where
  | start
  | ask (question : Question) (initial : String)
  | await (question : Question)
  | admitted
  | prompt
  | running (pipeline : Pipeline) (chain : Chain)
  | closing
  | saving
  | ended

/-- A session.  While a pipeline runs, the world is with its chain. -/
structure Session where
  id : Nat
  settings : SessionSettings
  registry : Registry
  login : Option Login := none
  phase : Phase := .start
  world : World

namespace Session

/-- What surrounds the session now. -/
def current (s : Session) : World :=
  match s.phase with
  | .running _ chain => chain.world
  | _ => s.world

/-- Changes what surrounds the session. -/
def mapWorld (s : Session) (change : World → World) : Session :=
  match s.phase with
  | .running pipeline chain =>
    { s with phase := .running pipeline (chain.withWorld (change chain.world)) }
  | _ => { s with world := change s.world }

/-- Asks the session to end.  A hard end also cancels what runs in it. -/
def terminate (s : Session) (hard : Bool) : Session := s.mapWorld (·.endSession s.id hard)

def state (s : Session) : SessionState := (s.current.control?.map (·.state)).getD .ended

def isEnded (s : Session) : Bool :=
  match s.phase with
  | .ended => true
  | _ => false

/-- The session has been started and has not ended. -/
def isRunning (s : Session) : Bool :=
  match s.phase with
  | .start | .ended => false
  | _ => true

def history (s : Session) : History := (s.current.control?.map (·.history)).getD {}

/-- Types replies ahead. -/
def feed (s : Session) (replies : List LineReply) : Session :=
  s.mapWorld fun w => { w with terminal := { w.terminal with replies := w.terminal.replies ++ replies } }

def goto (s : Session) (phase : Phase) : Session := { s with phase }

def setting (s : Session) : Setting := ⟨s.registry, s.settings.pipeline⟩

/-- Writes on the terminal; a terminal that fails is left as it is. -/
def write (s : Session) (text : String) : Session :=
  { s with world := { s.world with terminal := (s.world.terminal.write text).2 } }

def writeLine (s : Session) (text : String) : Session :=
  { s with world := { s.world with terminal := (s.world.terminal.writeLine text).2 } }

def writeLines (s : Session) (lines : List String) : Session := lines.foldl writeLine s

/-- Changes what others see of the session. -/
def updateControl (s : Session) (change : SessionControl → SessionControl) : Session :=
  { s with world := s.world.updateControl change }

/-- Decides on a login. -/
def judge (s : Session) (login : Login) (userName password : Option String) : Session :=
  if login.admits userName password then (s.writeLine "").goto .admitted
  else (s.writeLine "User authentication failed!").goto .closing

/-- Asks for the password if the login wants it. -/
def askPassword (s : Session) (login : Login) (userName : Option String) : Session :=
  if login.wantsPassword then (s.write "Password: ").goto (.ask (.password userName) "")
  else s.judge login userName none

/-- Begins the login dialog. -/
def beginLogin (s : Session) : Session :=
  match s.login with
  | none => s.goto .admitted
  | some login =>
    if login.wantsUserName then (s.write "User name: ").goto (.ask .userName "")
    else s.askPassword login none

/-- Starts the session: it is listed, and shows its number. -/
def begin (s : Session) : Session :=
  let listed := { s with world := { s.world with directory := s.world.directory.list s.id } }
  let started := listed.updateControl (·.advance .notStarted .login)
  (if s.settings.showSessionId then started.writeLines [s!"Session ID: {s.id}", ""] else started).beginLogin

/-- Goes from the login to the first prompt, unless the end has been asked for. -/
def welcome (s : Session) : Session :=
  if s.state = .login then
    let info := s.settings.startInfo
    let running := s.updateControl (·.advance .login .running)
    (running.writeLines (if info.isEmpty then [] else info ++ [""])).goto .prompt
  else s.goto .closing

/-- Asks for the next line, unless the end has been asked for. -/
def askLine (s : Session) : Session :=
  if s.state = .running then
    (s.write s.settings.prompt).goto (.ask (.line s.history (.new s.history)) "")
  else s.goto .closing

/-- Remembers a line and makes its pipeline ready to run. -/
def launch (s : Session) (line : String) : Session :=
  let s := s.updateControl fun c => { c with history := c.history.record line }
  let expanded := expandVariables s.world.environment.get? line
  let (_, pipeline, world) := Pipeline.ofLine expanded s.settings.nullDevice s.setting s.world
  s.goto (.running pipeline (pipeline.start { world with interrupt := some pipeline.token }))

/-- Takes an entered line.  A blank one is ignored. -/
def enter (s : Session) (raw : String) : Session :=
  let line := trim raw
  if line.isEmpty then s.goto .prompt else s.launch line

/-- Goes on after a reply to a question. -/
def answer (s : Session) : Question → LineReply → Session
  | .userName, .line name =>
    match s.login with
    | some login => s.askPassword login (some name)
    | none => s.goto .admitted
  | .password userName, .line password =>
    match s.login with
    | some login => (s.writeLine "").judge login userName (some password)
    | none => s.goto .admitted
  | .line _ _, .line text => s.enter text
  | .line history cursor, .recall key =>
    let cursor := cursor.step history key
    s.goto (.ask (.line history cursor) (cursor.line history))
  | question, .recall _ => s.goto (.ask question "")
  | _, .failed | _, .closed => s.goto .closing

/-- Asks the terminal for a line. -/
def ask (s : Session) (question : Question) (initial : String) : Session :=
  { s with
    phase := .await question
    world := { s.world with terminal := s.world.terminal.record (.read initial) } }

/-- Looks for the reply to a question; none as long as there is none. -/
def await (s : Session) (question : Question) : Option Session :=
  match s.world.terminal.readLine s.world.isEndingHard with
  | (none, _) => none
  | (some reply, terminal) =>
    some ({ s with world := { s.world with terminal } }.answer question reply)

/-- The report on a finished pipeline, and the session after it. -/
def conclude (s : Session) (pipeline : Pipeline) (chain : Chain) : Report × Session :=
  let (report, world) := pipeline.drain chain
  (report, { s with phase := .prompt, world := { world with interrupt := none } })

/-- Keeps the history in its file; one that cannot be written is given up. -/
def save (s : Session) : Session :=
  match s.settings.historyFile with
  | none => s
  | some path =>
    match s.history.save s.world.files path with
    | .ok files => { s with world := { s.world with files } }
    | .error _ => s

/-- One step; none if the session has ended or waits for a line. -/
def step (s : Session) : Option Session :=
  match s.phase with
  | .start => some s.begin
  | .ask question initial => some (s.ask question initial)
  | .await question => s.await question
  | .admitted => some s.welcome
  | .prompt => some s.askLine
  | .running pipeline chain =>
    match chain.advance with
    | some chain => some (s.goto (.running pipeline chain))
    | none => some (s.conclude pipeline chain).2
  | .closing => some ((s.updateControl fun c => { c with state := .ending }).goto .saving)
  | .saving => some ((s.save.updateControl fun c => { c with state := .ended }).goto .ended)
  | .ended => none

/-- Steps on as long as possible. -/
def run : (fuel : Nat) → Session → Session
  | 0, s => s
  | fuel + 1, s =>
    match s.step with
    | some s => s.run fuel
    | none => s

/-- Runs one line as if it had been entered at the prompt. -/
def processLine (fuel : Nat) (s : Session) (raw : String) : Report × Session :=
  let line := trim raw
  if line.isEmpty then ({}, s)
  else
    match (s.launch line).phase with
    | .running pipeline chain =>
      let (report, after) := s.conclude pipeline (chain.run fuel)
      (report, { after with phase := s.phase })
    | _ => ({}, s)

end Session

end CommandShell
