import CommandShell.Builtin.Signatures
import CommandShell.Command.Basic

/-!
Commands on the session, its variables and its screen: `cls`, `env`, `exit`, `help`, `history`,
`session`, `sleep`, `throw`.
-/

namespace CommandShell.Builtin

open Text

def cls : Command where
  name := "cls"
  description := "Clear the screen."
  body _ _ := .answering (.output .clearScreen (some {}))

def exit : Command where
  name := "exit"
  description := "End the session."
  signature := .plain [] []
    [.flag "hard" "Cancel whatever is still running instead of finishing the line."]
  body _ call := .answering (.endSession (call.isSet "hard") (some {}))

def throw : Command where
  name := "throw"
  description := "Fail with the given message."
  signature := .plain [.ofText "message" "Error message."] [] []
  body _ call := .failing (.message ((call.argument? "message").getD ""))

/-- The numbers of milliseconds that can be waited for. -/
def durationType : NumberType := ⟨false, 64⟩

def sleep : Command where
  name := "sleep"
  description := "Wait for the given number of milliseconds."
  signature := .plain
    [⟨"milliseconds", "How long to wait.", Converter.number durationType⟩] [] []
  body _ call :=
    let time := ((call.arguments.number? durationType "milliseconds").getD 0).toNat
    .answering <| .sleep time fun undisturbed =>
      some { result := if undisturbed then .ok () else .error .cancelled }

def help : Command where
  name := "help"
  description := "List commands, or describe one."
  signature := .plain [] [.ofText "command" "Command to describe."] []
  body context call :=
    match call.argument? "command" with
    | none => .writingLines ["Commands:\n" ++ Entry.listing context.commands]
    | some name =>
      match Entry.select id context.commands name with
      | .error e => .failing (.setup e)
      | .ok entry => .writingLines [entry.help]

/-- Numbered lines. -/
def historyRows (lines : List String) : List String :=
  lines.zipIdx.map fun (line, i) => padLeft 4 (toString (i + 1)) ++ "  " ++ line

def history : Command where
  name := "history"
  description := "Show the lines entered in this session."
  body _ _ :=
    .answering <| .history fun lines => some { actions := (historyRows lines).map .writeLine }

/-- A row on a session; that of the session with the number `own` is marked. -/
def sessionRow (own : Nat) (s : SessionControl) : String :=
  let marker := if s.id = own then "*" else " "
  let size := match s.window with
    | (some w, some h) => s!"{w}x{h}"
    | _ => "-"
  let kind := if s.terminalKind.isEmpty then "-" else s.terminalKind
  marker ++ padLeft 4 (toString s.id) ++ "  " ++ padRight 8 s.state.name ++ "  " ++ kind ++ "  " ++ size

/-- The rows on the open sessions; outside of any list a session only knows its own number. -/
def sessionRows (own : Nat) (sessions : List SessionControl) : List String :=
  if sessions.isEmpty then [s!"Session ID: {own}"] else sessions.map (sessionRow own)

def session : Command where
  name := "session"
  description := "List open sessions."
  body context _ :=
    .answering <| .sessions fun sessions =>
      some { actions := (sessionRows context.session sessions).map .writeLine }

/-- The failure of looking for a variable that is not there. -/
def notSet (name : String) : CommandError := .message s!"Variable '{name}' is not set."

/-- What `env` does with a subcommand. -/
def envBody (call : Call) : Option String → Body
  | none => .answering <| .environment id fun env =>
      some { actions := env.snapshot.map fun v => .writeLine s!"{v.name}={v.value}" }
  | some "get" => .answering <| .environment id fun env =>
      match env.get? name with
      | some value => some { actions := [.writeLine value] }
      | none => some { result := .error (notSet name) }
  | some "set" =>
    .answering <| .environment (·.set name ((call.argument? "value").getD "")) fun _ => some {}
  | some "delete" => .answering <| .environment (·.remove name) fun env =>
      match env.get? name with
      | some _ => some {}
      | none => some { result := .error (notSet name) }
  | some other => .failing (.message s!"Unhandled subcommand '{other}'.")
where
  name : String := (call.argument? "name").getD ""

def env : Command where
  name := "env"
  description := "List, read or change session variables."
  signature :=
    { root := some .root
      subcommands := [
        { name := "get", description := "Write one variable's value.",
          required := [.ofText "name" "Variable name."] },
        { name := "set", description := "Set a variable.",
          required := [.ofText "name" "Variable name.", .ofText "value" "New value."] },
        { name := "delete", description := "Remove a variable.",
          required := [.ofText "name" "Variable name."] }] }
  body _ call := envBody call call.subcommand

end CommandShell.Builtin
