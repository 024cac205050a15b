import CommandShell.Builtin.Copying
import CommandShell.Text.Quoted

/-!
Small commands for trying pipelines out: each does one thing that a command can do.
-/

namespace CommandShell.Sample

open Text

/-- The description of commands that only serve as examples. -/
def plainDescription : String := "Test command."

/-- Writes one line, under a name that hides a built-in command. -/
def shout : Command where
  name := "echo"
  description := "Shout."
  body _ _ := .writingLines ["HEY"]

def fail : Command where
  name := "fail"
  description := plainDescription
  body _ _ := .failing (.message "boom")

/-- Fails with several errors at once. -/
def agg : Command where
  name := "agg"
  description := plainDescription
  body _ _ := .failing <| .aggregate [
    .message "first", .aggregate [.message "second", .cancelled], .io (.device "disk full")]

/-- Stops in the middle of its work. -/
def panic : Command where
  name := "panic"
  description := plainDescription
  signature := .plain [] [.ofText "kind" "Payload."] []
  body context call :=
    .failing <| .panicked <|
      match call.argument? "kind" with
      | some "string" => "bad " ++ context.name
      | some "other" => "unknown panic"
      | _ => "bad state"

/-- Writes to the error output and clears it, which changes nothing. -/
def warn : Command where
  name := "warn"
  description := plainDescription
  signature := .plain [.ofText "text" "Text."] [] [.flag "line" "End the line."]
  body _ call :=
    let text := (call.argument? "text").getD ""
    let action := if call.isSet "line" then OutputAction.writeLine text else .write text
    { State := List OutputAction
      start := [action, .clearScreen]
      next
        | [] => .finish (.ok ())
        | action :: rest => .errorOutput action rest }

def sizeText (w : Option Nat × Option Nat) : String :=
  let side : Option Nat → String
    | some n => toString n
    | none => "-"
  side w.1 ++ "x" ++ side w.2

/-- What a command is told, line by line. -/
def infoLines (context : Context) (call : Call) : List String :=
  let sub := match call.subcommand with
    | some name => s!"Some({quoted name})"
    | none => "None"
  [s!"name={context.name} raw={context.rawText}",
    s!"call={call.rawText} sub={sub}",
    s!"stage={context.index}/{context.stageCount} first={context.isFirst} last={context.isLast} " ++
      s!"in={context.inputPiped} out={context.outputPiped}",
    s!"window={sizeText context.window} errors={sizeText context.errorWindow}"] ++
    context.tokens.map fun t => s!"{t.position}:{t.kind.name}:{t.text}"

def info : Command where
  name := "info"
  description := plainDescription
  signature :=
    { root := some {
        optional := [.ofText "a" "First.", .ofText "b" "Second."]
        optionalOptions := Schema.optionsOf [
          .flag "f" "Flag.", ⟨"o", "Option.", some Converter.text⟩] } }
  body context call := .writingLines (infoLines context call)

/-- Where a command that passes text on stands, after what it has done first. -/
inductive Passing where
  | key (line : String)
  | show (line : String)
  | read
  | write (text : String)
  | finish (cancelled : Bool)

/-- Reads keys up to Enter. -/
def typed (line : String) : Option Key → Passing
  | none => .finish true
  | some (.char '\n') | some (.char '\r') => .show line
  | some (.char c) => .key (line.push c)
  | some _ => .key line

/-- Shows a typed line, and passes a piped input on after it. -/
def keyline : Command where
  name := "keyline"
  description := "Echo one typed line."
  body context _ :=
    { State := Passing
      start := .key ""
      next
        | .key line => .readKey (typed line)
        | .show line =>
          .output (.writeLine s!"{context.index}:{line}")
            (if context.inputPiped then .read else .finish false)
        | .read => .read .chunk fun
          | some text => .write text
          | none => .finish false
        | .write text => .output (.write text) .read
        | .finish cancelled => Body.finishUnlessCancelled cancelled }

/-- Writes all of its input in reverse. -/
def rev : Command where
  name := "rev"
  description := plainDescription
  body _ _ :=
    { State := Option (Option String)
      start := none
      next
        | none => .read .all fun text =>
          some (some (String.ofList (text.getD "").toList.reverse))
        | some (some text) => .output (.write text) (some none)
        | some none => .finish (.ok ()) }

def countType : NumberType := ⟨false, 32⟩

/-- Where a command that reads some lines stands. -/
inductive Heading where
  | read (count : Nat)
  | write (line : String) (count : Nat)
  | done

/-- Passes the first lines on and reads no further. -/
def head : Command where
  name := "head"
  description := plainDescription
  signature := .plain [] [⟨"count", "Lines.", Converter.number countType⟩] []
  body _ call :=
    { State := Heading
      start := .read ((call.arguments.number? countType "count").getD 1).toNat
      next
        | .read 0 => .finish (.ok ())
        | .read (n + 1) => .read .line fun
          | some line => .write line n
          | none => .done
        | .write line n => .output (.writeLine line) (.read n)
        | .done => .finish (.ok ()) }

/-- Replaces the escapes of line feed, carriage return and tab; other backslashes are dropped. -/
def unescape : List Char → List Char
  | [] | ['\\'] => []
  | '\\' :: 'n' :: cs => '\n' :: unescape cs
  | '\\' :: 'r' :: cs => '\r' :: unescape cs
  | '\\' :: 't' :: cs => '\t' :: unescape cs
  | '\\' :: c :: cs => c :: unescape cs
  | c :: cs => c :: unescape cs

/-- Writes text without a line end. -/
def emit : Command where
  name := "emit"
  description := plainDescription
  signature := .plain [] [.ofText "text" "Text."] []
  body _ call :=
    let text := String.ofList (unescape ((call.argument? "text").getD "").toList)
    .answering (.output (.write text) (some {}))

def evenType : NumberType := ⟨true, 32⟩

/-- Even numbers. -/
def evenNumber : Converter := fun text =>
  match Converter.readNumber evenType text with
  | .error e => .error ("not a number: " ++ e.message)
  | .ok n => if n % 2 = 0 then .ok (.number evenType n) else .error s!"{n} is odd"

def even : Command where
  name := "even"
  description := plainDescription
  signature := .plain [⟨"number", "Even number.", evenNumber⟩] [] []
  body _ call :=
    let shown := match call.arguments.number? evenType "number" with
      | some n => s!"Some({n})"
      | none => "None"
    .writingLines [shown]

/-- Shows how subcommands are bound. -/
def vcs : Command where
  name := "vcs"
  description := plainDescription
  signature :=
    { subcommands := [
        { name := "add", description := "Add a file.",
          required := [.ofText "file" "File."], optional := [.ofText "note" "Note."],
          optionalOptions := Schema.optionsOf [.flag "force" "Force."] },
        { name := "status", description := "Show status." },
        { name := "commit", description := "Commit.",
          requiredOptions := Schema.optionsOf [⟨"message", "Message.", some Converter.text⟩] }] }
  body _ call :=
    let text (name : String) := (call.argument? name).getD ""
    let sub := call.subcommand.getD ""
    let file := text "file"
    let note := text "note"
    let force := call.isSet "force"
    let message := (call.option? "message").getD "-"
    .writingLines [s!"{sub}: file={file} note={note} force={force} message={message}"]

def cancel : Command where
  name := "cancel"
  description := plainDescription
  body _ _ := .answering (.cancel (some {}))

/-- Passes its input on and keeps earlier failures to itself. -/
def swallow : Command where
  name := "swallow"
  description := plainDescription
  body _ _ := Builtin.copying
  relayError _ _ := none

/-- Passes its input on and reports earlier failures as its own. -/
def relay : Command where
  name := "relay"
  description := plainDescription
  body _ _ := Builtin.copying
  relayError context e :=
    some ⟨some context.name, context.rawText, .message s!"relayed [{e.rawText}]: {e.error.text}"⟩

/-- All sample commands under the names by which they are chosen. -/
def all : List (String × Command) :=
  [("shout", shout), ("fail", fail), ("agg", agg), ("panic", panic), ("warn", warn), ("info", info),
   ("keyline", keyline), ("rev", rev), ("head", head), ("emit", emit), ("even", even), ("vcs", vcs),
   ("cancel", cancel), ("swallow", swallow), ("relay", relay)]

/-- The sample command chosen by a name. -/
def find? (name : String) : Option Command :=
  (all.find? (·.1 == name)).map (·.2)

end CommandShell.Sample
