import CommandShell.Config.Basic
import CommandShell.Files.FileSystem
import CommandShell.Toml.Printer
import CommandShell.Toml.Reader

/-!
What a user's file changes in the configuration, and the configuration written as such a file.
-/

namespace CommandShell

open Toml

structure SessionOverlay where
  prompt : Option String := none
  historyLength : Option Nat := none
  showSessionId : Option Bool := none
  historyFile : Option String := none
  replace : Bool := false
  startInfo : List String := []
  removeStartInfo : List String := []
  deriving DecidableEq, Repr

structure PipelineOverlay where
  linkCapacity : Option Nat := none
  pollInterval : Option Nat := none
  nullDevice : Option String := none
  errorColor : Option Color := none
  deriving DecidableEq, Repr

structure CommandsOverlay where
  groupQualifier : Option String := none
  replace : Bool := false
  disabled : List String := []
  removeDisabled : List String := []
  deriving DecidableEq, Repr

structure LoggingOverlay where
  level : Option String := none
  file : Option String := none
  deriving DecidableEq, Repr

/-- Changes to the configuration.  A field that is not set is kept. -/
structure Overlay where
  session : SessionOverlay := {}
  pipeline : PipelineOverlay := {}
  commands : CommandsOverlay := {}
  logging : LoggingOverlay := {}
  deriving DecidableEq, Repr

namespace Overlay

/-- A list with changes: another list in its place, or some items removed and new ones added. -/
def mergeList (base add remove : List String) (replace : Bool) : List String :=
  if replace then add
  else
    add.foldl (fun items item => if items.contains item then items else items ++ [item])
      (base.filter fun item => !remove.contains item)

def apply (o : Overlay) (c : Config) : Config :=
  { session :=
      { prompt := o.session.prompt.getD c.session.prompt
        historyLength := o.session.historyLength.getD c.session.historyLength
        showSessionId := o.session.showSessionId.getD c.session.showSessionId
        historyFile := o.session.historyFile.getD c.session.historyFile
        startInfo :=
          mergeList c.session.startInfo o.session.startInfo o.session.removeStartInfo
            o.session.replace }
    pipeline :=
      { linkCapacity := o.pipeline.linkCapacity.getD c.pipeline.linkCapacity
        pollInterval := o.pipeline.pollInterval.getD c.pipeline.pollInterval
        nullDevice := o.pipeline.nullDevice.getD c.pipeline.nullDevice
        errorColor := o.pipeline.errorColor.getD c.pipeline.errorColor }
    commands :=
      { groupQualifier := o.commands.groupQualifier.getD c.commands.groupQualifier
        disabled :=
          mergeList c.commands.disabled o.commands.disabled o.commands.removeDisabled
            o.commands.replace }
    logging :=
      { level := o.logging.level.getD c.logging.level
        file := o.logging.file.getD c.logging.file } }

/-- The value under a key, read by `f`.  A missing key is fine, a value that `f` refuses is not. -/
def optional {α : Type} (f : Toml.Value → Option α) (es : Entries) (key : String) : Option (Option α) :=
  match es.get? key with
  | none => some none
  | some v => (f v).map some

def asText : Toml.Value → Option String
  | .text s => some s
  | _ => none

def asTruth : Toml.Value → Option Bool
  | .truth b => some b
  | _ => none

def asCount : Toml.Value → Option Nat
  | .integer n => if n < 0 then none else some n.toNat
  | _ => none

def asTexts : Toml.Value → Option (List String)
  | .list vs => vs.mapM asText
  | _ => none

/-- The table or list has nothing in it. -/
def isEmptyValue : Toml.Value → Bool
  | .list vs => vs.isEmpty
  | .table _ es => es.isEmpty
  | .tables ts => ts.isEmpty
  | _ => false

/-- A color by its name, which may also be the only key of a table with nothing under it. -/
def asColor : Toml.Value → Option Color
  | .text s => Color.ofName? s
  | .table _ [(name, v)] => if isEmptyValue v then Color.ofName? name else none
  | _ => none

/-- The fields of the tables in their order, those first that a list of values must have. -/
def sessionFields : List String :=
  ["prompt", "history_length", "show_session_id", "history_file", "replace", "start_info",
    "remove_start_info"]

def pipelineFields : List String :=
  ["link_capacity", "poll_interval_ms", "null_device", "error_color"]

def commandFields : List String := ["group_prefix", "replace", "disabled", "remove_disabled"]

def loggingFields : List String := ["level", "file"]

/-- The changes to the session that a document describes.  Keys without a meaning are ignored. -/
def session? (es : Entries) : Option SessionOverlay := do
  let s ← es.section? "session" sessionFields 4
  return {
    prompt := ← optional asText s "prompt"
    historyLength := ← optional asCount s "history_length"
    showSessionId := ← optional asTruth s "show_session_id"
    historyFile := ← optional asText s "history_file"
    replace := (← optional asTruth s "replace").getD false
    startInfo := (← optional asTexts s "start_info").getD []
    removeStartInfo := (← optional asTexts s "remove_start_info").getD [] }

def pipeline? (es : Entries) : Option PipelineOverlay := do
  let p ← es.section? "pipeline" pipelineFields 4
  return {
    linkCapacity := ← optional asCount p "link_capacity"
    pollInterval := ← optional asCount p "poll_interval_ms"
    nullDevice := ← optional asText p "null_device"
    errorColor := ← optional asColor p "error_color" }

def commands? (es : Entries) : Option CommandsOverlay := do
  let c ← es.section? "commands" commandFields 1
  return {
    groupQualifier := ← optional asText c "group_prefix"
    replace := (← optional asTruth c "replace").getD false
    disabled := (← optional asTexts c "disabled").getD []
    removeDisabled := (← optional asTexts c "remove_disabled").getD [] }

def logging? (es : Entries) : Option LoggingOverlay := do
  let l ← es.section? "logging" loggingFields 2
  return {
    level := ← optional asText l "level"
    file := ← optional asText l "file" }

/-- The changes that a document describes. -/
def ofEntries? (es : Entries) : Option Overlay := do
  return {
    session := ← session? es
    pipeline := ← pipeline? es
    commands := ← commands? es
    logging := ← logging? es }

/-- The changes in the text of a user's file. -/
def ofText? (text : String) : Option Overlay := (Toml.read? text).bind ofEntries?

end Overlay

namespace Config

/-- The configuration as the text of a user's file. -/
def toToml (c : Config) : String :=
  Toml.render [
    ⟨"session", [
      ("prompt", .text c.session.prompt),
      ("history_length", .number c.session.historyLength),
      ("show_session_id", .truth c.session.showSessionId),
      ("history_file", .text c.session.historyFile),
      ("start_info", .texts c.session.startInfo)]⟩,
    ⟨"pipeline", [
      ("link_capacity", .number c.pipeline.linkCapacity),
      ("poll_interval_ms", .number c.pipeline.pollInterval),
      ("null_device", .text c.pipeline.nullDevice),
      ("error_color", .text c.pipeline.errorColor.name)]⟩,
    ⟨"commands", [
      ("group_prefix", .text c.commands.groupQualifier),
      ("disabled", .texts c.commands.disabled)]⟩,
    ⟨"logging", [
      ("level", .text c.logging.level),
      ("file", .text c.logging.file)]⟩]

/-- Where a user's file is. -/
def userFile (home : String) : String := home ++ "/.config/pipeshell/config.toml"

/-- The text of the user's file, if there is one. -/
def userText? (fs : FileSystem) (home : Option String) : Option String :=
  match home with
  | none => none
  | some home =>
    match fs.read (userFile home) with
    | .ok bytes => String.fromUTF8? ⟨bytes.toArray⟩
    | .error _ => none

/-- The defaults with the changes of a user's file; one that cannot be understood changes
nothing. -/
def load (userText : Option String) : Config :=
  match userText.bind Overlay.ofText? with
  | some overlay => overlay.apply {}
  | none => {}

end Config

end CommandShell
