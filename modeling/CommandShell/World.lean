import CommandShell.Encoding.Detect
import CommandShell.Environment
import CommandShell.Error
import CommandShell.Files.OpenFile
import CommandShell.Home
import CommandShell.Session.Directory
import CommandShell.Terminal.Basic

/-!
All that a running pipeline can see and change.
-/

namespace CommandShell

/-- What all sessions share. -/
structure Shared where
  files : FileSystem
  home : Option String
  environment : Environment := {}
  directory : Directory := {}
  tokens : CancelTree := {}

/-- What surrounds the pipelines of a session. -/
structure World extends Shared where
  terminal : Terminal
  openFiles : List OpenFile := []
  /-- The session's number in the directory. -/
  session : Nat := 0
  /-- The token of the running pipeline, as far as the terminal's interrupt reaches it. -/
  interrupt : Option TokenId := none

/-- The number of a file that is open. -/
abbrev FileId := Nat

/-- What an operation that can fail comes to: it changes things even if it fails in the end. -/
abbrev Attempt (σ : Type) := Except IoFault Unit × σ

namespace World

/-- What others see of the session. -/
def control? (w : World) : Option SessionControl := w.directory.get? w.session

/-- Changes what others see of the session. -/
def updateControl (w : World) (change : SessionControl → SessionControl) : World :=
  { w with directory := w.directory.update w.session change }

/-- The session is being ended with all that runs in it. -/
def isEndingHard (w : World) : Bool :=
  match w.control? with
  | some control => w.tokens.isCancelled control.token
  | none => false

/-- A world with a session of number 0 that no list holds. -/
def detached (files : FileSystem) (home : Option String) (terminal : Terminal) : World :=
  let (token, tokens) := ({} : CancelTree).new
  { files, home, terminal, tokens, directory := ({} : Directory).add { id := 0, token } }

def cancel (w : World) (token : TokenId) : World :=
  { w with tokens := (w.tokens.cancel token).1 }

def isCancelled (w : World) (token : TokenId) : Bool := w.tokens.isCancelled token

/-- Asks a session to end.  A hard end cancels its token. -/
def endSession (w : World) (id : Nat) (hard : Bool) : World :=
  let w := { w with directory := w.directory.update id SessionControl.requestEnd }
  match w.directory.get? id with
  | some control => if hard then w.cancel control.token else w
  | none => w

/-- Looks for keys.  A terminal that asks for it has the running pipeline cancelled. -/
def readKeys (w : World) : KeyBatch × World :=
  let read := w.terminal.readKeys
  let w := { w with terminal := read.terminal }
  match read.interrupted, w.interrupt with
  | true, some token => (read.keys, w.cancel token)
  | _, _ => (read.keys, w)

/-- The text of a file. -/
def load (w : World) (path : String) : Except ShellError String :=
  match w.files.read (expandHome w.home path) with
  | .error _ => .error (.inputUnreadable path)
  | .ok bytes =>
    match Encoding.detect? bytes with
    | some text => .ok text
    | none => .error (.inputUndecodable path)

/-- Makes the folders above the file at a path. -/
def makeFoldersFor (w : World) (path : String) : Except FileFault World :=
  match FileSystem.parent? (expandHome w.home path) with
  | none => .ok w
  | some folder =>
    if folder.isEmpty then .ok w
    else (w.files.makeFolders folder).map fun files => { w with files }

/-- Opens a file for writing. -/
def openFile (w : World) (path : String) (append : Bool) : Except ShellError (FileId × World) :=
  match w.files.openFile (expandHome w.home path) append with
  | .error fault => .error (.outputUnwritable path fault)
  | .ok (file, files) =>
    .ok (w.openFiles.length, { w with files, openFiles := w.openFiles ++ [file] })

/-- Changes an open file together with the file system. -/
def withFile (w : World) (id : FileId)
    (change : OpenFile → FileSystem → OpenFile × FileSystem) : World :=
  match w.openFiles[id]? with
  | none => w
  | some file =>
    let (file, files) := change file w.files
    { w with files, openFiles := w.openFiles.set id file }

def writeFile (w : World) (id : FileId) (text : String) : World :=
  w.withFile id fun file files => file.writeText files text

def flushFile (w : World) (id : FileId) : World := w.withFile id OpenFile.flush

end World

end CommandShell
