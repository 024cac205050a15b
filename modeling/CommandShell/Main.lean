import CommandShell.Console
import CommandShell.Files.Changes

/-!
The shell at the real console.  Sessions and pipelines go on by pure steps; here lines are read,
what has happened on the terminal is shown, and files are read before a line and written after it.
-/

namespace CommandShell.Main

/-- What is at a path of the disk. -/
def nodeAt (path : String) : IO (Option Node) := do
  match ← (IO.FS.readBinFile path).toBaseIO with
  | .ok content => return some (.file content.data.toList)
  | .error (.inappropriateType ..) => return some .folder
  | .error _ => return none

/-- Learns what is at a path of the disk and at the folders above it. -/
def learn (fs : FileSystem) (path : String) : IO FileSystem :=
  (FileSystem.ancestors path).reverse.foldlM (fun fs path => do
    match fs.locate path with
    | .error _ => return fs
    | .ok place =>
      match ← nodeAt place.path with
      | some node => return { fs with nodes := fs.nodes.insert place.path node }
      | none => return fs) fs

/-- Brings to the disk what has changed in the files. -/
def store (before after : FileSystem) : IO Unit :=
  (after.changesSince before).forM fun (path, content) =>
    try
      match content with
      | some content =>
        IO.FS.createDirAll (FileSystem.parentOf path)
        IO.FS.writeBinFile path ⟨content.toArray⟩
      | none => IO.FS.removeFile path
    catch e => IO.eprintln e

/-- What the program starts with. -/
def startup (arguments : List String) : IO Startup := do
  let home ← IO.getEnv "HOME"
  let current := (← IO.currentDir).toString
  let block ← (IO.FS.readFile "/proc/self/environ").toBaseIO
  let environment := Console.variablesOf (block.toOption.getD "")
  let files ← learn ⟨.empty, current⟩ current
  let files ← (home.map Config.userFile).toList.foldlM learn files
  let config := Config.load (Config.userText? files home)
  let files ← (Console.pathsNamed config home).foldlM learn files
  return { arguments, environment, home, files }

/-- Shows what has happened on the terminal and brings to the disk what has changed since
`before`. -/
def settle (before : FileSystem) (w : World) : IO World := do
  let out ← IO.getStdout
  out.putStr (String.join (w.terminal.events.reverse.map Console.eventText))
  out.flush
  store before w.files
  return { w with terminal := { w.terminal with events := [] } }

/-- The next line of the input; none at its end. -/
def nextLine : IO (Option String) := do
  match ← (← IO.getStdin).getLine.toBaseIO with
  | .ok line => return (Text.lines line).head?
  | .error _ => return none

/-- Types a line at a terminal, or closes it if there is none. -/
def typeAt (w : World) (line : Option String) : World :=
  let terminal := match line with
    | some line => { w.terminal with replies := w.terminal.replies ++ [.line line] }
    | none => { w.terminal with closed := true }
  { w with terminal }

/-- Runs a pipeline to its end and goes on with `finish`, which also gets the files as they are on
the disk.  What stages want to read is asked of the person at the console. -/
partial def attend (finish : FileSystem → Chain → IO UInt32) (saved : FileSystem) (c : Chain) :
    IO UInt32 := do
  match c.advance with
  | none => finish saved c
  | some next =>
    if next.now = c.now then attend finish saved next
    else
      let world ← settle saved c.world
      if !Console.wantsInput c then
        IO.sleep (UInt32.ofNat (next.now - c.now))
        attend finish world.files (next.withWorld world)
      else if world.terminal.closed then
        attend finish world.files (next.withWorld (world.cancel c.ends.token))
      else attend finish world.files (next.withWorld (typeAt world (← nextLine)))

/-- Learns what a line may lead to. -/
def filesFor (s : Session) (line : String) : IO FileSystem :=
  (Console.pathsIn s line).foldlM learn s.current.files

/-- Runs a session to its end. -/
partial def converse (saved : FileSystem) (s : Session) : IO UInt32 := do
  match s.phase with
  | .running pipeline chain =>
    attend (fun saved chain => converse saved (s.conclude pipeline chain).2) saved chain
  | _ =>
    match s.step with
    | some s => converse saved s
    | none =>
      let world ← settle saved s.world
      if s.isEnded then return 0
      let line ← nextLine
      let files ← filesFor s (line.getD "")
      converse files { s with world := typeAt { world with files } line }

/-- Runs one line; the exit code says whether it succeeded. -/
def runLine (saved : FileSystem) (s : Session) (line : String) : IO UInt32 := do
  let world ← settle saved s.world
  let files ← filesFor s line
  match ({ s with world := { world with files } }.enter line).phase with
  | .running pipeline chain =>
    let finish (saved : FileSystem) (chain : Chain) : IO UInt32 := do
      let (report, world) := pipeline.drain chain
      let _ ← settle saved world
      return if report.succeeded then 0 else 1
    attend finish files chain
  | _ => return 0

/-- Runs work in a session on the console. -/
def inSession (s : Startup) (work : Session → IO UInt32) : IO UInt32 := do
  match Console.openHost s false with
  | .error e =>
    IO.eprint (Console.startFault e)
    return 1
  | .ok h =>
    match h.session? Console.sessionId with
    | none => return 1
    | some session => work session

end CommandShell.Main

open CommandShell in
def main (arguments : List String) : IO UInt32 := do
  let s ← Main.startup arguments
  match Order.ofArguments arguments with
  | .session => Main.inSession s (Main.converse s.files)
  | .line text => Main.inSession s (Main.runLine s.files · text)
  | _ =>
    let outcome := Console.run 0 s
    IO.print outcome.output
    IO.eprint outcome.errors
    return UInt32.ofNat outcome.code
