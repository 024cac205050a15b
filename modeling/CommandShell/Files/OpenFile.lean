import CommandShell.Files.FileSystem

/-!
Files open for writing.  What is written waits in a buffer until it is flushed or too long.
-/

namespace CommandShell

/-- A file that is written: its absolute path, where the next bytes go, and the bytes that wait. -/
structure OpenFile where
  path : String
  append : Bool
  offset : Nat := 0
  waiting : Array UInt8 := #[]
  deriving DecidableEq, Repr

namespace OpenFile

/-- How many bytes wait at most. -/
def bufferSize : Nat := 8192

/-- The content with `bytes` from `offset` on, and zeros in any gap before. -/
def overwrite (content : List UInt8) (offset : Nat) (bytes : List UInt8) : List UInt8 :=
  let start := content.take offset
  start ++ List.replicate (offset - start.length) 0 ++ bytes ++ content.drop (offset + bytes.length)

/-- Writes bytes past the buffer. -/
def store (f : OpenFile) (fs : FileSystem) (bytes : List UInt8) : OpenFile × FileSystem :=
  let content := match fs.node? f.path with
    | some (.file content) => content
    | _ => []
  let offset := if f.append then content.length else f.offset
  ({ f with offset := offset + bytes.length }, fs.put f.path (overwrite content offset bytes))

/-- Writes what waits. -/
def flush (f : OpenFile) (fs : FileSystem) : OpenFile × FileSystem :=
  if f.waiting.isEmpty then (f, fs)
  else { f with waiting := #[] }.store fs f.waiting.toList

/-- Writes bytes: into the buffer if they fit, else after what waits there. -/
def write (f : OpenFile) (fs : FileSystem) (bytes : List UInt8) : OpenFile × FileSystem :=
  let (f, fs) := if f.waiting.size + bytes.length > bufferSize then f.flush fs else (f, fs)
  if bytes.length ≥ bufferSize then f.store fs bytes
  else ({ f with waiting := f.waiting ++ bytes }, fs)

/-- Writes text in UTF-8. -/
def writeText (f : OpenFile) (fs : FileSystem) (text : String) : OpenFile × FileSystem :=
  f.write fs text.toUTF8.data.toList

end OpenFile

/-- Opens the file that a path leads to for writing.  It is made if it is missing, and emptied
unless it is appended to. -/
def FileSystem.openFile (fs : FileSystem) (path : String) (append : Bool) :
    Except FileFault (OpenFile × FileSystem) :=
  (fs.openForWriting path append).map fun (fs, place) => ({ path := place, append }, fs)

end CommandShell
