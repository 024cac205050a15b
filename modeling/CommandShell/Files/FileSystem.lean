import CommandShell.Dict
import CommandShell.Files.Fault
import CommandShell.Text.Pieces

/-!
Files and folders as a value.
-/

namespace CommandShell

open Text

inductive Node where
  | file (content : List UInt8)
  | folder
  /-- A device that drops what is written to it and has nothing to read. -/
  | null
  deriving DecidableEq, Repr

/-- Files and folders under their absolute paths, and the folder that relative paths start from.
The root, whose path is empty here, is always there. -/
structure FileSystem where
  nodes : Dict Node
  current : String

namespace FileSystem

/-- A file system with nothing but the folders of a machine, its null device and some folders more. -/
def fresh (folders : List String) (current : String) : FileSystem :=
  let machine := ["/bin", "/dev", "/etc", "/home", "/proc", "/root", "/tmp", "/usr", "/var"]
  ⟨.ofList (("/dev/null", .null) :: (machine ++ folders).map (·, .folder)), current⟩

/-- Where a path leads: to a folder that is there, or to a name in one. -/
inductive Location where
  | folder (path : String)
  | entry (parent : String) (name : String)
  deriving DecidableEq, Repr

/-- The absolute path of a location. -/
def Location.path : Location → String
  | .folder path => path
  | .entry parent name => parent ++ "/" ++ name

/-- What is at an absolute path. -/
def node? (fs : FileSystem) (path : String) : Option Node :=
  if path.isEmpty then some .folder else fs.nodes.get? path

/-- The folder that holds an absolute path. -/
def parentOf (path : String) : String :=
  match (pieces (· == '/') path.toList).dropLast with
  | [] => ""
  | ps => String.ofList (joinPieces ['/'] ps)

/-- How many bytes a name and a path have at most. -/
def nameLimit : Nat := 255

def pathLimit : Nat := 4095

/-- The folder reached by one name of a path. -/
def enter (fs : FileSystem) (folder name : String) : Except FileFault String :=
  if name.isEmpty || name = "." then .ok folder
  else if name = ".." then .ok (parentOf folder)
  else if nameLimit < name.utf8ByteSize then .error .invalidFilename
  else
    match fs.node? (folder ++ "/" ++ name) with
    | some .folder => .ok (folder ++ "/" ++ name)
    | some (.file _) | some .null => .error .notADirectory
    | none => .error .notFound

/-- Follows the names of a path from a folder on. -/
def follow (fs : FileSystem) (folder : String) : List String → Except FileFault Location
  | [] => .ok (.folder folder)
  | [name] =>
    if name.isEmpty || name = "." then .ok (.folder folder)
    else if name = ".." then .ok (.folder (parentOf folder))
    else if nameLimit < name.utf8ByteSize then .error .invalidFilename
    else .ok (.entry folder name)
  | name :: names =>
    match fs.enter folder name with
    | .error e => .error e
    | .ok inner => fs.follow inner names

/-- The names in a path. -/
def namesOf (path : String) : List String :=
  ((pieces (· == '/') path.toList).filter (!·.isEmpty)).map String.ofList

/-- A path with a slash at its end leads to a folder or nowhere. -/
def endsInSlash (path : String) : Bool :=
  path.toList.getLast? == some '/'

/-- Where a path leads. -/
def locate (fs : FileSystem) (path : String) : Except FileFault Location :=
  if path.toList.contains '\x00' then .error .invalidInput
  else if path.isEmpty then .error .notFound
  else if pathLimit < path.utf8ByteSize then .error .invalidFilename
  else
    let start := if path.toList.head? = some '/' then "" else fs.current
    fs.follow start (namesOf path)

/-- The content of the file that a path leads to. -/
def read (fs : FileSystem) (path : String) : Except FileFault (List UInt8) :=
  match fs.locate path with
  | .error e => .error e
  | .ok place =>
    match fs.node? place.path with
    | none => .error .notFound
    | some .folder => .error .isADirectory
    | some (.file content) => if endsInSlash path then .error .notADirectory else .ok content
    | some .null => if endsInSlash path then .error .notADirectory else .ok []

/-- The path leads to a folder that is there. -/
def isFolder (fs : FileSystem) (path : String) : Bool :=
  match fs.locate path with
  | .ok place => fs.node? place.path == some .folder
  | .error _ => false

/-- Puts content under an absolute path, unless there is a device that drops it. -/
def put (fs : FileSystem) (path : String) (content : List UInt8) : FileSystem :=
  if fs.node? path == some .null then fs
  else { fs with nodes := fs.nodes.insert path (.file content) }

/-- Finds or makes the file that a path leads to, so that it can be written.  Its content is kept
if `keep` holds and dropped otherwise. -/
def openForWriting (fs : FileSystem) (path : String) (keep : Bool) :
    Except FileFault (FileSystem × String) :=
  match fs.locate path with
  | .error e => .error e
  | .ok place =>
    match fs.node? place.path, endsInSlash path with
    | some .folder, _ | none, true => .error .isADirectory
    | some (.file _), true | some .null, true => .error .notADirectory
    | some (.file _), false => .ok (if keep then fs else fs.put place.path [], place.path)
    | none, false => .ok (fs.put place.path [], place.path)
    | some .null, false => .ok (fs, place.path)

/-- Makes a folder whose parent is there. -/
def makeFolder (fs : FileSystem) (path : String) : Except FileFault FileSystem :=
  match fs.locate path with
  | .error e => .error e
  | .ok place =>
    match fs.node? place.path with
    | some _ => .error .alreadyExists
    | none => .ok { fs with nodes := fs.nodes.insert place.path .folder }

/-- A path and the folders above it, the path itself first: `a/b/c`, `a/b`, `a`. -/
def ancestors (path : String) : List String :=
  let start := if path.toList.head? = some '/' then "/" else ""
  let names := match namesOf path with
    | [] => []
    | first :: rest => first :: rest.filter (· != ".")
  (List.range names.length).map fun i =>
    start ++ String.ofList (joinPieces ['/'] ((names.take (names.length - i)).map (·.toList)))

/-- Makes those of some folders that are missing, given each one before its parent. -/
def makeMissing (fs : FileSystem) : List String → Except FileFault FileSystem
  | [] => .ok fs
  | path :: parents =>
    match fs.makeFolder path with
    | .ok fs => .ok fs
    | .error .notFound =>
      match fs.makeMissing parents with
      | .error e => .error e
      | .ok fs => if fs.isFolder path then .ok fs else fs.makeFolder path
    | .error e => if fs.isFolder path then .ok fs else .error e

/-- Makes a folder with all folders above it. -/
def makeFolders (fs : FileSystem) (path : String) : Except FileFault FileSystem :=
  fs.makeMissing (ancestors path)

/-- The part of a path before its last name; a path that is all slashes has none. -/
def parent? (path : String) : Option String :=
  match ancestors path with
  | [] => none
  | [only] => some (if only.toList.head? = some '/' then "/" else "")
  | _ :: up :: _ => some up

/-- Replaces the content of the file that a path leads to. -/
def write (fs : FileSystem) (path : String) (content : List UInt8) : Except FileFault FileSystem :=
  (fs.openForWriting path false).map fun (fs, place) => fs.put place content

end FileSystem

end CommandShell
