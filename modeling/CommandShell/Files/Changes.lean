import CommandShell.Files.FileSystem

/-!
Files put in place with all folders that they need, and what has changed between two states of the
files.
-/

namespace CommandShell.FileSystem

/-- Puts content under a path, with the folders that it needs. -/
def place (fs : FileSystem) (path : String) (content : List UInt8) : FileSystem :=
  let fs := match parent? path with
    | some folder => (fs.makeFolders folder).toOption.getD fs
    | none => fs
  (fs.write path content).toOption.getD fs

/-- The content of the file at an absolute path. -/
def content? (fs : FileSystem) (path : String) : Option (List UInt8) :=
  match fs.nodes.get? path with
  | some (.file content) => some content
  | _ => none

/-- The files that are new or different, with their content, and those that are gone. -/
def changesSince (after before : FileSystem) : List (String × Option (List UInt8)) :=
  let written := after.nodes.keys.filterMap fun path =>
    match after.content? path with
    | some content => if before.content? path = some content then none else some (path, some content)
    | none => none
  let gone := before.nodes.keys.filterMap fun path =>
    if (before.content? path).isSome && (after.content? path).isNone then some (path, none) else none
  written ++ gone

end CommandShell.FileSystem
