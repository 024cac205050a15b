/-!
Paths that start at the home directory.
-/

namespace CommandShell

/-- The path with a leading `~`, alone or before a slash, replaced by the home directory. -/
def expandHome (home : Option String) (path : String) : String :=
  match home, path.toList with
  | some h, '~' :: rest =>
    match rest with
    | [] | '/' :: _ => h ++ String.ofList rest
    | _ => path
  | _, _ => path

end CommandShell
