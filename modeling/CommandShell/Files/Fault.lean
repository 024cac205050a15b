/-!
Why an operation on files or on a terminal fails.
-/

namespace CommandShell

/-- What the file system refuses. -/
inductive FileFault where
  | notFound
  | alreadyExists
  | notADirectory
  | isADirectory
  /-- A path with a NUL in it. -/
  | invalidInput
  /-- A path that is too long, or a name in it. -/
  | invalidFilename
  deriving DecidableEq, Repr

def FileFault.message : FileFault → String
  | .notFound => "No such file or directory (os error 2)"
  | .alreadyExists => "File exists (os error 17)"
  | .notADirectory => "Not a directory (os error 20)"
  | .isADirectory => "Is a directory (os error 21)"
  | .invalidInput => "file name contained an unexpected NUL byte"
  | .invalidFilename => "File name too long (os error 36)"

/-- Why text could not be read or written. -/
inductive IoFault where
  | file (fault : FileFault)
  /-- A device that gives its own reason. -/
  | device (reason : String)
  deriving DecidableEq, Repr

def IoFault.message : IoFault → String
  | .file fault => fault.message
  | .device reason => reason

end CommandShell
