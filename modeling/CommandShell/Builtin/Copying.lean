import CommandShell.Builtin.Signatures
import CommandShell.Command.Basic
import CommandShell.Pattern.Refusal
import CommandShell.Pattern.Search

/-!
Commands that write text or pass their input on: `echo`, `grep`, `passthrough`, `reverse`, `tee`.
-/

namespace CommandShell.Builtin

open Text

def echo : Command where
  name := "echo"
  description := "Write the given text."
  signature := .plain [] [.ofText "text" "Text to write."] []
  body _ call := .writingLines [(call.argument? "text").getD ""]

/-- Where a command that copies its input stands. -/
inductive Copying where
  | read
  | write (text : String)
  | done

/-- A body that writes what it reads, as it arrives. -/
def copying : Body where
  State := Copying
  start := .read
  next
    | .read => .read .chunk fun
      | some text => .write text
      | none => .done
    | .write text => .output (.write text) .read
    | .done => .finish (.ok ())

def passthrough : Command where
  name := "passthrough"
  description := "Copy input to output unchanged."
  body _ _ := copying

/-- Where a command that goes through its input line by line stands. -/
inductive ByLine where
  | read
  | write (line : String)
  | check
  | finish (cancelled : Bool)

/-- A body that writes what `f` makes of each line, if anything. -/
def transformingLines (f : String → Option String) : Body where
  State := ByLine
  start := .read
  next
    | .read => .read .line fun
      | some line =>
        match f line with
        | some out => .write out
        | none => .read
      | none => .check
    | .write line => .output (.writeLine line) .read
    | .check => .checkCancelled .finish
    | .finish cancelled => Body.finishUnlessCancelled cancelled

def reverse : Command where
  name := "reverse"
  description := "Write every input line reversed."
  body _ _ := transformingLines fun line => some (String.ofList line.toList.reverse)

/-- The patterns in a text, which are separated by `\|`. -/
def splitPatterns : List Char → List (List Char)
  | [] => [[]]
  | '\\' :: '|' :: cs => [] :: splitPatterns cs
  | c :: cs => consHead c (splitPatterns cs)

/-- Reads patterns; the first text that is none is a failure. -/
def readPatterns (ignoreCase : Bool) : List String → Except CommandError (List Pattern)
  | [] => .ok []
  | text :: rest =>
    match Pattern.read ignoreCase text with
    | .error refusal => .error (.message s!"Invalid pattern '{text}': {refusal.message text}")
    | .ok p => (readPatterns ignoreCase rest).map (p :: ·)

/-- A body that keeps the lines in which any pattern is found, or those in which none is. -/
def keepingLines (inverted : Bool) (automata : List Pattern.Automaton) : Body :=
  transformingLines fun line =>
    if automata.any (·.finds line) != inverted then some line else none

def grep : Command where
  name := "grep"
  description := "Write the input lines that match a pattern."
  signature := .plain
    [.ofText "patterns" "Regular expressions, separated by '\\|'."] []
    [.flag "i" "Ignore case.", .flag "v" "Keep the lines that do not match."]
  body _ call :=
    let texts := (splitPatterns ((call.argument? "patterns").getD "").toList).map String.ofList
    match readPatterns (call.isSet "i") texts with
    | .error e => .failing e
    | .ok patterns => keepingLines (call.isSet "v") (patterns.map Pattern.automaton)

/-- Where `tee` stands. -/
inductive Teeing where
  | makeFolders
  | openFile
  | read (file : FileId)
  | store (file : FileId) (text : String)
  | write (file : FileId) (text : String)
  | flush (file : FileId)
  | check
  | finish (cancelled : Bool)

/-- A body that writes what it reads to a file and to its output. -/
def teeing (path : String) (append : Bool) : Body where
  State := Teeing
  start := .makeFolders
  next
    | .makeFolders => .makeFoldersFor path .openFile
    | .openFile => .openFile path append .read
    | .read file => .read .chunk fun
      | some text => .store file text
      | none => .flush file
    | .store file text => .writeFile file text (.write file text)
    | .write file text => .output (.write text) (.read file)
    | .flush file => .flushFile file .check
    | .check => .checkCancelled .finish
    | .finish cancelled => Body.finishUnlessCancelled cancelled

def tee : Command where
  name := "tee"
  description := "Write input to a file and pass it on unchanged."
  signature := .plain [.ofText "file" "File to write to."] []
    [.flag "append" "Append to the file instead of replacing it."]
  body _ call :=
    let path := (call.argument? "file").getD ""
    if isAllBlank path then .failing (.message "Missing file path.")
    else teeing path (call.isSet "append")

end CommandShell.Builtin
