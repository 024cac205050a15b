import CommandShell.Builtin.Signatures
import CommandShell.Command.Basic
import CommandShell.Text.Lines

/-!
The command `more`, which shows text a page at a time.
-/

namespace CommandShell.Builtin

open Text

namespace Paging

/-- Shown when a page is full. -/
def prompt : String := "-- More -- "

def defaultWidth : Nat := 80
def defaultHeight : Nat := 25

/-- Steps back over the prompt, blanks it and steps back again. -/
def erasePrompt : String :=
  let back := List.replicate prompt.length '\x08'
  String.ofList (back ++ List.replicate prompt.length ' ' ++ back)

/-- The characters of a line that are shown: blanks as spaces, and no controls. -/
def shown (line : String) : List Char :=
  (line.toList.filter fun c => !isControl c || c == '\t').map fun c => if isBlank c then ' ' else c

/-- Cuts a list into parts of `width` elements, or fewer in the last one. -/
def chunks {α : Type} (width : Nat) : (fuel : Nat) → List α → List (List α)
  | 0, _ => []
  | _, [] => []
  | fuel + 1, x :: xs => (x :: xs).take width :: chunks width fuel ((x :: xs).drop width)

/-- The rows of a line: the first, and those after it. -/
def wrap (width : Nat) (line : String) : String × List String :=
  match chunks width (shown line).length (shown line) with
  | [] => ("", [])
  | first :: rest => (String.ofList first, rest.map String.ofList)

/-- Where lines come from: those left of a file, or the input. -/
abbrev Source := Option (List String)

/-- Where `more` stands.  `budget` is how many rows may be shown before the next prompt. -/
inductive State where
  | load (path : String)
  | nextLine (source : Source) (budget : Nat)
  | row (source : Source) (first : String) (rest : List String) (budget : Nat)
  | prompt (source : Source) (first : String) (rest : List String)
  | key (source : Source) (first : String) (rest : List String)
  | erase (source : Source) (first : String) (rest : List String) (budget : Nat)
  | quit
  | finish (cancelled : Bool)

/-- After a row: the next one of the line, or the next line. -/
def afterRow (source : Source) (rest : List String) (budget : Nat) : State :=
  match rest with
  | [] => .nextLine source budget
  | first :: rest => .row source first rest budget

/-- Shows a row, or the prompt if the page is full. -/
def showRow (source : Source) (first : String) (rest : List String) : Nat → Request State
  | 0 => .flushKeys (.prompt source first rest)
  | budget + 1 => .output (.writeLine first) (afterRow source rest budget)

/-- What a key at the prompt leads to. -/
def answer (page : Nat) (source : Source) (first : String) (rest : List String) :
    Option Key → State
  | none => .finish true
  | some (.char ' ') => .erase source first rest page
  | some (.char '\r') | some (.char '\n') => .erase source first rest 1
  | some (.char 'q') | some (.char 'Q') => .quit
  | some _ => .key source first rest

def next (width page : Nat) : State → Request State
  | .load path => .load path fun text => .nextLine (some (lines text)) page
  | .nextLine none budget => .read .line fun
    | some line => .row none (wrap width line).1 (wrap width line).2 budget
    | none => .nextLine (some []) budget
  | .nextLine (some []) _ => .checkCancelled .finish
  | .nextLine (some (line :: source)) budget =>
    showRow (some source) (wrap width line).1 (wrap width line).2 budget
  | .row source first rest budget => showRow source first rest budget
  | .prompt source first rest => .output (.write prompt) (.key source first rest)
  | .key source first rest => .readKey (answer page source first rest)
  | .erase source first rest budget => .output (.write erasePrompt) (.row source first rest budget)
  | .quit => .output (.write erasePrompt) (.finish false)
  | .finish cancelled => Body.finishUnlessCancelled cancelled

/-- A body that shows its lines on a terminal, with a prompt after each page. -/
def paged (width height : Nat) (start : State) : Body where
  State := State
  start := start
  next := next (max (width - 1) 1) (max (height - 1) 1)

/-- Where an unpaged copy stands. -/
inductive Unpaged where
  | load (path : String)
  | copy (source : Source)
  | write (line : String)

/-- A body that writes its lines without paging. -/
def unpaged (start : Unpaged) : Body where
  State := Unpaged
  start := start
  next
    | .load path => .load path fun text => .copy (some (lines text))
    | .copy none => .read .line fun
      | some line => .write line
      | none => .copy (some [])
    | .copy (some []) => .finish (.ok ())
    | .copy (some (line :: rest)) => .output (.writeLine line) (.copy (some rest))
    | .write line => .output (.writeLine line) (.copy none)

end Paging

open Paging in
def more : Command where
  name := "more"
  description := "Show a file or piped input one screen at a time."
  signature := .plain [] [.ofText "file" "File to show."] []
  body context call :=
    let width := context.window.1.getD defaultWidth
    let height := context.window.2.getD defaultHeight
    match call.argument? "file" with
    | some path =>
      if context.outputPiped then unpaged (.load path) else paged width height (.load path)
    | none =>
      if !context.inputPiped then
        .failing (.message "Without a file argument a piped input is expected for this command.")
      else if context.outputPiped then unpaged (.copy none)
      else paged width height (.nextLine none (max (height - 1) 1))

end CommandShell.Builtin
