import CommandShell.Command.Basic

/-!
The commands of a host.
-/

namespace CommandShell

open Text

/-- A command in a group. -/
structure Registered where
  command : Command
  group : Group

namespace Registered

def signature (r : Registered) : Signature := r.command.signature.normalized

def entry (r : Registered) : Entry :=
  { name := r.command.name
    description := r.command.description
    group := r.group
    signature := r.signature }

end Registered

/-- Commands in the order in which they were registered. -/
structure Registry where
  commands : List Registered := []

namespace Registry

def entries (r : Registry) : List Entry := r.commands.map (·.entry)

def size (r : Registry) : Nat := r.commands.length

/-- Adds a command, unless its qualified name is taken. -/
def register (r : Registry) (group : Group) (command : Command) : Except ShellError Registry :=
  let added : Registered := ⟨command, group⟩
  let qualified := added.entry.qualifiedName
  if r.entries.any fun e => eqIgnoringCase e.qualifiedName qualified then
    .error (.duplicateCommand qualified)
  else .ok ⟨r.commands ++ [added]⟩

/-- Adds commands in order, up to the first one whose qualified name is taken. -/
def registerAll (r : Registry) (group : Group) : List Command → Except ShellError Unit × Registry
  | [] => (.ok (), r)
  | c :: cs =>
    match r.register group c with
    | .error e => (.error e, r)
    | .ok r => r.registerAll group cs

/-- The command that a name stands for. -/
def resolve (r : Registry) (name : String) : Except ShellError Registered :=
  Entry.select Registered.entry r.commands name

/-- The commands by qualified name. -/
def sorted (r : Registry) : List Entry := r.entries.mergeSort fun a b => a.sortKey ≤ b.sortKey

end Registry

end CommandShell
