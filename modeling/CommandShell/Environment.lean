import CommandShell.Dict
import CommandShell.Text.Case

/-!
Variables whose names are compared without regard to letter case.
-/

namespace CommandShell

/-- A variable as it was last set. -/
structure Variable where
  name : String
  value : String
  deriving DecidableEq, Repr

/-- Variables under the small form of their names. -/
structure Environment where
  vars : Dict Variable := .empty

namespace Environment

open Text

def get? (env : Environment) (name : String) : Option String :=
  (env.vars.get? (lowercase name)).map (·.value)

def set (env : Environment) (name value : String) : Environment :=
  ⟨env.vars.insert (lowercase name) ⟨name, value⟩⟩

def remove (env : Environment) (name : String) : Environment :=
  ⟨env.vars.erase (lowercase name)⟩

/-- The value of a variable, and the environment without it. -/
def take (env : Environment) (name : String) : Option String × Environment :=
  ((env.vars.get? (lowercase name)).map (·.value), env.remove name)

/-- The variables, ascending by the small form of their names. -/
def snapshot (env : Environment) : List Variable := env.vars.values

def size (env : Environment) : Nat := env.vars.size

/-- Sets variables one after another. -/
def ofList (vars : List (String × String)) : Environment :=
  vars.foldl (fun env v => env.set v.1 v.2) {}

end Environment

end CommandShell
