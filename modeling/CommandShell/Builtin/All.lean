import CommandShell.Builtin.Copying
import CommandShell.Builtin.Paging
import CommandShell.Builtin.Shell
import CommandShell.Command.Registry
import CommandShell.Config.Basic

/-!
The commands that every host has unless they are disabled.
-/

namespace CommandShell.Builtin

/-- All built-in commands, by name. -/
def all : List Command :=
  [cls, echo, env, exit, grep, help, history, more, passthrough, reverse, session, sleep, tee, throw]

/-- The group of the built-in commands. -/
def group (c : CommandsConfig) : Group := ⟨c.groupQualifier, "System", true⟩

/-- The built-in commands that are not disabled. -/
def enabled (c : CommandsConfig) : List Command := all.filter fun command => !c.isDisabled command.name

/-- Registers the built-in commands that are not disabled. -/
def register (c : CommandsConfig) (r : Registry) : Except ShellError Unit × Registry :=
  r.registerAll (group c) (enabled c)

end CommandShell.Builtin
