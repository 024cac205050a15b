import CommandShell.Schema.Basic
import CommandShell.Text.Padding

/-!
The help text of a command, made from its signature.
-/

namespace CommandShell

open Text

namespace Schema

/-- How a command is used: its name, the subcommand, the options and the parameters. -/
def synopsis (command : String) (s : Schema) : String :=
  let sub := if s.isSubcommand then [s.name] else []
  let required := s.requiredOptions.values.map fun o => s!"-{o.name}=<value>"
  let optional := s.optionalOptions.values.map fun o =>
    if o.hasValue then s!"[-{o.name}=<value>]" else s!"[-{o.name}]"
  let parameters := s.required.map (fun p => s!"<{p.name}>") ++ s.optional.map fun p => s!"[<{p.name}>]"
  " ".intercalate ([command] ++ sub ++ required ++ optional ++ parameters)

end Schema

namespace Help

/-- A row of a table: a name and its description. -/
abbrev Row := String × String

/-- The rows of a table, with the descriptions below each other. -/
def aligned (rows : List Row) : List String :=
  let width := (rows.map (·.1.length)).foldl max 0
  rows.map fun r =>
    String.ofList (dropTrailing isBlank ("  " ++ padRight width r.1 ++ "  " ++ r.2).toList)

/-- The rows without those whose name has come before. -/
def distinct (rows : List Row) : List Row :=
  rows.foldl (fun seen r => if seen.any (·.1 == r.1) then seen else seen ++ [r]) []

/-- A table under a title, unless it is empty. -/
def titled (title : String) (rows : List Row) : List String :=
  if rows.isEmpty then [] else "" :: title :: aligned rows

/-- The help text: description, usage, parameters, options and subcommands. -/
def render (command description : String) (sig : Signature) : String :=
  let schemas := sig.schemas
  let parameters := schemas.flatMap fun s => s.parameters.map fun p => (s!"<{p.name}>", p.description)
  let options := schemas.flatMap fun s =>
    (s.requiredOptions.values ++ s.optionalOptions.values).map fun o => ("-" ++ o.name, o.description)
  joinLines <|
    [description, "", "Usage:"] ++ schemas.map (fun s => "  " ++ s.synopsis command) ++
      titled "Parameters:" (distinct parameters) ++ titled "Options:" (distinct options) ++
      titled "Subcommands:" (sig.subcommands.map fun s => (s.name, s.description))

end Help

end CommandShell
