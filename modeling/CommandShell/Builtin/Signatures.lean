import CommandShell.Schema.Basic

/-!
Signatures of the usual shapes.
-/

namespace CommandShell

/-- A parameter that takes any text. -/
def Parameter.ofText (name description : String) : Parameter := ⟨name, description, Converter.text⟩

/-- An option without a value. -/
def OptionSpec.flag (name description : String) : OptionSpec := ⟨name, description, none⟩

namespace Schema

/-- Options under their names. -/
def optionsOf (specs : List OptionSpec) : Dict OptionSpec :=
  Dict.ofList (specs.map fun o => (o.name, o))

end Schema

namespace Signature

/-- The signature of a command without subcommands. -/
def plain (required optional : List Parameter) (flags : List OptionSpec) : Signature :=
  { root := some { required, optional, optionalOptions := Schema.optionsOf flags } }

end Signature

end CommandShell
