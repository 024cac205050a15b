import CommandShell.Dict
import CommandShell.Schema.Value
import CommandShell.Text.Blank
import CommandShell.Text.Case

/-!
What arguments a command takes: schemas, and signatures that hold one for each subcommand.
-/

namespace CommandShell

open Text

/-- A positional parameter. -/
structure Parameter where
  name : String
  description : String
  convert : Converter

/-- A named option.  One without a converter is a flag, which has no value. -/
structure OptionSpec where
  name : String
  description : String
  convert : Option Converter

def OptionSpec.hasValue (o : OptionSpec) : Bool := o.convert.isSome

/-- One shape of arguments: that of a subcommand, or that of no subcommand if the name is empty.
Names are held in small letters. -/
structure Schema where
  name : String := ""
  description : String := ""
  required : List Parameter := []
  optional : List Parameter := []
  requiredOptions : Dict OptionSpec := .empty
  optionalOptions : Dict OptionSpec := .empty

/-- A mistake in the declaration of a command. -/
inductive DeclarationFault where
  | invalidSubcommand (name : String)
  | requiredAfterOptional (name : String)
  | parameterTwice (name : String)
  | optionTwice (name : String)
  | namedRoot
  | rootTwice
  | namelessSubcommand
  | subcommandTwice (name : String)
  deriving DecidableEq, Repr

def DeclarationFault.message : DeclarationFault → String
  | invalidSubcommand name => s!"invalid subcommand name '{name}'"
  | requiredAfterOptional name => s!"required parameter '{name}' declared after an optional one"
  | parameterTwice name => s!"parameter '{name}' declared twice"
  | optionTwice name => s!"option '{name}' declared twice"
  | namedRoot => "root schema must not have a name"
  | rootTwice => "root schema declared twice"
  | namelessSubcommand => "subcommand schema needs a name"
  | subcommandTwice name => s!"subcommand '{name}' declared twice"

namespace Schema

/-- The shape of a command called without a subcommand. -/
def root : Schema := {}

/-- The shape of a subcommand, whose name is a word. -/
def subcommand (name description : String) : Except DeclarationFault Schema :=
  if name.isEmpty || name.toList.any (fun c => isBlank c || isControl c) then
    .error (.invalidSubcommand name)
  else .ok { name := lowercase name, description }

def isSubcommand (s : Schema) : Bool := !s.name.isEmpty

/-- The parameters in the order in which values are given to them. -/
def parameters (s : Schema) : List Parameter := s.required ++ s.optional

def hasParameter (s : Schema) (name : String) : Bool := s.parameters.any (·.name == name)

def hasOption (s : Schema) (name : String) : Bool :=
  s.requiredOptions.contains name || s.optionalOptions.contains name

/-- Something to add to a schema. -/
inductive Item where
  | required (name description : String) (convert : Converter)
  | optional (name description : String) (convert : Converter)
  | requiredOption (name description : String) (convert : Converter)
  | option (name description : String) (convert : Converter)
  | flag (name description : String)

def addOption (s : Schema) (required : Bool) (name description : String)
    (convert : Option Converter) : Except DeclarationFault Schema :=
  let name := lowercase name
  let spec : OptionSpec := ⟨name, description, convert⟩
  if s.hasOption name then .error (.optionTwice name)
  else if required then .ok { s with requiredOptions := s.requiredOptions.insert name spec }
  else .ok { s with optionalOptions := s.optionalOptions.insert name spec }

/-- Adds one item.  Names are different and required parameters come before optional ones. -/
def add (s : Schema) : Item → Except DeclarationFault Schema
  | .required name description convert =>
    let name := lowercase name
    if !s.optional.isEmpty then .error (.requiredAfterOptional name)
    else if s.hasParameter name then .error (.parameterTwice name)
    else .ok { s with required := s.required ++ [⟨name, description, convert⟩] }
  | .optional name description convert =>
    let name := lowercase name
    if s.hasParameter name then .error (.parameterTwice name)
    else .ok { s with optional := s.optional ++ [⟨name, description, convert⟩] }
  | .requiredOption name description convert => s.addOption true name description (some convert)
  | .option name description convert => s.addOption false name description (some convert)
  | .flag name description => s.addOption false name description none

/-- Adds items one after another. -/
def addAll (s : Schema) (items : List Item) : Except DeclarationFault Schema := items.foldlM add s

end Schema

/-- Every schema of a command. -/
structure Signature where
  root : Option Schema := none
  subcommands : List Schema := []

namespace Signature

/-- The subcommand of a name. -/
def find? (sig : Signature) (name : String) : Option Schema :=
  sig.subcommands.find? fun s => eqIgnoringCase s.name name

/-- Sets the shape without a subcommand. -/
def withRoot (sig : Signature) (schema : Schema) : Except DeclarationFault Signature :=
  if schema.isSubcommand then .error .namedRoot
  else if sig.root.isSome then .error .rootTwice
  else .ok { sig with root := some schema }

/-- Adds a subcommand. -/
def withSubcommand (sig : Signature) (schema : Schema) : Except DeclarationFault Signature :=
  if !schema.isSubcommand then .error .namelessSubcommand
  else if (sig.find? schema.name).isSome then .error (.subcommandTwice schema.name)
  else .ok { sig with subcommands := sig.subcommands ++ [schema] }

/-- A signature that declares nothing is that of a command without arguments. -/
def normalized (sig : Signature) : Signature :=
  if sig.root.isNone && sig.subcommands.isEmpty then { sig with root := some .root } else sig

/-- All schemas, that without a subcommand first. -/
def schemas (sig : Signature) : List Schema := sig.root.toList ++ sig.subcommands

end Signature

end CommandShell
