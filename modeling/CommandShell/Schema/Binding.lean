import CommandShell.Line.Arguments
import CommandShell.Schema.Basic
import CommandShell.Text.Padding

/-!
Arguments matched against a signature.
-/

namespace CommandShell

open Text Line

/-- Why arguments do not fit a signature.  A fault within a subcommand names it. -/
inductive BindError where
  | missingSubcommand
  | unknownSubcommand (name listing : String)
  | missingArguments (subcommand : Option String) (count : Nat)
  | tooManyArguments (subcommand : Option String) (count : Nat)
  | missingOption (subcommand : Option String) (name : String)
  | missingValue (subcommand : Option String) (name : String)
  | unexpectedValue (subcommand : Option String) (name : String)
  | unexpectedOption (subcommand : Option String) (name : String)
  | conversion (name reason : String)
  deriving DecidableEq, Repr

namespace BindError

/-- The subcommand's name and a blank. -/
def qualifier : Option String → String
  | none => ""
  | some name => name ++ " "

def optionLabel : Option String → String
  | none => "Option"
  | some name => name ++ " option"

def message : BindError → String
  | missingSubcommand => "A subcommand must be provided."
  | unknownSubcommand name listing => s!"Unknown subcommand '{name}'. Possible subcommands:\n{listing}"
  | missingArguments sub count =>
    let plural := if count = 1 then "" else "s"
    s!"Missing {count} required {qualifier sub}argument{plural}."
  | tooManyArguments sub count => s!"{count} too many {qualifier sub}arguments."
  | missingOption sub name => s!"Missing required {qualifier sub}option '-{name}'."
  | missingValue sub name => s!"{optionLabel sub} '-{name}' is missing a value."
  | unexpectedValue sub name => s!"{optionLabel sub} '-{name}' is not supposed to have a value."
  | unexpectedOption sub name => s!"Unexpected {qualifier sub}option '-{name}'."
  | conversion name reason => s!"{name}: {reason}"

end BindError

/-- Values under names, in the order in which they were bound. -/
structure ValueSet where
  entries : List (String × Value) := []
  deriving DecidableEq, Repr

namespace ValueSet

def push (vs : ValueSet) (name : String) (value : Value) : ValueSet :=
  ⟨vs.entries ++ [(lowercase name, value)]⟩

def get? (vs : ValueSet) (name : String) : Option Value :=
  (vs.entries.find? fun e => eqIgnoringCase e.1 name).map (·.2)

def contains (vs : ValueSet) (name : String) : Bool := (vs.get? name).isSome

/-- The value under a name, if it is a text. -/
def text? (vs : ValueSet) (name : String) : Option String :=
  match vs.get? name with
  | some (.text s) => some s
  | _ => none

/-- The value under a name, if it is a number of the type. -/
def number? (vs : ValueSet) (type : NumberType) (name : String) : Option Int :=
  match vs.get? name with
  | some (.number t n) => if t = type then some n else none
  | _ => none

def names (vs : ValueSet) : List String := vs.entries.map (·.1)
def size (vs : ValueSet) : Nat := vs.entries.length
def isEmpty (vs : ValueSet) : Bool := vs.entries.isEmpty

end ValueSet

/-- The values bound by a schema: that of `subcommand`, or that of no subcommand. -/
structure Binding where
  subcommand : Option String
  arguments : ValueSet
  options : ValueSet
  deriving DecidableEq, Repr

namespace Binding

/-- The schema that bound the values. -/
def schema (b : Binding) (sig : Signature) : Schema :=
  let found := match b.subcommand with
    | some name => sig.find? name
    | none => sig.root
  found.getD .root

end Binding

namespace Signature

/-- A row for each subcommand, with its name and its description.  The column's width is counted in
bytes, the blanks that fill it in characters. -/
def subcommandListing (sig : Signature) : String :=
  let width := (sig.subcommands.map (·.name.utf8ByteSize)).foldl max 0
  joinLines <| sig.subcommands.map fun s => "  " ++ padRight width s.name ++ "  " ++ s.description

/-- The schema for some arguments, and what is left of them: a first value that names a subcommand
selects it and is used up. -/
def select (sig : Signature) (raw : RawArguments) : Except BindError (Schema × RawArguments) :=
  match raw.positional.head?.bind sig.find? with
  | some schema => .ok (schema, { raw with positional := raw.positional.tail })
  | none =>
    match sig.root with
    | some root => .ok (root, raw)
    | none =>
      if sig.subcommands.isEmpty then .ok (.root, raw)
      else
        match raw.positional with
        | [] => .error .missingSubcommand
        | name :: _ => .error (.unknownSubcommand name sig.subcommandListing)

end Signature

namespace Schema

/-- The subcommand that faults name. -/
def label (s : Schema) : Option String := if s.isSubcommand then some s.name else none

/-- Converts values in order. -/
def convertAll : List (Parameter × String) → ValueSet → Except BindError ValueSet
  | [], vs => .ok vs
  | (p, text) :: rest, vs =>
    match p.convert text with
    | .error reason => .error (.conversion p.name reason)
    | .ok value => convertAll rest (vs.push p.name value)

/-- Gives values to the parameters. -/
def bindArguments (s : Schema) (values : List String) : Except BindError ValueSet :=
  let required := s.required.length
  let most := required + s.optional.length
  if values.length < required then .error (.missingArguments s.label (required - values.length))
  else if values.length > most then .error (.tooManyArguments s.label (values.length - most))
  else convertAll (s.parameters.zip values) {}

/-- The value of a given option. -/
def optionValue (s : Schema) (spec : OptionSpec) (raw : RawOption) : Except BindError Value :=
  match spec.convert, raw.value with
  | some convert, some text =>
    match convert text with
    | .error reason => .error (.conversion ("-" ++ spec.name) reason)
    | .ok value => .ok value
  | some _, none => .error (.missingValue s.label spec.name)
  | none, some _ => .error (.unexpectedValue s.label spec.name)
  | none, none => .ok (.truth true)

/-- The options bound so far and those still to be bound. -/
structure OptionState where
  bound : ValueSet
  rest : Dict RawOption

def bindOption (s : Schema) (st : OptionState) (spec : OptionSpec) (name : String)
    (raw : RawOption) : Except BindError OptionState :=
  (s.optionValue spec raw).map fun value => ⟨st.bound.push name value, st.rest.erase name⟩

/-- Binds the required options in the order of their names. -/
def bindRequired (s : Schema) (st : OptionState) :
    List (String × OptionSpec) → Except BindError OptionState
  | [] => .ok st
  | (name, spec) :: specs =>
    match st.rest.get? name with
    | none => .error (.missingOption s.label name)
    | some raw =>
      match s.bindOption st spec name raw with
      | .error e => .error e
      | .ok st => s.bindRequired st specs

/-- Binds those of the optional options that are given, in the order of their names. -/
def bindOptional (s : Schema) (st : OptionState) :
    List (String × OptionSpec) → Except BindError OptionState
  | [] => .ok st
  | (name, spec) :: specs =>
    match st.rest.get? name with
    | none => s.bindOptional st specs
    | some raw =>
      match s.bindOption st spec name raw with
      | .error e => .error e
      | .ok st => s.bindOptional st specs

/-- The option that was given first. -/
def firstGiven : List RawOption → Option RawOption
  | [] => none
  | o :: os =>
    match firstGiven os with
    | none => some o
    | some p => if p.position < o.position then some p else some o

/-- Binds the given options.  Of two with one small form the later counts. -/
def bindOptions (s : Schema) (given : List RawOption) : Except BindError ValueSet :=
  let rest := Dict.ofList (given.map fun o => (lowercase o.name, o))
  match s.bindRequired ⟨{}, rest⟩ s.requiredOptions.entries with
  | .error e => .error e
  | .ok st =>
    match s.bindOptional st s.optionalOptions.entries with
    | .error e => .error e
    | .ok st =>
      match firstGiven st.rest.values with
      | some o => .error (.unexpectedOption s.label o.name)
      | none => .ok st.bound

end Schema

/-- Matches arguments against a signature. -/
def bind (sig : Signature) (raw : RawArguments) : Except BindError Binding :=
  match sig.select raw with
  | .error e => .error e
  | .ok (schema, raw) =>
    match schema.bindArguments raw.positional with
    | .error e => .error e
    | .ok arguments =>
      (schema.bindOptions raw.options).map (⟨schema.label, arguments, ·⟩)

end CommandShell
