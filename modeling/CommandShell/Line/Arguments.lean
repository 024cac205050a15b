import CommandShell.Line.Error
import CommandShell.Line.Token
import CommandShell.Text.Case

/-!
The words of a stage after its command name, split into positional values and options.
-/

namespace CommandShell.Line

open Text

/-- An option as written: the name without its `-` or `/`, and the value of `-name=value`. -/
structure RawOption where
  name : String
  value : Option String
  position : Nat
  deriving DecidableEq, Repr

/-- Arguments that no schema has been applied to. -/
structure RawArguments where
  positional : List String := []
  options : List RawOption := []
  deriving DecidableEq, Repr

namespace RawArguments

def isEmpty (raw : RawArguments) : Bool := raw.positional.isEmpty && raw.options.isEmpty

def pushValue (raw : RawArguments) (text : String) : RawArguments :=
  { raw with positional := raw.positional ++ [text] }

def pushOption (raw : RawArguments) (option : RawOption) : RawArguments :=
  { raw with options := raw.options ++ [option] }

end RawArguments

def unexpected (t : Token) : ParseError := .unexpectedToken t.text t.position

/-- The option's name, unless the token is a lone sign or the name is taken. -/
def optionName (raw : RawArguments) (t : Token) : Except ParseError String :=
  match t.text.toList with
  | [_] => .error (unexpected t)
  | cs =>
    let name := String.ofList cs.tail
    if raw.options.any (fun o => eqIgnoringCase o.name name) then
      .error (.duplicateOption t.text t.position)
    else .ok name

/-- Adds the arguments that the tokens hold. -/
def splitFrom (raw : RawArguments) : List Token → Except ParseError RawArguments
  | [] => .ok raw
  | t :: ts =>
    match t.kind with
    | .value => splitFrom (raw.pushValue t.text) ts
    | .optionName =>
      match optionName raw t with
      | .error e => .error e
      | .ok name =>
        match ts with
        | [] => .ok (raw.pushOption ⟨name, none, t.position⟩)
        | eq :: rest =>
          if eq.kind = .equalSign then
            match rest with
            | [] => .error (unexpected eq)
            | v :: rest =>
              if v.isWord then splitFrom (raw.pushOption ⟨name, some v.text, t.position⟩) rest
              else .error (unexpected eq)
          else splitFrom (raw.pushOption ⟨name, none, t.position⟩) (eq :: rest)
    | .equalSign | .pipe | .redirect => .error (unexpected t)

/-- The arguments of a stage, whose first token is its command name. -/
def splitArguments (tokens : List Token) : Except ParseError RawArguments :=
  splitFrom {} tokens.tail

end CommandShell.Line
