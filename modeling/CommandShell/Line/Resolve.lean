import CommandShell.Home
import CommandShell.Line.Error

/-!
Redirects checked against each other and turned into what is to be opened.
-/

namespace CommandShell.Line

/-- Where the first stage reads from instead of the terminal. -/
inductive InputSource where
  | file (path : String)
  | null
  deriving DecidableEq, Repr

/-- Where output goes instead of the terminal. -/
inductive OutputTarget where
  | file (path : String) (append : Bool)
  | null
  deriving DecidableEq, Repr

/-- The redirects of a line, one for each stream at most.  `shared` means that output and error
output go through one open file. -/
structure Resolved where
  input : Option InputSource := none
  output : Option OutputTarget := none
  errorOutput : Option OutputTarget := none
  shared : Bool := false
  deriving DecidableEq, Repr

/-- The first redirect whose stream is among `seen` or has been redirected before it. -/
def firstDuplicate (seen : List Stream) : List Redirect → Option Redirect
  | [] => none
  | r :: rs => if r.stream ∈ seen then some r else firstDuplicate (r.stream :: seen) rs

/-- What a redirect that is no alias opens. -/
def Redirect.target? (r : Redirect) : Option OutputTarget :=
  match r.endpoint with
  | .path path => some (.file path r.append)
  | .null => some .null
  | .sameAsOutput | .sameAsErrorOutput => none

/-- What the redirect opens, where an alias has nothing to point at. -/
def standalone (other : Stream) (r : Redirect) : Except ParseError OutputTarget :=
  match r.target? with
  | some t => .ok t
  | none => .error (.missingAliasTarget r.stream other r.position)

/-- What `pointer` opens by pointing at `r`. -/
def aliasTarget (pointer r : Redirect) : Except ParseError OutputTarget :=
  match r.target? with
  | none => .error (.missingAliasTarget pointer.stream r.stream pointer.position)
  | some t => if pointer.append = r.append then .ok t else .error (.appendMismatch pointer.position)

def resolveInput (r : Redirect) : Except ParseError InputSource :=
  match r.endpoint with
  | .path path => .ok (.file path)
  | .null => .ok .null
  | .sameAsOutput => .error (.invalidInputSource "&1" r.position)
  | .sameAsErrorOutput => .error (.invalidInputSource "&2" r.position)

/-- A stream that is redirected to itself. -/
def selfAlias? (output errorOutput : Option Redirect) : Option ParseError :=
  match output.filter (·.endpoint = .sameAsOutput) with
  | some r => some (.selfAlias .output r.position)
  | none =>
    (errorOutput.filter (·.endpoint = .sameAsErrorOutput)).map (.selfAlias .errorOutput ·.position)

/-- The targets of output and error output, of which neither points at the other.  Paths are one file if `expand`
makes them one. -/
def resolveSeparate (expand : String → String) (output errorOutput : Option Redirect) :
    Except ParseError Resolved := do
  let out ← output.mapM (standalone .errorOutput)
  let err ← errorOutput.mapM (standalone .output)
  match out, err, errorOutput with
  | some (.file a _), some (.file b _), some r =>
    if expand a = expand b then throw (.sameFile r.position)
  | _, _, _ => pure ()
  return { output := out, errorOutput := err }

/-- The targets of output and error output.  The two can reach one file only by an alias. -/
def resolveOutputs (expand : String → String) (output errorOutput : Option Redirect) :
    Except ParseError Resolved :=
  match selfAlias? output errorOutput with
  | some e => .error e
  | none =>
    let joined (t : OutputTarget) : Resolved :=
      { output := some t, errorOutput := some t, shared := true }
    match output, errorOutput with
    | some out, some err =>
      if out.endpoint = .sameAsErrorOutput then (aliasTarget out err).map joined
      else if err.endpoint = .sameAsOutput then (aliasTarget err out).map joined
      else resolveSeparate expand output errorOutput
    | _, _ => resolveSeparate expand output errorOutput

/-- Checks a line's redirects, whose paths stand for those that `expand` makes of them. -/
def resolveBy (expand : String → String) (rs : List Redirect) : Except ParseError Resolved :=
  match firstDuplicate [] rs with
  | some r => .error (.duplicateRedirect r.position)
  | none => do
    let of (s : Stream) : Option Redirect := rs.find? (·.stream = s)
    let input ← (of .input).mapM resolveInput
    let outputs ← resolveOutputs expand (of .output) (of .errorOutput)
    return { outputs with input }

/-- Checks a line's redirects, whose paths may start at the home directory. -/
def resolve (home : Option String) (rs : List Redirect) : Except ParseError Resolved :=
  resolveBy (expandHome home) rs

end CommandShell.Line
