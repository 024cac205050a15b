/-!
Redirects as they are written on a command line.
-/

namespace CommandShell.Line

/-- The streams of a pipeline that a redirect can name. -/
inductive Stream where
  | input
  | output
  | errorOutput
  deriving DecidableEq, Repr

def Stream.name : Stream → String
  | .input => "input"
  | .output => "output"
  | .errorOutput => "error output"

/-- Where a redirect points. -/
inductive Endpoint where
  | path (path : String)
  /-- `&1`: the place of the output redirect. -/
  | sameAsOutput
  /-- `&2`: the place of the error output redirect. -/
  | sameAsErrorOutput
  /-- The null word: output is discarded, input is empty. -/
  | null
  deriving DecidableEq, Repr

/-- One redirect: the operator's position is the redirect's. -/
structure Redirect where
  stream : Stream
  append : Bool
  endpoint : Endpoint
  position : Nat
  deriving DecidableEq, Repr

end CommandShell.Line
