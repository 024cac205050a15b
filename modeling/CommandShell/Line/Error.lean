import CommandShell.Line.Redirect

/-!
What can be wrong with a command line before its commands are looked up.
-/

namespace CommandShell.Line

/-- A mistake in a line.  Positions count the line's characters from 1. -/
inductive ParseError where
  | emptyLine
  | noCommands
  | strayQuote (position : Nat)
  | unterminatedQuote (token : String) (position : Nat)
  | redirectBeforeCommand (token : String) (position : Nat)
  | missingRedirectTarget (operator : String) (position : Nat)
  | extraRedirectTarget (operator token : String) (position : Nat)
  | emptyRedirectTarget (operator : String) (position : Nat)
  | duplicateRedirect (position : Nat)
  | selfAlias (stream : Stream) (position : Nat)
  | missingAliasTarget (stream other : Stream) (position : Nat)
  | appendMismatch (position : Nat)
  | unknownAlias (target : String) (position : Nat)
  | invalidInputSource (source : String) (position : Nat)
  | sameFile (position : Nat)
  | unexpectedToken (token : String) (position : Nat)
  | duplicateOption (token : String) (position : Nat)
  | missingCommand (position : Nat)
  deriving DecidableEq, Repr

namespace ParseError

/-- The position that the mistake is reported at. -/
def position? : ParseError → Option Nat
  | emptyLine | noCommands => none
  | strayQuote p | unterminatedQuote _ p | redirectBeforeCommand _ p | missingRedirectTarget _ p
  | extraRedirectTarget _ _ p | emptyRedirectTarget _ p | duplicateRedirect p | selfAlias _ p
  | missingAliasTarget _ _ p | appendMismatch p | unknownAlias _ p | invalidInputSource _ p
  | sameFile p | unexpectedToken _ p | duplicateOption _ p | missingCommand p => some p

def message : ParseError → String
  | emptyLine => "Empty command line."
  | noCommands => "No commands to execute."
  | strayQuote p => s!"Found quote character in token at position {p}."
  | unterminatedQuote token p => s!"Missing end of quoted token '{token}' at position {p}."
  | redirectBeforeCommand token p =>
    s!"Input/output redirects must be after commands - error at token '{token}', position {p}."
  | missingRedirectTarget operator p =>
    s!"Redirect '{operator}' needs a source/target - error at position {p}."
  | extraRedirectTarget operator token p =>
    s!"Redirect '{operator}' can only have one source/target - error at token '{token}', position {p}."
  | emptyRedirectTarget operator p =>
    s!"Redirect '{operator}' has an empty source/target - error at position {p}."
  | duplicateRedirect p => s!"There can be only one redirect of each type - error at position {p}."
  | selfAlias stream p =>
    s!"Cannot redirect {stream.name} to itself (did you mean '2> &1' or '> &2'?) - error at position {p}."
  | missingAliasTarget stream other p =>
    s!"Attempt to redirect {stream.name} to the same as the {other.name}, but no {other.name} " ++
      s!"redirect exists - error at position {p}."
  | appendMismatch p => s!"Mismatch in redirect rewrite/append - error at position {p}."
  | unknownAlias target p =>
    s!"Unknown redirect target '{target}' (should be '&1' or '&2') - error at position {p}."
  | invalidInputSource source p =>
    s!"Input cannot be redirected from '{source}' - error at position {p}."
  | sameFile p =>
    "Output and error output can only be redirected to the same file by using '2> &1' or '> &2' " ++
      s!"- error at position {p}."
  | unexpectedToken token p => s!"Unexpected token '{token}' at position {p}."
  | duplicateOption token p => s!"Duplicate option '{token}' at position {p}."
  | missingCommand p => s!"Missing command at position {p}."

end ParseError

end CommandShell.Line
