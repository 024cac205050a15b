/-!
The tokens of a command line and the way each is spelled.
-/

namespace CommandShell.Line

/-- What a token is, as far as its spelling shows. -/
inductive TokenKind where
  /-- A plain or quoted word. -/
  | value
  /-- An unquoted word that starts with `-` or `/`. -/
  | optionName
  | equalSign
  | pipe
  /-- One of `<`, `>`, `>>`, `1>`, `1>>`, `2>`, `2>>`. -/
  | redirect
  deriving DecidableEq, Repr

def TokenKind.name : TokenKind → String
  | .value => "value"
  | .optionName => "option name"
  | .equalSign => "equal sign"
  | .pipe => "pipe"
  | .redirect => "redirect"

/-- A token; `position` is that of its first character, which is the quote if it is quoted. -/
structure Token where
  kind : TokenKind
  text : String
  position : Nat
  quoted : Bool := false
  deriving DecidableEq, Repr

/-- The token is a value or an option name. -/
def Token.isWord (t : Token) : Bool :=
  t.kind == .value || t.kind == .optionName

/-- Every quote of a text written twice. -/
def doubleQuotes : List Char → List Char
  | [] => []
  | c :: cs => if c = '"' then '"' :: '"' :: doubleQuotes cs else c :: doubleQuotes cs

/-- The characters that stand for the token in a line. -/
def Token.spelling (t : Token) : List Char :=
  if t.quoted then '"' :: (doubleQuotes t.text.toList ++ ['"']) else t.text.toList

end CommandShell.Line
