import CommandShell.Line.Lexer
import CommandShell.Text.Case
import CommandShell.Text.Pieces

/-!
The tokens of a line grouped into the stages of a pipeline and the redirects after them.
-/

namespace CommandShell.Line

open Text

/-- The tokens of one stage, with the part of the line they were read from. -/
structure Segment where
  tokens : List Token
  position : Nat
  text : String
  deriving DecidableEq, Repr

/-- A line's stages and redirects, in the order written. -/
structure CommandLine where
  segments : List Segment
  redirects : List Redirect
  deriving DecidableEq, Repr

/-- The non-empty runs of tokens between pipes. -/
def stages (ts : List Token) : List (List Token) :=
  (pieces (·.kind == .pipe) ts).filter (!·.isEmpty)

/-- Each redirect operator with the tokens up to the next one. -/
def redirectGroups : List Token → List (Token × List Token)
  | [] => []
  | t :: ts =>
    if t.kind = .redirect then (t, ts.takeWhile (·.kind != .redirect)) :: redirectGroups ts
    else redirectGroups ts

/-- The position of the first token. -/
def startOf : List Token → Nat
  | [] => 0
  | t :: _ => t.position

/-- The characters at the positions from `start` up to but without `stop`. -/
def slice (chars : List Char) (start stop : Nat) : List Char :=
  (chars.drop (start - 1)).take (stop - start)

/-- A stage's part of the line: trimmed, and without the pipes it ends in. -/
def sourceText (chars : List Char) (start stop : Nat) : String :=
  String.ofList <|
    dropTrailing isBlank <| dropTrailing (· == '|') <|
      trimChars <| slice chars start (min stop (chars.length + 1))

/-- The segments of some stages, of which the last one's text ends before `stop`. -/
def segmentsOf (chars : List Char) (stop : Nat) : List (List Token) → List Segment
  | [] => []
  | ts :: rest =>
    let textStop := match rest with
      | [] => stop
      | next :: _ => startOf next
    ⟨ts, startOf ts, sourceText chars (startOf ts) textStop⟩ :: segmentsOf chars stop rest

/-- The stream that an operator redirects, and whether it appends. -/
def operatorMeaning : String → Option (Stream × Bool)
  | "<" => some (.input, false)
  | ">" | "1>" => some (.output, false)
  | ">>" | "1>>" => some (.output, true)
  | "2>" => some (.errorOutput, false)
  | "2>>" => some (.errorOutput, true)
  | _ => none

/-- Where the target of a redirect points.  Only an unquoted target can be the null word or an
alias. -/
def endpointOf (operator target : Token) (nullWord : String) : Except ParseError Endpoint :=
  if target.quoted then
    if target.text.isEmpty then .error (.emptyRedirectTarget operator.text operator.position)
    else .ok (.path target.text)
  else if eqIgnoringCase target.text nullWord then .ok .null
  else if target.text = "&1" then .ok .sameAsOutput
  else if target.text = "&2" then .ok .sameAsErrorOutput
  else if target.text.toList.head? = some '&' then
    .error (.unknownAlias target.text target.position)
  else .ok (.path target.text)

/-- The redirect of an operator with the tokens after it: exactly one word. -/
def redirectOf (nullWord : String) (operator : Token) (targets : List Token) :
    Except ParseError Redirect :=
  let missing := .error (.missingRedirectTarget operator.text operator.position)
  match targets with
  | _ :: extra :: _ => .error (.extraRedirectTarget operator.text extra.text extra.position)
  | [] => missing
  | [target] =>
    if target.isWord then
      match operatorMeaning operator.text with
      | none => .error (.unexpectedToken operator.text operator.position)
      | some (stream, append) =>
        (endpointOf operator target nullWord).map (⟨stream, append, ·, operator.position⟩)
    else missing

/-- Groups the tokens of a line.  All pipes come before the first redirect. -/
def group (line : String) (tokens : List Token) (nullWord : String) :
    Except ParseError CommandLine :=
  let chars := line.toList
  let commandTokens := tokens.takeWhile (·.kind != .redirect)
  let redirectTokens := tokens.dropWhile (·.kind != .redirect)
  match redirectTokens.find? (·.kind == .pipe) with
  | some pipe => .error (.redirectBeforeCommand pipe.text pipe.position)
  | none =>
    let stop := match redirectTokens with
      | [] => chars.length + 1
      | first :: _ => first.position
    ((redirectGroups redirectTokens).mapM fun g => redirectOf nullWord g.1 g.2).map
      (⟨segmentsOf chars stop (stages commandTokens), ·⟩)

/-- The default word for the null device. -/
def defaultNullWord : String := "null"

/-- The stages and redirects of a line. -/
def parse (line : String) (nullWord : String := defaultNullWord) : Except ParseError CommandLine :=
  (tokenize line).bind fun tokens => group line tokens nullWord

end CommandShell.Line
