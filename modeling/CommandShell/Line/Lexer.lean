import CommandShell.Line.Error
import CommandShell.Line.Token
import CommandShell.Text.Blank

/-!
From the characters of a line to its tokens.  A character may be met again after it has ended the
token before it; `rank_lt_of_step` bounds how often.
-/

namespace CommandShell.Line

open Text

/-- The characters between tokens. -/
def isSeparator (c : Char) : Bool := isBlank c || isControl c

/-- The characters that end a word and start a token of their own. -/
def isOperator (c : Char) : Bool := c == '=' || c == '|' || c == '<' || c == '>'

namespace Lexer

inductive State where
  | between
  | word
  | quoted
  /-- After a quote inside a quoted token: it ends the token unless another quote follows. -/
  | quotePending
  /-- After `1` or `2` at the start of a word: a redirect operator if `>` follows. -/
  | digit
  /-- After `>`, `1>` or `2>`. -/
  | redirect
  deriving DecidableEq, Repr

/-- How often a character can be met again from the state on. -/
def State.rank : State → Nat
  | .between | .quoted => 0
  | .word | .quotePending | .redirect => 1
  | .digit => 2

end Lexer

/-- The tokens so far, and the token under way with its first position. -/
structure Lexer where
  state : Lexer.State := .between
  text : String := ""
  start : Nat := 0
  tokens : Array Token := #[]
  deriving Repr

namespace Lexer

/-- After one step on a character. -/
inductive Step where
  | consumed (next : Lexer)
  /-- The same character is to be met again. -/
  | again (next : Lexer)

/-- Starts a token at `pos`. -/
def beginToken (l : Lexer) (state : State) (text : String) (pos : Nat) : Lexer :=
  { l with state, text, start := pos }

/-- Ends the token under way as one of the given kind. -/
def finishToken (l : Lexer) (kind : TokenKind) (quoted : Bool := false) : Lexer :=
  { l with
    state := .between
    text := ""
    tokens := l.tokens.push ⟨kind, l.text, l.start, quoted⟩ }

def wordKind (text : String) : TokenKind :=
  match text.toList with
  | '-' :: _ | '/' :: _ => .optionName
  | _ => .value

def finishWord (l : Lexer) : Lexer := l.finishToken (wordKind l.text)

def finishQuoted (l : Lexer) : Lexer := l.finishToken .value true

def pushChar (l : Lexer) (c : Char) : Lexer := { l with text := l.text.push c }

/-- Adds a token of one character. -/
def single (l : Lexer) (kind : TokenKind) (c : Char) (pos : Nat) : Lexer :=
  { l with tokens := l.tokens.push ⟨kind, c.toString, pos, false⟩ }

/-- One character between tokens. -/
def stepBetween (l : Lexer) (c : Char) (pos : Nat) : Lexer :=
  if isSeparator c then l
  else if c = '"' then l.beginToken .quoted "" pos
  else if c = '=' then l.single .equalSign c pos
  else if c = '|' then l.single .pipe c pos
  else if c = '<' then l.single .redirect c pos
  else if c = '>' then l.beginToken .redirect ">" pos
  else if c = '1' ∨ c = '2' then l.beginToken .digit c.toString pos
  else l.beginToken .word c.toString pos

/-- One step on the character at `pos`. -/
def step (l : Lexer) (c : Char) (pos : Nat) : Except ParseError Step :=
  match l.state with
  | .between => .ok (.consumed (l.stepBetween c pos))
  | .word =>
    if isSeparator c then .ok (.consumed l.finishWord)
    else if c = '"' then .error (.strayQuote pos)
    else if isOperator c then .ok (.again l.finishWord)
    else .ok (.consumed (l.pushChar c))
  | .quoted =>
    if c = '"' then .ok (.consumed { l with state := .quotePending })
    else .ok (.consumed (l.pushChar c))
  | .quotePending =>
    if c = '"' then .ok (.consumed { l.pushChar c with state := .quoted })
    else .ok (.again l.finishQuoted)
  | .digit =>
    if c = '>' then .ok (.consumed { l.pushChar c with state := .redirect })
    else .ok (.again { l with state := .word })
  | .redirect =>
    if c = '>' then .ok (.consumed ((l.pushChar c).finishToken .redirect))
    else .ok (.again (l.finishToken .redirect))

theorem rank_lt_of_step {l m : Lexer} {c : Char} {pos : Nat} (h : l.step c pos = .ok (.again m)) :
    m.state.rank < l.state.rank := by
  cases hs : l.state <;> simp only [step, hs] at h <;> grind [State.rank, finishWord, finishQuoted, finishToken]

/-- Steps on the character at `pos` until it is consumed; `n` bounds the further steps. -/
def feed (c : Char) (pos : Nat) : (n : Nat) → (l : Lexer) → l.state.rank ≤ n → Except ParseError Lexer
  | n, l, hn =>
    match h : l.step c pos with
    | .error e => .error e
    | .ok (.consumed m) => .ok m
    | .ok (.again m) =>
      match n, hn with
      | 0, hn => absurd (rank_lt_of_step h) (by omega)
      | n + 1, hn => feed c pos n m (by have := rank_lt_of_step h; omega)

/-- The tokens of a line that ends here. -/
def finish (l : Lexer) : Except ParseError (List Token) :=
  match l.state with
  | .between => .ok l.tokens.toList
  | .word | .digit => .ok l.finishWord.tokens.toList
  | .quoted => .error (.unterminatedQuote ("\"" ++ l.text) l.start)
  | .quotePending => .ok l.finishQuoted.tokens.toList
  | .redirect => .ok (l.finishToken .redirect).tokens.toList

theorem rank_le_two (s : State) : s.rank ≤ 2 := by
  cases s <;> decide

/-- The tokens of a line from the character at `pos` on. -/
def run (l : Lexer) (pos : Nat) : List Char → Except ParseError (List Token)
  | [] => l.finish
  | c :: cs =>
    match feed c pos 2 l (rank_le_two _) with
    | .error e => .error e
    | .ok m => m.run (pos + 1) cs

end Lexer

/-- The tokens of a line; a blank line is a mistake. -/
def tokenize (line : String) : Except ParseError (List Token) :=
  if isAllBlank line then .error .emptyLine
  else Lexer.run {} 1 line.toList

end CommandShell.Line
