import CommandShell.Chain.Output
import CommandShell.Link
import CommandShell.Reading

/-!
The ends of a chain of stages: the first stage's input, the last stage's output, and the keys that
every stage can read.
-/

namespace CommandShell

/-- What the first stage reads. -/
inductive ChainInput where
  /-- What is typed. -/
  | terminal
  /-- The text of a file. -/
  | redirected (rest : List Char)
  /-- The null device. -/
  | null
  deriving DecidableEq, Repr

/-- The text of a redirected input. -/
structure Redirected where
  rest : List Char
  deriving DecidableEq, Repr

namespace Redirected

def tryRead (r : Redirected) : Option Char × Redirected :=
  match r.rest with
  | [] => (none, r)
  | c :: rest => (some c, ⟨rest⟩)

def readChar (cancelled : Bool) (r : Redirected) : Take Char Redirected :=
  if cancelled then .ended r
  else
    match r.tryRead with
    | (some c, r) => .got c r
    | (none, r) => .ended r

def isEnded (cancelled : Bool) (r : Redirected) : Bool := cancelled || r.rest.isEmpty

def flush (_ : Redirected) : Redirected := ⟨[]⟩

end Redirected

/-- What has been typed and not yet been read: by each stage as keys, and by the first stage as
text if it reads the terminal. -/
structure Typing where
  keys : List (List Key)
  text : Option (List Char) := none
  deriving DecidableEq, Repr

namespace Typing

/-- A typed character as text, in which a line ends with a line feed. -/
def charOf? : Key → Option Char
  | .char c => some (if c = '\r' then '\n' else c)
  | _ => none

/-- Hands keys to all that read them. -/
def push (t : Typing) (keys : List Key) : Typing :=
  { keys := t.keys.map (· ++ keys), text := t.text.map (· ++ keys.filterMap charOf?) }

end Typing

/-- The ends of a chain, the token of its pipeline, and the world around. -/
structure Ends where
  world : World
  token : TokenId
  pollInterval : Nat := 20
  /-- Whether keys can be fetched from the terminal. -/
  fetches : Bool := true
  typing : Typing
  input : ChainInput
  output : ChainOutput

namespace Ends

def isCancelled (e : Ends) : Bool := e.world.isCancelled e.token

def cancel (e : Ends) : Ends := { e with world := e.world.cancel e.token }

/-- Fetches keys from the terminal; whether any have come. -/
def pump (e : Ends) : Bool × Ends :=
  let (keys, world) := e.world.readKeys
  match keys with
  | none | some [] => (false, { e with world })
  | some keys => (true, { e with world, typing := e.typing.push keys })

/-- Takes the first typed character. -/
def popText (e : Ends) : Option Char × Ends :=
  match e.typing.text with
  | some (c :: rest) => (some c, { e with typing := { e.typing with text := some rest } })
  | _ => (none, e)

/-- The next character of the input if there is one. -/
def tryRead (e : Ends) : Option Char × Ends :=
  match e.input with
  | .null => (none, e)
  | .redirected rest =>
    let (c, r) := Redirected.tryRead ⟨rest⟩
    (c, { e with input := .redirected r.rest })
  | .terminal =>
    match e.popText with
    | (some c, e) => (some c, e)
    | (none, e) => e.pump.2.popText

/-- The next character of the input.  From the terminal it may have to be waited for. -/
def readChar (e : Ends) : Take Char Ends :=
  match e.input with
  | .null => .ended e
  | .redirected rest =>
    match Redirected.readChar e.isCancelled ⟨rest⟩ with
    | .got c r => .got c { e with input := .redirected r.rest }
    | .ended r | .blocked r => .ended { e with input := .redirected r.rest }
  | .terminal =>
    if e.isCancelled then .ended e
    else
      match e.popText with
      | (some c, e) => .got c e
      | (none, e) =>
        let (arrived, e) := e.pump
        if arrived then
          if e.isCancelled then .ended e
          else
            match e.popText with
            | (some c, e) => .got c e
            | (none, e) => .blocked e
        else .blocked e

def isEnded (e : Ends) : Bool :=
  match e.input with
  | .null => true
  | .redirected rest => Redirected.isEnded e.isCancelled ⟨rest⟩
  | .terminal => e.isCancelled

/-- Forgets the text that has been typed and not been read. -/
def dropText (e : Ends) : Ends :=
  { e with typing := { e.typing with text := e.typing.text.map fun _ => [] } }

/-- Forgets the input that has come so far. -/
def flushInput (e : Ends) : Ends :=
  match e.input with
  | .null => e
  | .redirected _ => { e with input := .redirected [] }
  | .terminal => e.pump.2.dropText

/-- Takes the first key of a stage. -/
def popKey (e : Ends) (stage : Nat) : Option Key × Ends :=
  match e.typing.keys[stage]? with
  | some (k :: rest) =>
    (some k, { e with typing := { e.typing with keys := e.typing.keys.set stage rest } })
  | _ => (none, e)

/-- The next key of a stage if there is one. -/
def tryKey (e : Ends) (stage : Nat) : Option Key × Ends :=
  match e.popKey stage with
  | (some k, e) => (some k, e)
  | (none, e) => if e.fetches then e.pump.2.popKey stage else (none, e)

/-- The next key of a stage, which may have to be waited for. -/
def readKey (e : Ends) (stage : Nat) : Take Key Ends :=
  match e.tryKey stage with
  | (some k, e) => .got k e
  | (none, e) => if e.isCancelled || !e.fetches then .ended e else .blocked e

/-- Forgets the keys of a stage that it has not read. -/
def dropKeys (e : Ends) (stage : Nat) : Ends :=
  { e with typing := { e.typing with keys := e.typing.keys.set stage [] } }

/-- Forgets the keys of a stage that have come so far. -/
def flushKeys (e : Ends) (stage : Nat) : Ends := (if e.fetches then e.pump.2 else e).dropKeys stage

/-- Repeats an attempt until it succeeds or there is nothing to wait for. -/
def await {α : Type} (attempt : Ends → Take α Ends) : (fuel : Nat) → Ends → Take α Ends
  | 0, e => .blocked e
  | fuel + 1, e =>
    match attempt e with
    | .blocked e => if e.isCancelled then .ended e else await attempt fuel e
    | taken => taken

/-- Reads from the input; none if the fuel runs out. -/
def read (fuel : Nat) (extent : Extent) (e : Ends) : Option (Option String × Ends) :=
  Reading.run tryRead (await readChar fuel) fuel (.start extent) e

/-- Reads the keys of a stage up to Enter; the line that they make. -/
def readTypedLine (stage : Nat) : (fuel : Nat) → (line : String) → Ends → Option String × Ends
  | 0, _, e => (none, e)
  | fuel + 1, line, e =>
    match await (readKey · stage) fuel e with
    | .got (.char c) e =>
      if c = '\n' || c = '\r' then (some line, e) else readTypedLine stage fuel (line.push c) e
    | .got _ e => readTypedLine stage fuel line e
    | .ended e | .blocked e => (none, e)

end Ends

end CommandShell
