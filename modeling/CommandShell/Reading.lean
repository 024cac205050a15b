import CommandShell.Link

/-!
Reading more than one character: a piece of what has arrived, a line, or all there is.
-/

namespace CommandShell

universe u

/-- How much to read. -/
inductive Extent where
  | character
  /-- What has arrived, but at least one character. -/
  | chunk
  /-- Up to a line feed, which is left out with all carriage returns. -/
  | line
  | all
  deriving DecidableEq, Repr

/-- A read under way, with the text so far. -/
inductive Reading where
  | character
  | chunk (text : String)
  | line (text : String)
  /-- `eager` as long as only what has arrived is taken. -/
  | all (text : String) (eager : Bool)
  deriving DecidableEq, Repr

/-- The read goes on, or has its answer. -/
inductive Reading.Next where
  | more (r : Reading)
  | done (text : Option String)
  deriving DecidableEq, Repr

namespace Reading

def start : Extent → Reading
  | .character => .character
  | .chunk => .chunk ""
  | .line => .line ""
  | .all => .all "" false

/-- Whether the next character is taken only if it has arrived. -/
def isEager : Reading → Bool
  | .chunk text => !text.isEmpty
  | .all _ eager => eager
  | _ => false

/-- Goes on with a character, or without one where there is none to be had. -/
def feed : Reading → Option Char → Next
  | .character, c => .done (c.map Char.toString)
  | .chunk text, some c => .more (.chunk (text.push c))
  | .chunk text, none => .done (if text.isEmpty then none else some text)
  | .line text, some c =>
    if c = '\n' then .done (some text)
    else if c = '\r' then .more (.line text)
    else .more (.line (text.push c))
  | .line text, none => .done (if text.isEmpty then none else some text)
  | .all text _, some c => .more (.all (text.push c) true)
  | .all text true, none => .more (.all text false)
  | .all text false, none => .done (some text)

/-- One step of a read, from a source that gives characters at once or after waiting; none if it
has to wait. -/
def step {σ : Type u} (tryRead : σ → Option Char × σ) (readChar : σ → Take Char σ) (r : Reading)
    (source : σ) : Option Next × σ :=
  if r.isEager then
    let (c, source) := tryRead source
    (some (r.feed c), source)
  else
    match readChar source with
    | .got c source => (some (r.feed (some c)), source)
    | .ended source => (some (r.feed none), source)
    | .blocked source => (none, source)

/-- Reads on until there is an answer; none if the source blocks or the fuel runs out. -/
def run {σ : Type u} (tryRead : σ → Option Char × σ) (readChar : σ → Take Char σ) :
    (fuel : Nat) → Reading → σ → Option (Option String × σ)
  | 0, _, _ => none
  | fuel + 1, r, source =>
    match step tryRead readChar r source with
    | (none, _) => none
    | (some (.done text), source) => some (text, source)
    | (some (.more r), source) => run tryRead readChar fuel r source

end Reading

namespace Link

/-- Reads from a link without waiting. -/
def read (cancelled : Bool) (extent : Extent) (l : Link) : Option (Option String × Link) :=
  Reading.run tryRead (readChar cancelled) (l.queue.size + 3) (.start extent) l

end Link

end CommandShell
