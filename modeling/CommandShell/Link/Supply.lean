import CommandShell.Reading

/-!
A link whose writer has its text ready: the writer writes as far as it can whenever the reader
comes.
-/

namespace CommandShell

/-- A link, and the text that is still to be written to it. -/
structure Supply where
  link : Link
  rest : List Char
  deriving Repr

namespace Supply

/-- Writes on, and ends the link once all is written. -/
def refill (cancelled : Bool) (s : Supply) : Supply :=
  let (link, rest) := s.link.write cancelled s.rest
  ⟨if rest.isEmpty then link.endWriting else link, rest⟩

def tryRead (cancelled : Bool) (s : Supply) : Option Char × Supply :=
  let s := s.refill cancelled
  let (c, link) := s.link.tryRead
  (c, { s with link })

def readChar (cancelled : Bool) (s : Supply) : Take Char Supply :=
  let s := s.refill cancelled
  match s.link.readChar cancelled with
  | .got c link => .got c { s with link }
  | .ended link => .ended { s with link }
  | .blocked link => .blocked { s with link }

/-- How many characters can still be read. -/
def size (s : Supply) : Nat := s.link.queue.size + s.rest.length

def read (cancelled : Bool) (extent : Extent) (s : Supply) : Option String × Supply :=
  (Reading.run (tryRead cancelled) (readChar cancelled) (s.size + 3) (.start extent) s).getD (none, s)

/-- Reads pieces until there is none, `count` at most. -/
def readAll (cancelled : Bool) (extent : Extent) : (count : Nat) → Supply → List String × Supply
  | 0, s => ([], s)
  | count + 1, s =>
    match s.read cancelled extent with
    | (none, s) => ([], s)
    | (some piece, s) =>
      let (pieces, s) := s.readAll cancelled extent count
      (piece :: pieces, s)

end Supply

end CommandShell
