import CommandShell.Queue

/-!
Bounded queues of characters between the stages of a pipeline.  `cancelled` is always that of the
pipeline's token.
-/

namespace CommandShell

universe u v

/-- What an attempt to take something from a source comes to, with the source afterwards. -/
inductive Take (α : Type u) (σ : Type v) where
  | got (a : α) (source : σ)
  /-- There is nothing more to read. -/
  | ended (source : σ)
  /-- There may be something later. -/
  | blocked (source : σ)

/-- The queue between a stage and the next one. -/
structure Link where
  capacity : Nat
  queue : Queue Char := .empty
  /-- The writing stage is done. -/
  writerDone : Bool := false
  /-- The reading stage is done, so what is written is dropped. -/
  readerDone : Bool := false
  deriving Repr

namespace Link

/-- The capacity unless told otherwise. -/
def defaultCapacity : Nat := 10240

/-- An empty link that holds at least one character. -/
def new (capacity : Nat) : Link := { capacity := max capacity 1 }

/-- What an attempt to write one character comes to. -/
inductive Push where
  | pushed (link : Link)
  | dropped
  | blocked

/-- Writes one character. -/
def push (cancelled : Bool) (l : Link) (c : Char) : Push :=
  if l.readerDone || cancelled then .dropped
  else if l.queue.size ≥ l.capacity then .blocked
  else .pushed { l with queue := l.queue.push c }

/-- Writes characters as far as they go: the link and what is still to be written. -/
def write (cancelled : Bool) (l : Link) : List Char → Link × List Char
  | [] => (l, [])
  | c :: cs =>
    match l.push cancelled c with
    | .pushed l => l.write cancelled cs
    | .dropped => (l, [])
    | .blocked => (l, c :: cs)

/-- The next character if there is one. -/
def tryRead (l : Link) : Option Char × Link :=
  match l.queue.pop? with
  | none => (none, l)
  | some (c, queue) => (some c, { l with queue })

/-- The next character.  There is none once the writer is done or the pipeline is cancelled. -/
def readChar (cancelled : Bool) (l : Link) : Take Char Link :=
  if cancelled then .ended l
  else
    match l.tryRead with
    | (some c, l) => .got c l
    | (none, l) => if l.writerDone then .ended l else .blocked l

def isEnded (cancelled : Bool) (l : Link) : Bool :=
  cancelled || (l.writerDone && l.queue.isEmpty)

/-- Forgets what is queued. -/
def flush (l : Link) : Link := { l with queue := .empty }

def endWriting (l : Link) : Link := { l with writerDone := true }

def endReading (l : Link) : Link := { l with readerDone := true, queue := .empty }

end Link

end CommandShell
