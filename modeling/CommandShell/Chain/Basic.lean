import CommandShell.Chain.Ends
import CommandShell.Chain.Worker

/-!
The stages of a pipeline at work.  Each stage takes a step at a time and any stage may be next; a
stage that has to wait for another one cannot take a step.
-/

namespace CommandShell

/-- A running pipeline: stage `i` writes to link `i` and reads from the link before, the first and
the last stage have the ends. -/
structure Chain where
  ends : Ends
  links : List Link
  workers : List Worker
  /-- The time in milliseconds. -/
  now : Nat := 0
  /-- The first of the stages that have finished after cancellation. -/
  cancelledAt : Option Nat := none
  /-- The failures of stages that have finished before, as the later stages left them. -/
  failures : List (Nat × StageError) := []

namespace Chain

def world (c : Chain) : World := c.ends.world

def withWorld (c : Chain) (w : World) : Chain := { c with ends := { c.ends with world := w } }

def isCancelled (c : Chain) : Bool := c.ends.isCancelled

def isFinished (c : Chain) : Bool := c.workers.all (·.isFinished)

def setWorker (c : Chain) (i : Nat) (w : Worker) : Chain :=
  { c with workers := c.workers.set i w }

def setLink (c : Chain) (i : Nat) (l : Link) : Chain := { c with links := c.links.set i l }

/-- The link that a stage reads from. -/
def linkBefore? (c : Chain) (i : Nat) : Option Link :=
  match i with
  | 0 => none
  | j + 1 => c.links[j]?

/-- The next character of a stage's input if there is one. -/
def tryRead (i : Nat) (c : Chain) : Option Char × Chain :=
  match c.linkBefore? i with
  | none =>
    let (x, ends) := c.ends.tryRead
    (x, { c with ends })
  | some l =>
    let (x, l) := l.tryRead
    (x, c.setLink (i - 1) l)

/-- The next character of a stage's input. -/
def readChar (i : Nat) (c : Chain) : Take Char Chain :=
  match c.linkBefore? i with
  | none =>
    match c.ends.readChar with
    | .got x ends => .got x { c with ends }
    | .ended ends => .ended { c with ends }
    | .blocked ends => .blocked { c with ends }
  | some l =>
    match l.readChar c.isCancelled with
    | .got x l => .got x (c.setLink (i - 1) l)
    | .ended l => .ended (c.setLink (i - 1) l)
    | .blocked l => .blocked (c.setLink (i - 1) l)

/-- Writes what waits for some files. -/
def flushFiles (c : Chain) (files : List FileId) : Chain :=
  c.withWorld (files.foldl World.flushFile c.world)

/-- Ends a stage's output: its link, or the output of the chain. -/
def endOutput (c : Chain) (i : Nat) : Chain :=
  match c.links[i]? with
  | some l => c.setLink i l.endWriting
  | none =>
    let (_, output, world) := c.ends.output.endOfCommand c.world
    { c with ends := { c.ends with output, world } }

/-- Ends a stage's input. -/
def endInput (c : Chain) (i : Nat) : Chain :=
  match c.linkBefore? i with
  | some l => c.setLink (i - 1) l.endReading
  | none => c

/-- Hands a failure down through the stages; none if one of them swallows it. -/
def relayAll : List Worker → StageError → Option StageError
  | [], e => some e
  | w :: ws, e => (w.relay e).bind (relayAll ws)

/-- Notes the result of a stage.  A cancelled pipeline has no results, only a first stage that
finished after it was cancelled. -/
def noteResult (c : Chain) (i : Nat) (w : Worker) (result : Except CommandError Unit) : Chain :=
  if c.isCancelled then
    { c with cancelledAt := some (match c.cancelledAt with
        | some first => min first i
        | none => i) }
  else
    match result with
    | .ok () => c
    | .error e =>
      match relayAll (c.workers.drop (i + 1)) (w.stageError e) with
      | some e => { c with failures := c.failures ++ [(i, e)] }
      | none => c

/-- Finishes a stage: its files are written, its output and its input are ended, and its result is
noted. -/
def complete (c : Chain) (i : Nat) (w : Worker) (result : Except CommandError Unit) : Chain :=
  (((c.flushFiles w.files).endOutput i).endInput i).setWorker i w.finish |>.noteResult i w result

/-- Finishes a stage that has asked for something that fails. -/
def fail (c : Chain) (i : Nat) (w : Worker) (e : CommandError) : Chain := c.complete i w (.error e)

/-- Starts an output action of a stage. -/
def output (c : Chain) (i : Nat) (w : Worker) (action : OutputAction) (next : w.body.State) : Chain :=
  match c.links[i]? with
  | some _ => c.setWorker i { w with control := .writing action.linkText.toList next }
  | none =>
    match c.ends.output.perform c.world action with
    | (result, output, world) =>
      let c := { c with ends := { c.ends with output, world } }
      match result with
      | .ok () => c.setWorker i (w.resume next)
      | .error fault => c.fail i w (.io fault)

/-- Does what a stage asks for, as far as that needs no waiting. -/
def serve (c : Chain) (i : Nat) (w : Worker) : Request w.body.State → Chain
  | .finish result => c.complete i w result
  | .output action next => c.output i w action next
  | .errorOutput action next =>
    c.setWorker i { w with errorText := w.errorText ++ action.errorText, control := .ready next }
  | .read extent next => c.setWorker i { w with control := .reading (.start extent) next }
  | .readKey next => c.setWorker i { w with control := .typing false next }
  | .flushKeys next => { c with ends := c.ends.flushKeys i }.setWorker i (w.resume next)
  | .sleep ms next => c.setWorker i { w with control := .sleeping next, wake := c.now + ms }
  | .checkCancelled next => c.setWorker i (w.resume (next c.isCancelled))
  | .cancel next => { c with ends := c.ends.cancel }.setWorker i (w.resume next)
  | .endSession hard next =>
    (c.withWorld (c.world.endSession c.world.session hard)).setWorker i (w.resume next)
  | .history next =>
    c.setWorker i (w.resume (next ((c.world.control?.map (·.history.entries)).getD [])))
  | .sessions next => c.setWorker i (w.resume (next c.world.directory.live))
  | .environment change next =>
    let before := c.world.environment
    (c.withWorld { c.world with environment := change before }).setWorker i (w.resume (next before))
  | .load path next =>
    match c.world.load path with
    | .error e => c.fail i w (.setup e)
    | .ok text => c.setWorker i (w.resume (next text))
  | .makeFoldersFor path next =>
    match c.world.makeFoldersFor path with
    | .error fault => c.fail i w (.io (.file fault))
    | .ok world => (c.withWorld world).setWorker i (w.resume next)
  | .openFile path append next =>
    match c.world.openFile path append with
    | .error e => c.fail i w (.setup e)
    | .ok (file, world) =>
      (c.withWorld world).setWorker i { w with control := .ready (next file), files := w.files ++ [file] }
  | .writeFile file text next =>
    (c.withWorld (c.world.writeFile file text)).setWorker i (w.resume next)
  | .flushFile file next => (c.withWorld (c.world.flushFile file)).setWorker i (w.resume next)

/-- Writes one more character to the next stage; none if its link is full. -/
def pushChar (c : Chain) (i : Nat) (w : Worker) (x : Char) (rest : List Char) (next : w.body.State) :
    Option Chain :=
  match c.links[i]? with
  | none => some (c.setWorker i (w.resume next))
  | some l =>
    match l.push c.isCancelled x with
    | .pushed l => some ((c.setLink i l).setWorker i { w with control := .writing rest next })
    | .dropped => some (c.setWorker i (w.resume next))
    | .blocked => none

/-- Pauses a stage until the terminal is looked at again. -/
def pause (c : Chain) (i : Nat) (w : Worker) : Chain :=
  c.setWorker i { w with wake := c.now + c.ends.pollInterval }

/-- Reads on; none if the link before the stage is empty. -/
def readOn (c : Chain) (i : Nat) (w : Worker) (r : Reading) (next : Option String → w.body.State) :
    Option Chain :=
  match r.step (tryRead i) (readChar i) c with
  | (some (.more r), c) => some (c.setWorker i { w with control := .reading r next })
  | (some (.done text), c) => some (c.setWorker i (w.resume (next text)))
  | (none, c) => if (c.linkBefore? i).isSome then none else some (c.pause i w)

/-- Looks for a key. -/
def lookForKey (c : Chain) (i : Nat) (w : Worker) (waited : Bool) (next : Option Key → w.body.State) :
    Chain :=
  if waited && c.isCancelled then c.setWorker i (w.resume (next none))
  else
    match c.ends.readKey i with
    | .got k ends => { c with ends }.setWorker i (w.resume (next (some k)))
    | .ended ends => { c with ends }.setWorker i (w.resume (next none))
    | .blocked ends => { c with ends }.pause i { w with control := .typing true next }

/-- One step of a stage; none if it is finished or has to wait. -/
def step (c : Chain) (i : Nat) : Option Chain :=
  match c.workers[i]? with
  | none => none
  | some w =>
    if c.now < w.wake && !c.isCancelled then none
    else
      match w.control with
      | .finished => none
      | .ready s => some (c.serve i w (w.body.next s))
      | .writing [] next => some (c.setWorker i (w.resume next))
      | .writing (x :: rest) next => c.pushChar i w x rest next
      | .reading r next => c.readOn i w r next
      | .typing waited next => some (c.lookForKey i w waited next)
      | .sleeping next => some (c.setWorker i (w.resume (next !c.isCancelled)))

/-- Lets the time pass until the first pause is over; none if no stage pauses. -/
def tick (c : Chain) : Option Chain :=
  let ends := c.workers.filterMap fun w =>
    if !w.isFinished && c.now < w.wake then some w.wake else none
  ends.min?.map fun time => { c with now := time }

/-- A step of the first stage that can take one, or else a tick. -/
def advance (c : Chain) : Option Chain :=
  match (List.range c.workers.length).findSome? c.step with
  | some c => some c
  | none => c.tick

/-- Advances as long as possible. -/
def run : (fuel : Nat) → Chain → Chain
  | 0, c => c
  | fuel + 1, c =>
    match c.advance with
    | some c => c.run fuel
    | none => c

end Chain

end CommandShell
