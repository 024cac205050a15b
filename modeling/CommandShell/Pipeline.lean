import CommandShell.Chain.Basic
import CommandShell.Config.Basic
import CommandShell.Line.Resolve

/-!
A line's stages with their redirects: opened, run as a chain, and reported on.
-/

namespace CommandShell

open Line

/-- What is known after a pipeline: the error lines shown, and whether it was cancelled. -/
structure Report where
  errors : List String := []
  cancelled : Bool := false
  deriving DecidableEq, Repr

def Report.succeeded (r : Report) : Bool := r.errors.isEmpty && !r.cancelled

/-- What surrounds a pipeline and does not change while it runs. -/
structure Setting where
  registry : Registry
  settings : PipelineSettings := {}

/-- Stages that are ready to run, with what they read and where they write. -/
structure Pipeline where
  invocations : List Invocation
  input : ChainInput
  output : Sink
  errorSink : Sink
  token : TokenId
  /-- What cancels the pipeline with its session. -/
  guard : Guard
  setting : Setting

namespace Pipeline

/-- A pipeline with a token that is cancelled with the session's. -/
def assemble (invocations : List Invocation) (input : ChainInput) (output errorSink : Sink)
    (setting : Setting) (w : World) : Pipeline × World :=
  let parent := (w.control?.map (·.token)).getD 0
  let (token, guard, tokens, _) := w.tokens.child parent
  ({ invocations, input, output, errorSink, token, guard, setting }, { w with tokens })

/-- What the first stage reads. -/
def openInput (w : World) : Option InputSource → Except ShellError ChainInput
  | none => .ok .terminal
  | some .null => .ok .null
  | some (.file path) => (w.load path).map fun text => .redirected text.toList

/-- Opens what output is redirected to. -/
def openTarget (w : World) : OutputTarget → Except ShellError (Sink × World)
  | .null => .ok (.null, w)
  | .file path append => (w.openFile path append).map fun (file, w) => (.file file, w)

def openSink (w : World) : Option OutputTarget → Except ShellError (Sink × World)
  | none => .ok (.terminal, w)
  | some target => openTarget w target

/-- Opens resolved redirects.  The input file is read before an output file is emptied. -/
def openResolved (invocations : List Invocation) (r : Resolved) (setting : Setting) (w : World) :
    Except ShellError Pipeline × World :=
  match openInput w r.input with
  | .error e => (.error e, w)
  | .ok input =>
    match openSink w r.output with
    | .error e => (.error e, w)
    | .ok (output, w) =>
      if r.shared then
        let (p, w) := assemble invocations input output output setting w
        (.ok p, w)
      else
        match openSink w r.errorOutput with
        | .error e => (.error e, w)
        | .ok (errorSink, w) =>
          let (p, w) := assemble invocations input output errorSink setting w
          (.ok p, w)

/-- Checks and opens redirects. -/
def openWith (invocations : List Invocation) (redirects : List Redirect) (setting : Setting)
    (w : World) : Except ShellError Pipeline × World :=
  match resolve w.home redirects with
  | .error e => (.error (.parse e), w)
  | .ok r => openResolved invocations r setting w

/-- A pipeline of one stage that fails. -/
def forError (error : ShellError) (setting : Setting) (w : World) : Pipeline × World :=
  assemble [.failed error] .null .terminal .terminal setting w

/-- The pipeline of a line. -/
def prepare (line nullWord : String) (setting : Setting) (w : World) :
    Except ShellError Pipeline × World :=
  match parse line nullWord with
  | .error e => (.error (.parse e), w)
  | .ok parsed =>
    match Invocation.ofLine setting.registry parsed with
    | .error e => (.error e, w)
    | .ok invocations => openWith invocations parsed.redirects setting w

/-- The pipeline of a line, or one that reports what is wrong with the line. -/
def ofLine (line nullWord : String) (setting : Setting) (w : World) :
    Option ShellError × Pipeline × World :=
  match prepare line nullWord setting w with
  | (.ok p, w) => (none, p, w)
  | (.error e, w) => (some e, forError e setting w)

/-- What stage `i` of `n` knows about its place. -/
def context (p : Pipeline) (w : World) (n i : Nat) (invocation : Invocation) : Context :=
  let isLast := i + 1 == n
  { session := w.session
    name := invocation.name
    rawText := invocation.rawText
    tokens := invocation.tokens
    index := i
    stageCount := n
    inputPiped := i != 0 || decide (p.input ≠ .terminal)
    outputPiped := !isLast || decide (p.output ≠ .terminal)
    window :=
      if isLast then (ChainOutput.new p.output w.terminal).window else w.terminal.window
    errorWindow := w.terminal.window
    commands := p.setting.registry.entries }

/-- The workers of stages from the `i`-th of `n` on. -/
def workers (p : Pipeline) (w : World) (n : Nat) : (i : Nat) → List Invocation → List Worker
  | _, [] => []
  | i, invocation :: rest =>
    .start (p.context w n i invocation) invocation :: p.workers w n (i + 1) rest

/-- Drops the keys typed ahead if the terminal is about to be read. -/
def dropTyped (p : Pipeline) (w : World) : World :=
  match p.input with
  | .terminal => w.readKeys.2
  | _ => w

/-- The chain of a pipeline before its first step. -/
def start (p : Pipeline) (w : World) : Chain :=
  let w := p.dropTyped { w with terminal := w.terminal.beginOutput }
  let n := p.invocations.length
  { ends :=
      { world := w
        token := p.token
        pollInterval := p.setting.settings.pollInterval
        typing :=
          { keys := p.invocations.map fun _ => []
            text := if p.input = .terminal then some [] else none }
        input := p.input
        output := ChainOutput.new p.output w.terminal }
    links := List.replicate (n - 1) (Link.new p.setting.settings.linkCapacity)
    workers := p.workers w n 0 p.invocations }

/-- The lines that report failures, by stage. -/
def failureLines (failures : List (Nat × StageError)) : List String :=
  (failures.mergeSort fun a b => a.1 ≤ b.1).flatMap fun f => f.2.render

/-- The line that reports cancellation, unless the whole session is being ended. -/
def cancelLines (c : Chain) : List String :=
  match c.cancelledAt with
  | none => []
  | some i =>
    if c.world.isEndingHard then []
    else CommandError.cancelled.render ((c.workers[i]?).map (·.context.name))

/-- The report on a finished chain. -/
def report (c : Chain) : Report :=
  { errors := failureLines c.failures ++ cancelLines c
    cancelled := c.cancelledAt.isSome }

/-- All error text of a finished chain: that of the stages in their order, then the report's. -/
def errorText (c : Chain) : String :=
  String.join (c.workers.map (·.errorText)) ++
    String.join ((report c).errors.map fun line => line ++ "\n")

/-- Ends the output on the terminal. -/
def endOutput (p : Pipeline) (c : Chain) (w : World) : World :=
  let t := w.terminal
  let t := if p.output = .terminal ∧ !c.ends.output.clearedLast then (t.write t.lineTermination).2 else t
  { w with terminal := t.endOutput }

/-- Shows the error text of a finished chain and lets go of its token. -/
def drain (p : Pipeline) (c : Chain) : Report × World :=
  let (_, w) := p.errorSink.writeErrors c.world (errorText c) p.setting.settings.errorColor
  let w := p.errorSink.flush w
  let w := p.endOutput c w
  (report c, { w with tokens := (w.tokens.release p.guard).drop p.token, openFiles := [] })

/-- Runs a pipeline; `fuel` bounds the steps of its stages. -/
def run (fuel : Nat) (p : Pipeline) (w : World) : Report × World :=
  p.drain ((p.start w).run fuel)

end Pipeline

end CommandShell
