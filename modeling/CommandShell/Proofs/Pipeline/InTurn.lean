import CommandShell.Proofs.Builtin.Copying
import CommandShell.Proofs.Chain.Sequence
import CommandShell.Proofs.Pipeline.Opening
import CommandShell.Proofs.Pipeline.Start
import Mathlib.Data.List.Forall2

/-!
Pipelines of the commands that write text or pass it on.  Main statement: whatever the links hold and in
whatever order the stages take their steps, what they write and store is what they would if each of
them were run on all that the one before it has written.
-/

namespace CommandShell

open Builtin Text

/-- What each stage makes of its input if the stages are run one after another, each on the whole
output of the one before; `lineBreak` ends the lines of the last one. -/
def Builtin.inTurn (lineBreak : List Char) : List TextStage → List Char → List Yield
  | [], _ => []
  | [t], input => [t.yield lineBreak input]
  | t :: u :: stages, input =>
    t.yield ['\n'] input :: inTurn lineBreak (u :: stages) (t.yield ['\n'] input).out

/-- What the last of the stages writes then, with its last line ended. -/
def Builtin.outputInTurn (lineBreak : List Char) (stages : List TextStage) (input : List Char) :
    List Char :=
  endLine lineBreak (((inTurn lineBreak stages input).getLast?.map (·.out)).getD [])

/-- What ends the lines of stage `i` of `n`. -/
def Builtin.breakOf (lineBreak : List Char) (n i : Nat) : List Char :=
  if i + 1 = n then lineBreak else ['\n']

namespace Chain

variable {lineBreak : List Char}

/-- The first stage may be left out if the next one is given what comes of it. -/
theorem incoming_succ {supply : Nat → List Char} (g : Nat → List Char → Yield)
    (hsupply : ∀ j, supply (j + 1) = []) (j : Nat) :
    incoming supply g (j + 1) =
      incoming (fun k => if k = 0 then (g 0 (supply 0)).out else []) (fun k => g (k + 1)) j := by
  induction j with
  | zero => simp [incoming, hsupply]
  | succ j ih => rw [incoming, hsupply, ih]; rfl

theorem getElem?_inTurn (stages : List TextStage) {input : List Char} {supply : Nat → List Char}
    {g : Nat → List Char → Yield}
    (hg : ∀ {i : Nat} {t : TextStage}, stages[i]? = some t →
      g i = t.yield (breakOf lineBreak stages.length i))
    (hinput : supply 0 = input) (hsupply : ∀ j, supply (j + 1) = []) {i : Nat} (hi : i < stages.length) :
    (inTurn lineBreak stages input)[i]? = some (g i (incoming supply g i)) := by
  induction stages generalizing input supply g i with
  | nil => cases hi
  | cons t stages ih =>
      have hfirst := hg (i := 0) (t := t) rfl
      cases stages with
      | nil =>
          obtain rfl : i = 0 := by simpa using hi
          simp [inTurn, hfirst, incoming, hinput, breakOf]
      | cons u stages =>
          have hfirst : g 0 = t.yield ['\n'] := by simpa [breakOf] using hfirst
          cases i with
          | zero => simp [inTurn, hfirst, incoming, hinput]
          | succ i =>
              rw [inTurn, List.getElem?_cons_succ, incoming_succ g hsupply]
              refine ih (g := fun k => g (k + 1)) ?_ ?_ (fun _ => rfl) (by simpa using hi)
              · intro j v hv
                rw [hg (i := j + 1) hv]
                simp [breakOf]
              · rw [if_pos rfl, hfirst, hinput]

end Chain

namespace Sink

/-- Between the two worlds the text and nothing else has gone to the sink. -/
def Received (sink : Sink) (before after : World) (text : List Char) : Prop :=
  match sink with
  | .terminal => after.terminal.shown =
      before.terminal.shown ++ shownAs before.terminal.lineTermination.toList text
  | .file id => ∀ f, before.openFiles[id]? = some f →
      after.files.node? f.path = (before.files.node? f.path).map (·.extend (bytesOf text))
  | .null => True

end Sink

namespace Pipeline

/-- What ends the lines that the last stage writes. -/
def lineBreak (p : Pipeline) (w : World) : List Char :=
  (ChainOutput.new p.output w.terminal).lineTermination.toList

/-- The places of all files that the pipeline writes. -/
def places (p : Pipeline) (w : World) (stages : List TextStage) : List String :=
  (p.output.path? w).toList ++ stages.filterMap fun t => w.usePlace? t.use

/-- A pipeline of commands on text that does not read the terminal and is about to start.  Its output
takes what is written, its files can be opened once the folders above them have been made, no two of the
files that it writes are the same, and none of them is where a folder is made for another. -/
structure OfText (p : Pipeline) (w : World) (stages : List TextStage) : Prop where
  commands : List.Forall₂ TextStage.IsOf stages p.invocations
  input : p.input ≠ .terminal
  output : p.output.Ready w
  opens : ∀ t ∈ stages, ∀ path append, t.use = some (path, append) →
    ∃ m id v, w.makeFoldersFor path = .ok m ∧ m.openFile path append = .ok (id, v)
  distinct : (p.places w stages).Nodup
  folders : ∀ t ∈ stages, ∀ u ∈ stages, ∀ place, w.usePlace? t.use = some place → ¬w.MadeFor u.use place

variable {p : Pipeline} {w : World} {stages : List TextStage}

/-- What there is before the pipeline starts. -/
def setup (p : Pipeline) (w : World) : Chain.Setup where
  world := w
  sink := p.output
  shown := w.terminal.shown
  place := (p.output.path? w).getD ""
  node := (w.files.node? ((p.output.path? w).getD "")).getD .folder

/-- What each stage is to make of its input. -/
def yieldOf (lineBreak : List Char) (stages : List TextStage) (i : Nat) (x : List Char) : Yield :=
  match stages[i]? with
  | some t => t.yield (breakOf lineBreak stages.length i) x
  | none => {}

/-- What is to come of the stages of a pipeline. -/
def plan (p : Pipeline) (w : World) (stages : List TextStage) : Chain.Plan where
  lineBreak := breakOf (p.lineBreak w) stages.length
  use i := stages[i]?.bind (·.use)
  total i := yieldOf (p.lineBreak w) stages i
    (Chain.incoming (p.start w).supply (yieldOf (p.lineBreak w) stages) i)

/-- A stage at its start is to make of its input what its command makes of it. -/
theorem stands_start {t : TextStage} {i : Invocation} (h : t.IsOf i) (context : Context)
    (lineBreak : List Char) :
    (Worker.start context i).Stands lineBreak t.use .untouched (t.yield lineBreak) := by
  have howes : ∀ b : Body, b = t.body →
      ∃ m : b.Meaning lineBreak t.use, m.Owes .untouched (.ready b.start) (t.yield lineBreak) := by
    rintro _ rfl
    have hready := Body.Meaning.Owes.ready (t.meaning lineBreak).start
    rw [funext (t.yield_start lineBreak)] at hready
    exact ⟨t.meaning lineBreak, hready⟩
  exact ⟨howes _ (TextStage.body_eq h context), rfl⟩

theorem sink_new (sink : Sink) (t : Terminal) : (ChainOutput.new sink t).sink = sink := by
  cases sink <;> rfl

theorem lineTermination_new (sink : Sink) (t : Terminal) :
    (ChainOutput.new sink t.beginOutput).lineTermination = (ChainOutput.new sink t).lineTermination := by
  cases sink <;> rfl

/-- Nothing has gone to the output at first. -/
theorem delivered_start (h : p.OfText w stages) :
    ChainOutput.Delivered (p.setup w).shown (p.setup w).place (p.setup w).node (p.start w).ends.output
      (p.start w).world [] := by
  have hready := h.output
  rw [output_start h.input, world_start h.input]
  refine ⟨?_, fun hne => absurd rfl hne, fun _ => ?_, fun hsink => ?_, fun id hid => ?_⟩
  · cases p.output <;> rfl
  · simp [setup, Terminal.shown_beginOutput, shownAs]
  · rw [sink_new] at hsink
    rw [hsink] at hready
    rw [Terminal.faults_beginOutput]
    exact hready
  · rw [sink_new] at hid
    rw [hid] at hready
    obtain ⟨f, n, hf, hholds, hnode⟩ := hready
    refine ⟨f, hf, ?_, ?_⟩
    · simp [setup, hid, Sink.path?, hf]
    · simpa [setup, hid, Sink.path?, hf, hnode] using hholds

theorem exists_stage {i : Nat} {u : FileUse} (h : (p.plan w stages).use i = some u) :
    ∃ t, stages[i]? = some t ∧ t.use = some u :=
  Option.bind_eq_some_iff.1 h

theorem exists_use {i : Nat} {place : String} (h : w.Needs ((p.plan w stages).use i) place) :
    ∃ t, stages[i]? = some t ∧ t.use = (p.plan w stages).use i := by
  rcases huse : (p.plan w stages).use i with _ | u
  · rw [huse] at h
    rcases h with hplace | ⟨_, _, _, hmade, -⟩
    · cases hplace
    · cases hmade
  · exact exists_stage huse

/-- The files that the pipeline writes are kept apart. -/
theorem apart_start (h : p.OfText w stages) :
    (p.plan w stages).Apart (p.setup w) := by
  obtain ⟨-, hstages, hother⟩ := List.nodup_append.1 h.distinct
  have hpairs := List.pairwise_iff_getElem.1 (List.pairwise_filterMap.1 hstages)
  have hlt : ∀ {i j : Nat} {t u : TextStage} {place : String}, i < j → stages[i]? = some t →
      stages[j]? = some u → w.usePlace? t.use = some place → w.usePlace? u.use = some place → False := by
    intro i j t u place hij ht hu hplace hplace'
    obtain ⟨hi, rfl⟩ := List.getElem?_eq_some_iff.1 ht
    obtain ⟨hj, rfl⟩ := List.getElem?_eq_some_iff.1 hu
    exact hpairs i j hi hj hij place hplace place hplace' rfl
  refine ⟨fun {i j place} hi hj => ?_, fun {i place} hi hsink => ?_⟩
  · have hi : w.usePlace? ((p.plan w stages).use i) = some place := hi
    have hj : w.Needs ((p.plan w stages).use j) place := hj
    obtain ⟨t, ht, htuse⟩ := exists_use (.inl hi)
    obtain ⟨u, hu, huuse⟩ := exists_use hj
    rw [← htuse] at hi
    rw [← huuse] at hj
    rcases hj with hj | hmade
    · rcases Nat.lt_trichotomy i j with hij | hij | hij
      · exact (hlt hij ht hu hi hj).elim
      · exact hij
      · exact (hlt hij hu ht hj hi).elim
    · exact absurd hmade (h.folders t (List.mem_of_getElem? ht) u (List.mem_of_getElem? hu) place hi)
  · have hi : w.Needs ((p.plan w stages).use i) place := hi
    obtain ⟨t, ht, htuse⟩ := exists_use hi
    rw [← htuse] at hi
    have hready := h.output
    have hsink : p.output.place? ((p.output.path? w).getD "") = some place := hsink
    rcases houtput : p.output with _ | id | _
    · simp [houtput, Sink.place?] at hsink
    · rw [houtput] at hready
      obtain ⟨f, n, hf, hholds, -⟩ := hready
      obtain rfl : f.path = place := by simpa [houtput, Sink.place?, Sink.path?, hf] using hsink
      rcases hi with hplace | ⟨path, append, m, -, hmake, hfolder⟩
      · refine hother f.path ?_ f.path (List.mem_filterMap.2 ⟨t, List.mem_of_getElem? ht, hplace⟩) rfl
        simp [houtput, Sink.path?, hf]
      · -- there is a file that is open where a folder is said to be made
        obtain ⟨files, hfiles, rfl⟩ := World.makeFoldersFor_eq_ok hmake
        obtain ⟨now, hnow, -⟩ := hholds.node
        have hkept := ((FileSystem.makeMissing_keeps hfiles).2 f.path).node hnow
        cases hkept.symm.trans hfolder
        exact hholds.ne_folder hnow
    · simp [houtput, Sink.place?] at hsink

/-- Before the start nothing has been done for the file of a stage. -/
theorem filing_start (h : p.OfText w stages) {i : Nat} {u : Option FileUse}
    (hu : (p.plan w stages).use i = u) : w.Filing (p.start w).world u .untouched [] := by
  rw [world_start h.input]
  cases u with
  | none => exact .nothing rfl
  | some u =>
      obtain ⟨path, append⟩ := u
      obtain ⟨t, ht, huse⟩ := exists_stage hu
      obtain ⟨m, id, v, hmake, hopen⟩ := h.opens t (List.mem_of_getElem? ht) path append huse
      obtain ⟨files, hfiles, hm⟩ := World.makeFoldersFor_eq_ok hmake
      refine .untouched hmake (World.canOpen_iff.2 ⟨id, v, hopen⟩) (.refl _) ?_ rfl
      rw [hm]
      exact FileSystem.admits_of_keepsAt (FileSystem.makeMissing_keeps hfiles).2

theorem onTrack_start (h : p.OfText w stages) (hne : stages ≠ [])
    (hcancelled : w.isCancelled p.token = false) :
    Chain.OnTrack (p.setup w) (p.plan w stages) (p.start w) (fun _ => .untouched)
      (yieldOf (p.lineBreak w) stages) (fun _ => []) [] := by
  have hlength := h.commands.length_eq
  have hpos := List.length_pos_iff.2 hne
  have hlinks : (p.start w).links.length + 1 = stages.length := by
    simp only [start, List.length_replicate]
    omega
  have hworker : ∀ {i : Nat} {v : Worker}, (p.start w).workers[i]? = some v →
      ∃ context invocation t, stages[i]? = some t ∧ TextStage.IsOf t invocation ∧
        v = .start context invocation := by
    intro i v hv
    obtain ⟨context, invocation, hinvocation, rfl⟩ := exists_invocation hv
    obtain ⟨hi, rfl⟩ := List.getElem?_eq_some_iff.1 hinvocation
    exact ⟨context, _, stages[i], List.getElem?_eq_getElem (by omega),
      List.Forall₂.get h.commands (by omega) hi, rfl⟩
  have hlink : ∀ {j : Nat} {l : Link}, (p.start w).links[j]? = some l → ∃ capacity, l = .new capacity :=
    fun hl => ⟨_, List.eq_of_mem_replicate (List.mem_of_getElem? hl)⟩
  have hlast : (p.plan w stages).lineBreak (p.start w).links.length = p.lineBreak w := by
    simp only [plan, breakOf, hlinks, if_pos]
  exact {
    length := by
      rw [hlinks, hlength]
      simp only [start, length_workers]
    stands := fun {i v} hv => by
      obtain ⟨context, invocation, t, ht, hof, rfl⟩ := hworker hv
      have hyield : yieldOf (p.lineBreak w) stages i = t.yield ((p.plan w stages).lineBreak i) := by
        funext x
        simp only [yieldOf, ht, plan]
      have huse : (p.plan w stages).use i = t.use := by
        simp only [plan, ht, Option.bind_some]
      rw [hyield, huse]
      exact stands_start hof context _
    unwritten := fun hv _ => by
      obtain ⟨context, invocation, t, -, -, rfl⟩ := hworker hv
      rfl
    filing := fun i _ => filing_start h rfl
    stored := fun i _ => rfl
    written := rfl
    delivered := fun hv => by
      obtain ⟨context, invocation, t, -, -, rfl⟩ := hworker hv
      exact delivered_start h
    ended := fun hl => by
      obtain ⟨capacity, rfl⟩ := hlink hl
      exact ⟨by simp [Link.new], by simp [Link.new]⟩
    innerBreak := fun {i} hi => by
      have hi : i < (p.start w).links.length := by simpa using hi
      simp only [plan, breakOf]
      rw [if_neg (by omega)]
    lastBreak := by
      rw [hlast, output_start h.input, lineTermination_new, lineBreak]
    sink := by
      rw [output_start h.input, sink_new]
      rfl
    apart := apart_start h
    paths := by
      rw [world_start h.input]
      exact ⟨rfl, rfl⟩
    cancelled := by
      show (p.start w).world.isCancelled p.token = false
      rw [world_start h.input]
      exact hcancelled
    failures := rfl
    input := h.input }

theorem supply_start (p : Pipeline) (w : World) :
    (p.start w).supply 0 = p.input.rest ∧ ∀ j, (p.start w).supply (j + 1) = [] := by
  refine ⟨rfl, fun j => ?_⟩
  rw [Chain.supply]
  rcases hl : (p.start w).links[j]? with _ | l
  · rfl
  · obtain rfl := List.eq_of_mem_replicate (List.mem_of_getElem? hl)
    rfl

theorem getElem?_total (p : Pipeline) (w : World) (stages : List TextStage) {i : Nat}
    (hi : i < stages.length) :
    (inTurn (p.lineBreak w) stages p.input.rest)[i]? = some ((p.plan w stages).total i) := by
  obtain ⟨hfirst, hothers⟩ := supply_start p w
  have hyields : ∀ {i : Nat} {t : TextStage}, stages[i]? = some t →
      yieldOf (p.lineBreak w) stages i = t.yield (breakOf (p.lineBreak w) stages.length i) := by
    intro i t ht
    funext x
    simp only [yieldOf, ht]
  exact Chain.getElem?_inTurn stages hyields hfirst hothers hi

theorem length_inTurn (lineBreak : List Char) (stages : List TextStage) (input : List Char) :
    (inTurn lineBreak stages input).length = stages.length := by
  fun_induction inTurn lineBreak stages input with
  | case1 | case2 => rfl
  | case3 t u stages input ih => simp [ih]

/-- What the output has received in the chain is what the sink has received. -/
theorem received_sink (h : p.output.Ready w) {o : ChainOutput} {v : World} {text : List Char}
    (hsink : o.sink = p.output) (hbreak : o.lineTermination.toList = p.lineBreak w)
    (hreceived : ChainOutput.Received (p.setup w).shown (p.setup w).place (p.setup w).node o v text) :
    p.output.Received w v text := by
  rcases houtput : p.output with _ | id | _
  · have hshown := hreceived.terminal (hsink.trans houtput)
    rw [hbreak, lineBreak, houtput] at hshown
    exact hshown
  · intro f hf
    rw [houtput] at h
    obtain ⟨f', n, hf', -, hnode⟩ := h
    cases hf.symm.trans hf'
    have hfile := hreceived.file id (hsink.trans houtput)
    simpa [setup, houtput, Sink.path?, hf, hnode] using hfile
  · trivial

theorem received_empty (h : p.OfText w []) : p.output.Received w (p.start w).world [] := by
  have hready := h.output
  refine received_sink hready (o := (p.start w).ends.output) ?_ ?_
    ⟨(delivered_start h).terminal, fun id hid => ?_⟩
  · rw [output_start h.input, sink_new]
  · rw [output_start h.input, lineTermination_new, lineBreak]
  · rw [output_start h.input, sink_new] at hid
    rw [hid] at hready
    obtain ⟨f, n, hf, -, hnode⟩ := hready
    rw [world_start h.input]
    simp [setup, hid, Sink.path?, hf, hnode]

theorem follow_empty (h : p.invocations = []) {schedule : List Nat} {c : Chain}
    (hrun : (p.start w).follow schedule = some c) : c = p.start w := by
  cases schedule with
  | nil => cases hrun; rfl
  | cons i schedule =>
      obtain ⟨d, hstep, -⟩ := Chain.follow_cons hrun
      obtain ⟨v, -, hv, -⟩ := Chain.advanced_of_step hstep
      obtain ⟨_, _, hi, -⟩ := exists_invocation hv
      simp [h] at hi

theorem length_links (h : p.OfText w stages) (hne : stages ≠ []) {schedule : List Nat} {c : Chain}
    (hrun : (p.start w).follow schedule = some c) : c.links.length + 1 = stages.length := by
  have hpos := List.length_pos_iff.2 hne
  rw [(Chain.around_of_follow hrun).length, h.commands.length_eq]
  rw [h.commands.length_eq] at hpos
  simp only [start, List.length_replicate]
  omega

/-- Once all stages have finished, the output has received what the last of them makes of its input when they
are run in turn. -/
theorem received_inTurn (h : p.OfText w stages) {c : Chain} (hlength : c.links.length + 1 = stages.length)
    {phase : Nat → FileUse.Phase} {g : Nat → List Char → Yield} {stored : Nat → List Char} {text : List Char}
    (hc : c.OnTrack (p.setup w) (p.plan w stages) phase g stored text) (hfinished : c.isFinished = true) :
    p.output.Received w c.world (outputInTurn (p.lineBreak w) stages p.input.rest) := by
  have hlast := getElem?_total p w stages (i := c.links.length) (by omega)
  have hout : outputInTurn (p.lineBreak w) stages p.input.rest =
      endLine (p.lineBreak w) ((p.plan w stages).total c.links.length).out := by
    rw [outputInTurn, List.getLast?_eq_getElem?, length_inTurn, ← hlength, Nat.add_sub_cancel, hlast]
    rfl
  have hbreak : (p.plan w stages).lineBreak c.links.length = p.lineBreak w := by
    simp only [plan, breakOf, hlength, if_pos]
  have hreceived := Chain.received_of_finished hc hfinished
  rw [hbreak] at hreceived
  rw [hout]
  exact received_sink h.output hc.sink (hc.lastBreak.trans hbreak) hreceived

/-- Once all stages of a pipeline have finished, none has failed, the output has received what the last
of them makes of its input when they are run in turn, and each file of `tee` has received what came to
that stage. -/
theorem finished_inTurn (h : p.OfText w stages) (hcancelled : w.isCancelled p.token = false)
    {schedule : List Nat} {c : Chain} (hrun : (p.start w).follow schedule = some c)
    (hfinished : c.isFinished = true) :
    c.failures = [] ∧
      p.output.Received w c.world (outputInTurn (p.lineBreak w) stages p.input.rest) ∧
      ∀ (i : Nat) (path : String) (append : Bool) (y : Yield), stages[i]? = some (.tee path append) →
        (inTurn (p.lineBreak w) stages p.input.rest)[i]? = some y →
        c.world.files.node? (w.placeOf path) =
          some ((Node.opened (w.files.node? (w.placeOf path)) append).extend (bytesOf y.stored)) := by
  by_cases hne : stages = []
  · subst hne
    have hnone : p.invocations = [] := List.forall₂_nil_left_iff.1 h.commands
    rw [follow_empty hnone hrun]
    exact ⟨rfl, received_empty h, nofun⟩
  · obtain ⟨phase, g, stored, text, hc⟩ := Chain.onTrack_follow (onTrack_start h hne hcancelled) hrun
    have hlength := length_links h hne hrun
    refine ⟨hc.failures, received_inTurn h hlength hc hfinished, fun i path append y ht hy => ?_⟩
    have hi := (List.getElem?_eq_some_iff.1 ht).1
    have hfiling := Chain.filing_of_finished hc hfinished (i := i) (by omega)
    have htotal := (getElem?_total p w stages hi).symm.trans hy
    rw [Option.some_inj] at htotal
    rw [htotal] at hfiling
    have huse : (p.plan w stages).use i = some (path, append) := by
      simp only [plan, ht]
      rfl
    rw [huse] at hfiling
    cases hfiling with
    | closed hnode => exact hnode

/-- An invocation of a built-in command. -/
def calling (command : Command) (arguments : ValueSet) : Invocation where
  stage := .command ⟨command, { qualifier := "", name := "" }⟩ ⟨none, arguments, {}⟩

/-- `tee f | echo hi` on a text, over a link that holds one character. -/
def teeThenEcho : Pipeline where
  invocations :=
    [calling Builtin.tee ⟨[("file", .text "f")]⟩, calling Builtin.echo ⟨[("text", .text "hi")]⟩]
  input := .redirected ['a', 'b']
  output := .terminal
  errorSink := .terminal
  token := 1
  guard := ⟨0, 0⟩
  setting := { registry := {}, settings := { linkCapacity := 0 } }

/-- A world with nothing in it. -/
def empty : World := .detached ⟨.empty, ""⟩ none {}

theorem ofText_teeThenEcho : teeThenEcho.OfText empty [.tee "f" false, .echo "hi"] where
  commands := .cons ⟨⟨_, _, rfl, rfl⟩, rfl, rfl, rfl⟩ (.cons ⟨⟨_, _, rfl, rfl⟩, rfl⟩ .nil)
  input := nofun
  output := rfl
  opens t ht path append huse := by
    rcases List.mem_pair.1 ht with rfl | rfl
    · cases huse
      exact ⟨_, _, _, rfl, rfl⟩
    · cases huse
  distinct := by simp [places, teeThenEcho, Sink.path?, TextStage.use, World.usePlace?]
  folders t ht u hu place hplace := by
    rintro ⟨path, append, m, huse, hmake, hfolder⟩
    rcases List.mem_pair.1 hu with rfl | rfl
    · cases huse
      cases hmake
      rcases List.mem_pair.1 ht with rfl | rfl
      · cases hplace
        cases hfolder
      · cases hplace
    · cases huse

/-- The second stage ends before the first one has written, and the file is complete all the same. -/
theorem finished_inTurn_of_early_end :
    ∃ c, (teeThenEcho.start empty).follow ([1, 1] ++ List.replicate 14 0) = some c ∧
      c.isFinished = true ∧ c.failures = [] ∧
      teeThenEcho.output.Received empty c.world ['h', 'i', '\r', '\n'] ∧
      c.world.files.node? "/f" = some (.file (bytesOf ['a', 'b'])) := by
  have hrun : ((teeThenEcho.start empty).follow ([1, 1] ++ List.replicate 14 0)).map (·.isFinished) =
      some true := by
    rfl
  obtain ⟨c, hc, hfinished⟩ := Option.map_eq_some_iff.1 hrun
  obtain ⟨hfailures, hreceived, hfiles⟩ := finished_inTurn ofText_teeThenEcho rfl hc hfinished
  exact ⟨c, hc, hfinished, hfailures, hreceived, hfiles 0 "f" false ⟨['a', 'b'], ['a', 'b']⟩ rfl rfl⟩

end Pipeline

end CommandShell
