import CommandShell.Proofs.Chain.Step
import CommandShell.Proofs.Command.Yield

/-!
One step of a stage that has a meaning.  Main statement: what was to come of the stage before the step
is what the step writes and stores, followed by what is to come of it afterwards.
-/

namespace CommandShell

/-- What is left of the input of a chain. -/
def ChainInput.rest : ChainInput → List Char
  | .redirected rest => rest
  | .terminal | .null => []

/-- The stage is to make `g x` of what is left of its input, `x`. -/
structure Worker.Stands (w : Worker) (lineBreak : List Char) (use : Option FileUse)
    (phase : FileUse.Phase) (g : List Char → Yield) : Prop where
  owes : ∃ m : w.body.Meaning lineBreak use, m.Owes phase w.control g
  files : w.files = phase.files

/-- Characters are still to be written to a link. -/
def Control.isWriting {σ : Type} : Control σ → Bool
  | .writing _ _ => true
  | _ => false

namespace Chain

variable {c d : Chain} {i : Nat}

/-- What has been written for a stage and not yet been read by it. -/
def supply (c : Chain) : Nat → List Char
  | 0 => c.ends.input.rest
  | j + 1 => (c.links[j]?.map (·.queue.toList)).getD []

/-- Nothing more is written for a stage. -/
def IsFed (c : Chain) (i : Nat) : Prop := ∀ l, c.linkBefore? i = some l → l.writerDone = true

theorem supply_of_eq (hlinks : d.links = c.links) (hinput : d.ends.input = c.ends.input) (j : Nat) :
    d.supply j = c.supply j := by
  cases j with
  | zero => rw [supply, supply, hinput]
  | succ j => rw [supply, supply, hlinks]

@[simp] theorem supply_setWorker (c : Chain) (i : Nat) (w : Worker) (j : Nat) :
    (c.setWorker i w).supply j = c.supply j :=
  supply_of_eq rfl rfl j

theorem supply_succ {j : Nat} {l : Link} (h : c.links[j]? = some l) :
    c.supply (j + 1) = l.queue.toList := by
  simp [supply, h]

/-- What there was when the chain was started. -/
structure Setup where
  world : World
  sink : Sink
  /-- What the terminal showed. -/
  shown : List Char
  /-- The place of the output file, and what was there. -/
  place : String
  node : Node

/-- A step of stage `i` has made `w'` of it, and its file is in the phase `phase'`; the stage was to make
`g` of its input and now is to make `g'` of it, and `y` is what the step has brought about. -/
structure Worked (s : Setup) (lineBreak : List Char) (use : Option FileUse) (c : Chain) (i : Nat)
    (g : List Char → Yield) (stored text : List Char) (w' : Worker) (phase' : FileUse.Phase)
    (g' : List Char → Yield) (y : Yield) (d : Chain) : Prop where
  workers : d.workers = c.workers.set i w'
  stands : w'.Stands lineBreak use phase' g'
  yields : ∀ rest, (c.IsFed i → rest = []) → g (c.supply i ++ rest) = y ++ g' (d.supply i ++ rest)
  supply : ∀ j, j ≠ i → j ≠ i + 1 → d.supply j = c.supply j
  below : ∀ l, c.links[i]? = some l → l.readerDone = true ∨ d.supply (i + 1) = c.supply (i + 1) ++ y.out
  length : d.links.length = c.links.length
  ended : ∀ {j : Nat} {l m : Link}, c.links[j]? = some l → d.links[j]? = some m →
    (m.writerDone = true → l.writerDone = true ∨ j = i ∧ w'.isFinished = true) ∧
      (m.readerDone = true → l.readerDone = true ∨ j + 1 = i ∧ w'.isFinished = true)
  filing : s.world.Filing d.world use phase' (stored ++ y.stored)
  delivered : c.links[i]? = none → if w'.isFinished then
    ChainOutput.Received s.shown s.place s.node d.ends.output d.world
      (Text.endLine lineBreak (text ++ y.out))
    else ChainOutput.Delivered s.shown s.place s.node d.ends.output d.world (text ++ y.out)
  output : c.ends.output.Same d.ends.output
  paths : c.world.SamePaths d.world
  keeps : ∀ place, s.world.usePlace? use ≠ some place →
    (c.links[i]? = none → c.ends.output.sink.place? s.place ≠ some place) → c.world.KeepsAt d.world place
  covers : d.world.files.Covers c.world.files
  folders : ∀ place, d.world.files.node? place = some .folder →
    c.world.files.node? place = some .folder ∨ s.world.MadeFor use place
  inner : c.links[i]?.isSome → d.world.terminal = c.world.terminal ∧ d.ends.output = c.ends.output
  unwritten : c.links[i]? = none → w'.control.isWriting = false
  cancelled : d.isCancelled = c.isCancelled
  failures : d.failures = c.failures
  input : d.ends.input ≠ .terminal

/-- What is known of a stage that is about to take a step. -/
structure Before (s : Setup) (lineBreak : List Char) (use : Option FileUse) (c : Chain) (i : Nat)
    (w : Worker) (phase : FileUse.Phase) (g : List Char → Yield) (stored text : List Char) : Prop where
  length : c.workers.length = c.links.length + 1
  worker : c.workers[i]? = some w
  stands : w.Stands lineBreak use phase g
  unwritten : c.links[i]? = none → w.control.isWriting = false
  filing : s.world.Filing c.world use phase stored
  delivered : c.links[i]? = none →
    ChainOutput.Delivered s.shown s.place s.node c.ends.output c.world text
  innerBreak : c.links[i]?.isSome → lineBreak = ['\n']
  lastBreak : c.links[i]? = none → c.ends.output.lineTermination.toList = lineBreak
  apart : c.links[i]? = none → ∀ place, s.world.Needs use place →
    c.ends.output.sink.place? s.place ≠ some place
  paths : s.world.SamePaths c.world
  cancelled : c.isCancelled = false
  input : c.ends.input ≠ .terminal

variable {s : Setup} {lineBreak : List Char} {use : Option FileUse} {w w' : Worker}
  {phase phase' : FileUse.Phase} {g g' : List Char → Yield} {stored text : List Char} {y : Yield}

/-- All but the stages and the world is the same. -/
structure Still (c d : Chain) : Prop where
  workers : d.workers = c.workers
  links : d.links = c.links
  input : d.ends.input = c.ends.input
  output : d.ends.output = c.ends.output
  token : d.ends.token = c.ends.token
  failures : d.failures = c.failures

theorem Still.refl (c : Chain) : Still c c := ⟨rfl, rfl, rfl, rfl, rfl, rfl⟩

theorem still_withWorld (c : Chain) (w : World) : Still c (c.withWorld w) := ⟨rfl, rfl, rfl, rfl, rfl, rfl⟩

/-- A step of which nothing comes but what is done to the file of the stage, and perhaps a text that a
next stage that has finished does not get. -/
theorem worked_still (h : Before s lineBreak use c i w phase g stored text) (hstill : Still c d)
    (hworld : World.Tends s.world use c.world d.world)
    (hterminal : d.world.terminal = c.world.terminal) (hstands : w'.Stands lineBreak use phase' g')
    (hrun : w'.isFinished = false) (hyields : ∀ x, g x = y ++ g' x)
    (hout : y.out = [] ∨ ∃ l, c.links[i]? = some l ∧ l.readerDone = true)
    (hunwritten : c.links[i]? = none → w'.control.isWriting = false)
    (hfiling : s.world.Filing d.world use phase' (stored ++ y.stored)) :
    Worked s lineBreak use c i g stored text w' phase' g' y (d.setWorker i w') where
  workers := by rw [workers_setWorker, hstill.workers]
  stands := hstands
  yields rest _ := by rw [hyields, supply_setWorker, supply_of_eq hstill.links hstill.input]
  supply j _ _ := by rw [supply_setWorker, supply_of_eq hstill.links hstill.input]
  below l hl := by
    rcases hout with hout | ⟨k, hk, hdone⟩
    · rw [hout, List.append_nil, supply_setWorker, supply_of_eq hstill.links hstill.input]
      exact .inr rfl
    · cases hl.symm.trans hk
      exact .inl hdone
  length := by rw [links_setWorker, hstill.links]
  ended {j l m} hl hm := by
    rw [links_setWorker, hstill.links] at hm
    cases hl.symm.trans hm
    exact ⟨.inl, .inl⟩
  filing := hfiling
  delivered hlast := by
    have hout : y.out = [] := hout.resolve_right fun ⟨l, hl, _⟩ => by simp [hlast] at hl
    rw [hrun, hout, List.append_nil, ends_setWorker, hstill.output]
    have hkept := h.delivered hlast
    refine hkept.keep hterminal fun hplace => hworld.keeps _ fun hown => ?_
    exact h.apart hlast _ (.inl hown) hplace
  output := by
    rw [ends_setWorker, hstill.output]
    exact .refl _
  paths := hworld.paths
  keeps place hown _ := hworld.keeps place hown
  covers := hworld.covers
  folders := hworld.folders
  inner _ := ⟨hterminal, hstill.output⟩
  unwritten := hunwritten
  cancelled := by
    have htokens := hworld.tokens
    simp only [isCancelled, Ends.isCancelled, World.isCancelled, ends_setWorker, hstill.token]
    rw [show d.ends.world.tokens = c.ends.world.tokens from htokens]
  failures := hstill.failures
  input := by
    rw [ends_setWorker, hstill.input]
    exact h.input

theorem stands_resume {m : w.body.Meaning lineBreak use} {next : w.body.State}
    (hfits : m.fits next phase) (hfiles : w.files = phase.files) :
    (w.resume next).Stands lineBreak use phase (m.yield next) :=
  ⟨⟨m, .ready hfits⟩, hfiles⟩

/-- A step that changes nothing but the stage. -/
theorem worked_alone (h : Before s lineBreak use c i w phase g stored text)
    (hstands : w'.Stands lineBreak use phase g') (hrun : w'.isFinished = false)
    (hunwritten : c.links[i]? = none → w'.control.isWriting = false) (hyields : ∀ x, g x = g' x) :
    Worked s lineBreak use c i g stored text w' phase g' ⟨[], []⟩ (c.setWorker i w') := by
  have hworld : World.Tends s.world use c.world c.world := World.Apart.tends (.refl _ _)
  refine worked_still h (.refl c) hworld rfl hstands hrun hyields (.inl rfl) hunwritten ?_
  rw [List.append_nil]
  exact h.filing

/-- A step in which something is done to the file of the stage. -/
theorem worked_file (h : Before s lineBreak use c i w phase g stored text) {world : World}
    {added : List Char} {m : w.body.Meaning lineBreak use} {next : w.body.State} {files : List FileId}
    (hfiling : s.world.Filing world use phase' (stored ++ added))
    (hworld : World.Tends s.world use c.world world) (hterminal : world.terminal = c.world.terminal)
    (hfits : m.fits next phase') (hfiles : files = phase'.files)
    (hyields : ∀ x, g x = ⟨[], added⟩ ++ m.yield next x) :
    Worked s lineBreak use c i g stored text { w with control := .ready next, files } phase' (m.yield next)
      ⟨[], added⟩ ((c.withWorld world).setWorker i { w with control := .ready next, files }) :=
  worked_still h (still_withWorld c world) hworld hterminal ⟨⟨m, .ready hfits⟩, hfiles⟩ rfl hyields
    (.inl rfl) (fun _ => rfl) hfiling

/-- The last stage writes to the output of the chain. -/
theorem worked_perform (h : Before s lineBreak use c i w phase g stored text) {action : OutputAction}
    {m : w.body.Meaning lineBreak use} {next : w.body.State} (hlast : c.links[i]? = none)
    (hclear : action ≠ .clearScreen) (hfits : m.fits next phase)
    (hyields : ∀ x, g x = ⟨action.chars lineBreak, []⟩ ++ m.yield next x) :
    ∃ output world, c.ends.output.perform c.world action = (.ok (), output, world) ∧
      Worked s lineBreak use c i g stored text (w.resume next) phase (m.yield next)
        ⟨action.chars lineBreak, []⟩
        ({ c with ends := { c.ends with output, world } }.setWorker i (w.resume next)) := by
  obtain ⟨output, world, hperform, hdelivered, hsame, hworld⟩ :=
    ChainOutput.delivered_perform (h.delivered hlast) hclear
  rw [h.lastBreak hlast] at hdelivered
  refine ⟨output, world, hperform, rfl, stands_resume hfits h.stands.files, fun rest _ => hyields _,
    fun _ _ _ => rfl, ?_, rfl, ?_, ?_, fun _ => hdelivered, hsame, hworld.paths, ?_,
    fun place => (hworld.folders place).2, fun place hd => .inl ((hworld.folders place).1 hd), ?_,
    fun _ => rfl, ?_, rfl, h.input⟩
  · intro l hl
    cases hlast.symm.trans hl
  · intro j l m hl hm
    cases hl.symm.trans hm
    exact ⟨.inl, .inl⟩
  · rw [List.append_nil]
    exact h.filing.keep h.paths (hworld.spares (h.apart hlast))
  · intro place _ hother
    exact hworld.keeps place (hother hlast)
  · intro hsome
    simp [hlast] at hsome
  · simp only [isCancelled, Ends.isCancelled, World.isCancelled, ends_setWorker]
    rw [hworld.tokens]
    rfl

/-! ### Finishing -/

/-- A stage that finishes has all of its file written. -/
theorem filing_flushFiles (h : Before s lineBreak use c i w phase g stored text)
    (hopened : use.isSome → ∃ id, phase = .opened id) :
    s.world.Filing (c.flushFiles w.files).world use .closed stored ∧
      World.Tends s.world use c.world (c.flushFiles w.files).world ∧
      (c.flushFiles w.files).world.terminal = c.world.terminal := by
  have hfiling := h.filing
  rw [h.stands.files]
  cases use with
  | none =>
      cases hfiling with
      | nothing hfiles =>
          rw [hfiles]
          exact ⟨.nothing rfl, World.Apart.tends (.refl _ _), rfl⟩
  | some use =>
      obtain ⟨id, rfl⟩ := hopened rfl
      exact hfiling.flushFile.2

theorem supply_complete (c : Chain) (i : Nat) (w : Worker) (result : Except CommandError Unit) {j : Nat}
    (hj : j ≠ i) : (c.complete i w result).supply j = c.supply j := by
  cases j with
  | zero =>
      rw [supply, supply, ends_complete, (endOutput_eq _ i).2.1]
      rfl
  | succ k =>
      rw [supply, supply, links_complete, Option.map_map]
      congr 2
      funext l
      by_cases hki : k = i
      · simp [hki, Link.endWriting]
      · simp [hki, hj]

theorem received_complete (h : Before s lineBreak use c i w phase g stored text)
    (hflush : World.Tends s.world use c.world (c.flushFiles w.files).world)
    (hterminal : (c.flushFiles w.files).world.terminal = c.world.terminal)
    (result : Except CommandError Unit) (hlast : c.links[i]? = none) :
    ChainOutput.Received s.shown s.place s.node (c.complete i w result).ends.output
        (c.complete i w result).world (Text.endLine lineBreak text) ∧
      c.ends.output.Same (c.complete i w result).ends.output ∧
      World.Apart (c.ends.output.sink.place? s.place) (c.flushFiles w.files).world
        (c.complete i w result).world := by
  have hdelivered : ChainOutput.Delivered s.shown s.place s.node c.ends.output
      (c.flushFiles w.files).world text :=
    (h.delivered hlast).keep hterminal fun hplace =>
      hflush.keeps _ fun hown => h.apart hlast _ (.inl hown) hplace
  obtain ⟨output, world, hend, hreceived, hsame, hworld⟩ := ChainOutput.received_endOfCommand hdelivered
  have hends : (c.complete i w result).ends = { (c.flushFiles w.files).ends with output, world } := by
    rw [ends_complete, endOutput, show (c.flushFiles w.files).links[i]? = none from hlast]
    dsimp only
    rw [show (c.flushFiles w.files).ends.output = c.ends.output from rfl, hend]
  rw [h.lastBreak hlast] at hreceived
  rw [Chain.world, hends]
  exact ⟨hreceived, hsame, hworld⟩

theorem worked_finish (h : Before s lineBreak use c i w phase g stored text)
    (hopened : use.isSome → ∃ id, phase = .opened id) (hyields : ∀ x, g x = {}) :
    Worked s lineBreak use c i g stored text w.finish .closed (fun _ => {}) ⟨[], []⟩
      (c.complete i w (.ok ())) := by
  obtain ⟨hfiling, hflush, hterminal⟩ := filing_flushFiles h hopened
  have hreceived := received_complete h hflush hterminal (.ok ())
  have hinner : c.links[i]?.isSome → (c.complete i w (.ok ())).ends = (c.flushFiles w.files).ends :=
    ends_complete_inner w _
  have hrest : World.Apart (if c.links[i]?.isSome then none else c.ends.output.sink.place? s.place)
      (c.flushFiles w.files).world (c.complete i w (.ok ())).world := by
    cases hlink : c.links[i]? with
    | none => exact (hreceived hlink).2.2
    | some l =>
        rw [Chain.world, Chain.world, hinner (by simp [hlink])]
        exact .refl _ _
  have htoken : (c.complete i w (.ok ())).ends.token = c.ends.token := by
    rw [ends_complete, endOutput]
    split <;> rfl
  obtain ⟨m, -⟩ := h.stands.owes
  refine ⟨workers_complete c i w _, ⟨⟨m, .finished rfl⟩, rfl⟩, fun rest _ => hyields _,
    fun j hj _ => supply_complete c i w _ hj, fun l hl => .inr ?_, (around_complete c i w _).length,
    ?_, ?_, fun hlast => ?_, ?_, hflush.paths.trans hrest.paths, ?_,
    .trans (fun place => (hrest.folders place).2) hflush.covers,
    fun place hplace => hflush.folders place ((hrest.folders place).1 hplace), fun hlink => ?_,
    fun _ => rfl, ?_, failures_complete c i w, ?_⟩
  · rw [List.append_nil, supply_complete c i w _ (Nat.succ_ne_self i)]
  · intro j l k hl hk
    rw [links_complete, hl, Option.map_some, Option.some_inj] at hk
    subst hk
    by_cases hji : j = i
    · rw [if_pos hji]
      exact ⟨fun _ => .inr ⟨hji, rfl⟩, .inl⟩
    · rw [if_neg hji]
      by_cases hji' : j + 1 = i
      · rw [if_pos hji']
        exact ⟨.inl, fun _ => .inr ⟨hji', rfl⟩⟩
      · rw [if_neg hji']
        exact ⟨.inl, .inl⟩
  · rw [List.append_nil]
    refine hfiling.keep (h.paths.trans hflush.paths) (hrest.spares fun place hneeds => ?_)
    cases hlink : c.links[i]? with
    | none => exact h.apart hlink place hneeds
    | some l => simp
  · rw [List.append_nil]
    exact (hreceived hlast).1
  · cases hlink : c.links[i]? with
    | none => exact (hreceived hlink).2.1
    | some l =>
        rw [hinner (by simp [hlink])]
        exact .refl _
  · intro place hown hother
    refine (hflush.keeps place hown).trans (hrest.keeps place ?_)
    cases hlink : c.links[i]? with
    | none => exact hother hlink
    | some l => simp
  · rw [Chain.world, hinner hlink]
    exact ⟨hterminal, rfl⟩
  · simp only [isCancelled, Ends.isCancelled, World.isCancelled, htoken]
    rw [show (c.complete i w (.ok ())).ends.world.tokens = c.ends.world.tokens from
      hrest.tokens.trans hflush.tokens]
  · rw [ends_complete, (endOutput_eq _ i).2.1]
    exact h.input

end Chain

end CommandShell
