import CommandShell.Proofs.Chain.Completion
import CommandShell.Proofs.Chain.Pouring

/-!
What stages write, told step by step.  A course of a chain is told together with all that its stages write
to their output and as error text.  Main statement: if the output of the last stage goes to a file that no
stage opens, the file takes all that the last stage writes and nothing else, and the error text of each
stage is what that stage has written as such, in whatever order the stages take their steps.
-/

namespace CommandShell

open Text OutputAction

/-- Something that a stage writes: to its output, or as error text. -/
structure Saying where
  stage : Nat
  isError : Bool
  action : OutputAction

namespace Saying

/-- What a stage has written to its output, or as error text, in that order. -/
def actionsOf (said : List Saying) (stage : Nat) (isError : Bool) : List OutputAction :=
  said.filterMap fun x => if x.stage = stage ∧ x.isError = isError then some x.action else none

theorem actionsOf_append (said more : List Saying) (stage : Nat) (isError : Bool) :
    actionsOf (said ++ more) stage isError = actionsOf said stage isError ++ actionsOf more stage isError :=
  List.filterMap_append

theorem actionsOf_of_other {said : List Saying} {stage : Nat} (h : ∀ x ∈ said, x.stage ≠ stage) (isError : Bool) :
    actionsOf said stage isError = [] := by
  rw [actionsOf, List.filterMap_eq_nil_iff]
  intro x hx
  rw [if_neg fun hboth => h x hx hboth.1]

end Saying

open Saying

namespace Request

variable {σ : Type}

/-- What a stage writes with the request. -/
def saying? (stage : Nat) : Request σ → Option Saying
  | .output action _ => some ⟨stage, false, action⟩
  | .errorOutput action _ => some ⟨stage, true, action⟩
  | _ => none

theorem stage_of_saying? {request : Request σ} {stage : Nat} {x : Saying} (h : request.saying? stage = some x) :
    x.stage = stage := by
  cases request <;> cases h <;> rfl

/-- The request opens no file at the places of which `P` holds, and files are written to only by the stage
that has opened them. -/
def Minds (P : String → Prop) (w : World) (files : List FileId) : Request σ → Prop
  | .openFile path _ _ => ¬P (w.placeOf path)
  | .writeFile file _ _ | .flushFile file _ => file ∈ files
  | _ => True

end Request

theorem Ends.Read.leaves {e f : Ends} {P : String → Prop} (h : e.Read f) : e.world.Leaves P f.world := by
  have hlooked : ∀ {v : World}, e.world.Looked v → e.world.Leaves P v := by
    intro v hv
    induction hv with
    | refl => exact .refl P _
    | tail _ hlook ih =>
        subst hlook
        exact ih.trans (World.leaves_readKeys _)
  exact hlooked h.world

namespace Chain

variable {P : String → Prop} {c d e : Chain} {i : Nat} {w w' : Worker} {x? : Option Saying}

/-- What a stage writes with its next step. -/
def saying? (c : Chain) (i : Nat) : Option Saying :=
  match c.workers[i]? with
  | none => none
  | some w =>
    match w.control with
    | .ready s => (w.body.next s).saying? i
    | _ => none

/-- What the stage asks for next opens no file at the places of which `P` holds, and is no writing to a file
that the stage has not opened itself. -/
def Minds (P : String → Prop) (c : Chain) (i : Nat) : Prop :=
  ∀ w s, c.workers[i]? = some w → w.control = .ready s → (w.body.next s).Minds P c.world w.files

/-! ### One step -/

/-- The stages and the output are the same, and so is what is at the places of which `P` holds. -/
structure Beside (P : String → Prop) (c d : Chain) : Prop where
  workers : d.workers = c.workers
  length : d.links.length = c.links.length
  output : d.ends.output = c.ends.output
  world : c.world.Leaves P d.world

theorem Beside.refl (P : String → Prop) (c : Chain) : Beside P c c := ⟨rfl, rfl, rfl, .refl P _⟩

theorem beside_withWorld {world : World} (h : c.world.Leaves P world) : Beside P c (c.withWorld world) :=
  ⟨rfl, rfl, rfl, h⟩

theorem beside_of_read {ends : Ends} (h : c.ends.Read ends) : Beside P c { c with ends } :=
  ⟨rfl, rfl, h.output, h.leaves⟩

/-- Stage `i` has taken a step, with which it has written `x?`. -/
inductive Told (P : String → Prop) (c : Chain) (i : Nat) (w : Worker) : Option Saying → Chain → Prop
  /-- What it has written waits, as error text or on its way to the next stage. -/
  | goOn {d : Chain} {w' : Worker} {x? : Option Saying} (hbeside : Beside P c d) (hrun : w'.isFinished = false)
      (hfiles : d.world.OpenElsewhere P w'.files)
      (herrors : w'.errorText = w.errorText ++ String.ofList (textOf (actionsOf x?.toList i true)))
      (hinner : c.links[i]? = none → actionsOf x?.toList i false = []) : Told P c i w x? (d.setWorker i w')
  /-- It has written to the output of the chain. -/
  | output {action : OutputAction} {next : w.body.State} {output : ChainOutput} {world : World}
      (hlast : c.links[i]? = none) (hperform : c.ends.output.perform c.world action = (.ok (), output, world)) :
      Told P c i w (some ⟨i, false, action⟩)
        ({ c with ends := { c.ends with output, world } }.setWorker i (w.resume next))
  | complete (result : Except CommandError Unit) : Told P c i w none (c.complete i w result)

theorem told_quiet {control : Control w.body.State} {files : List FileId} {wake : Nat} (hbeside : Beside P c d)
    (hrun : { w with control, files, wake }.isFinished = false) (hfiles : d.world.OpenElsewhere P files) :
    Told P c i w none (d.setWorker i { w with control, files, wake }) :=
  .goOn hbeside hrun hfiles (by simp [actionsOf, textOf]) fun _ => rfl

theorem told_resume (s : w.body.State) (hbeside : Beside P c d) (hfiles : c.world.OpenElsewhere P w.files) :
    Told P c i w none (d.setWorker i (w.resume s)) :=
  told_quiet hbeside rfl (hfiles.keep hbeside.world)

/-- The output of the chain takes all that is written to it. -/
def TakesAll (c : Chain) : Prop :=
  ∀ action, ∃ output world, c.ends.output.perform c.world action = (.ok (), output, world)

theorem told_output (action : OutputAction) (next : w.body.State) (hfiles : c.world.OpenElsewhere P w.files)
    (htakes : c.links[i]? = none → c.TakesAll) :
    Told P c i w (some ⟨i, false, action⟩) (c.output i w action next) := by
  rcases hl : c.links[i]? with _ | l
  · obtain ⟨output, world, hperform⟩ := htakes hl action
    simp only [Chain.output, hl, hperform]
    exact .output hl hperform
  · simp only [Chain.output, hl]
    exact .goOn (.refl P c) rfl hfiles (by simp [actionsOf, textOf]) fun hlast => by simp [hl] at hlast

theorem told_serve (request : Request w.body.State) (hminds : request.Minds P c.world w.files)
    (hfiles : c.world.OpenElsewhere P w.files) (htakes : c.links[i]? = none → c.TakesAll) :
    Told P c i w (request.saying? i) (c.serve i w request) := by
  cases request with
  | finish result => exact .complete result
  | output action next => exact told_output action next hfiles htakes
  | errorOutput action next =>
      exact .goOn (.refl P c) rfl hfiles (by simp [actionsOf, textOf, Request.saying?])
        fun _ => by simp [actionsOf, Request.saying?]
  | read extent next => exact told_quiet (.refl P c) rfl hfiles
  | readKey next => exact told_quiet (.refl P c) rfl hfiles
  | flushKeys next => exact told_resume next (beside_of_read (c.ends.read_flushKeys i)) hfiles
  | sleep ms next => exact told_quiet (.refl P c) rfl hfiles
  | checkCancelled next => exact told_resume _ (.refl P c) hfiles
  | cancel next => exact told_resume next ⟨rfl, rfl, rfl, World.leaves_of_eq rfl rfl (.refl _)⟩ hfiles
  | endSession hard next => exact told_resume next (beside_withWorld (c.world.leaves_endSession _ hard)) hfiles
  | history next => exact told_resume _ (.refl P c) hfiles
  | sessions next => exact told_resume _ (.refl P c) hfiles
  | environment change next =>
      exact told_resume _ (beside_withWorld (World.leaves_of_eq rfl rfl (.refl _))) hfiles
  | load path next =>
      rcases hload : c.world.load path with e | text <;> simp only [serve, hload]
      · exact .complete _
      · exact told_resume _ (.refl P c) hfiles
  | makeFoldersFor path next =>
      rcases hmake : c.world.makeFoldersFor path with fault | world <;> simp only [serve, hmake]
      · exact .complete _
      · exact told_resume next (beside_withWorld (World.leaves_makeFoldersFor hmake)) hfiles
  | openFile path append next =>
      rcases hopen : c.world.openFile path append with e | ⟨file, world⟩ <;> simp only [serve, hopen]
      · exact .complete _
      · obtain ⟨hleaves, hfile⟩ := World.leaves_openFile hopen hminds
        refine told_quiet (beside_withWorld hleaves) rfl fun id hid => ?_
        rcases List.mem_append.1 hid with hid | hid
        · exact hfiles.keep hleaves id hid
        · obtain rfl := List.mem_singleton.1 hid
          exact hfile
  | writeFile file text next =>
      obtain ⟨f, hf, hplace⟩ := hfiles file hminds
      exact told_resume next (beside_withWorld (World.leaves_writeFile hf hplace text)) hfiles
  | flushFile file next =>
      obtain ⟨f, hf, hplace⟩ := hfiles file hminds
      exact told_resume next (beside_withWorld (World.leaves_flushFile hf hplace)) hfiles

theorem told_pushChar {x : Char} {rest : List Char} {next : w.body.State}
    (hfiles : c.world.OpenElsewhere P w.files) (h : c.pushChar i w x rest next = some d) :
    Told P c i w none d := by
  rw [pushChar] at h
  split at h
  · cases h
    exact told_resume next (.refl P c) hfiles
  · split at h <;> cases h
    · exact told_quiet ⟨rfl, by simp, rfl, .refl P _⟩ rfl hfiles
    · exact told_resume next (.refl P c) hfiles

theorem told_readOn {r : Reading} {next : Option String → w.body.State} (hcontrol : w.control = .reading r next)
    (hfiles : c.world.OpenElsewhere P w.files) (h : c.readOn i w r next = some d) : Told P c i w none d := by
  rw [readOn] at h
  rcases hstep : r.step (tryRead i) (readChar i) c with ⟨next?, e⟩
  obtain ⟨fed, hfed, -⟩ := Reading.fed_of_step hstep
  obtain ⟨hworkers, haround⟩ := fed_around hfed
  have hread := read_of_fed hfed
  have hbeside : Beside P c e := ⟨hworkers, haround.length, hread.output, hread.leaves⟩
  rw [hstep] at h
  split at h
  · next heq =>
      cases heq
      cases h
      exact told_quiet hbeside rfl (hfiles.keep hbeside.world)
  · next heq =>
      cases heq
      cases h
      exact told_resume _ hbeside hfiles
  · next heq =>
      cases heq
      split at h <;> cases h
      exact told_quiet hbeside (by simp only [Worker.isFinished, hcontrol]) (hfiles.keep hbeside.world)

theorem told_lookForKey {waited : Bool} {next : Option Key → w.body.State}
    (hfiles : c.world.OpenElsewhere P w.files) : Told P c i w none (c.lookForKey i w waited next) := by
  have hread := c.ends.read_readKey i
  rw [lookForKey]
  split
  · exact told_resume _ (.refl P c) hfiles
  · split
    all_goals
      next htake =>
        rw [htake] at hread
        have hbeside := beside_of_read (P := P) hread
        exact told_quiet hbeside rfl (hfiles.keep hbeside.world)

theorem told_of_step (hminds : c.Minds P i)
    (hfiles : ∀ {w}, c.workers[i]? = some w → c.world.OpenElsewhere P w.files)
    (htakes : ∀ {w}, c.workers[i]? = some w → w.isFinished = false → c.links[i]? = none → c.TakesAll)
    (h : c.step i = some d) :
    ∃ w, c.workers[i]? = some w ∧ w.isFinished = false ∧ Told P c i w (c.saying? i) d := by
  obtain ⟨w, hw, hrun, -⟩ := stepped_of_step h
  refine ⟨w, hw, hrun, ?_⟩
  have hfiles := hfiles hw
  rw [step, hw] at h
  rw [saying?, hw]
  dsimp only at h ⊢
  split at h
  · cases h
  · -- only a stage that is ready can write anything
    split at h
    · cases h
    · next s hcontrol =>
        cases h
        rw [hcontrol]
        exact told_serve _ (hminds w s hw hcontrol) hfiles (htakes hw hrun)
    · next hcontrol =>
        cases h
        rw [hcontrol]
        exact told_resume _ (.refl P c) hfiles
    · next hcontrol =>
        rw [hcontrol]
        exact told_pushChar hfiles h
    · next hcontrol =>
        rw [hcontrol]
        exact told_readOn hcontrol hfiles h
    · next hcontrol =>
        cases h
        rw [hcontrol]
        exact told_lookForKey hfiles
    · next hcontrol =>
        cases h
        rw [hcontrol]
        exact told_resume _ (.refl P c) hfiles

/-! ### The account -/

/-- The text that a stage has on its error output. -/
def errorTextOf (said : List Saying) (i : Nat) : String := String.ofList (textOf (actionsOf said i true))

/-- What all that has been written comes to: the file of the output has what the last stage has written to
its output, each stage has its own error text, and the rest is as it was in the world at the start. -/
structure Account (P : String → Prop) (t : Destination) (start : World) (said : List Saying) (c : Chain) :
    Prop where
  length : c.workers.length = c.links.length + 1
  output : ∀ {w : Worker}, c.workers[c.links.length]? = some w →
    let actions := actionsOf said c.links.length false
    if w.isFinished then t.Holds c.world (textOf actions ++ finalBreak actions)
    else c.ends.output.Poured t c.world (textOf actions) (sinceClear actions)
  errors : ∀ {i : Nat} {w : Worker}, c.workers[i]? = some w →
    w.errorText = if w.isFinished then endErrorText (errorTextOf said i) else errorTextOf said i
  files : ∀ {i : Nat} {w : Worker}, c.workers[i]? = some w → c.world.OpenElsewhere P w.files
  world : start.Leaves (fun place => P place ∧ place ≠ t.place) c.world

variable {t : Destination} {start : World} {said : List Saying}

/-- What the file has once all stages have finished. -/
theorem Account.holds (h : Account P t start said c) (hfinished : c.isFinished = true) :
    t.Holds c.world (textOf (actionsOf said c.links.length false) ++
      finalBreak (actionsOf said c.links.length false)) := by
  have hlast : c.links.length < c.workers.length := by
    rw [h.length]
    exact Nat.lt_succ_self _
  have htext := h.output (List.getElem?_eq_getElem hlast)
  rwa [List.all_eq_true.1 hfinished _ (List.getElem_mem hlast)] at htext

theorem errorTextOf_append (said more : List Saying) (i : Nat) : errorTextOf (said ++ more) i =
    errorTextOf said i ++ String.ofList (textOf (actionsOf more i true)) := by
  rw [errorTextOf, actionsOf_append, textOf, List.flatMap_append, String.ofList_append]
  rfl

theorem stage_of_saying? {x : Saying} (h : c.saying? i = some x) : x.stage = i := by
  rw [saying?] at h
  split at h
  · cases h
  · split at h
    · exact Request.stage_of_saying? h
    · cases h

theorem actionsOf_concat_other {j : Nat} (hstage : ∀ x ∈ x?, x.stage = i) (hj : j ≠ i) (isError : Bool) :
    actionsOf (said ++ x?.toList) j isError = actionsOf said j isError := by
  have hother : ∀ x ∈ x?.toList, x.stage ≠ j := fun x hx => by
    rw [hstage x (Option.mem_toList.1 hx)]
    exact hj.symm
  rw [actionsOf_append, actionsOf_of_other hother, List.append_nil]

theorem getElem?_setWorker {j : Nat} {v : Worker} (h : (c.setWorker i w').workers[j]? = some v) :
    j = i ∧ v = w' ∨ j ≠ i ∧ c.workers[j]? = some v := by
  rw [workers_setWorker, List.getElem?_set] at h
  split at h
  · next hij =>
      split at h <;> cases h
      exact .inl ⟨hij.symm, rfl⟩
  · next hij => exact .inr ⟨Ne.symm hij, h⟩

/-- What happens beside the stages keeps the account. -/
theorem Account.beside (hplace : P t.place) (h : Account P t start said c) (hbeside : Beside P c d) :
    Account P t start said d := by
  have hkeep := hbeside.world.keeps t.place hplace
  refine ⟨by rw [hbeside.workers, hbeside.length, h.length], ?_, ?_, ?_,
    h.world.trans (hbeside.world.mono fun _ hq => hq.1)⟩
  · intro v hv
    rw [hbeside.workers, hbeside.length] at hv
    have hv := h.output hv
    rw [hbeside.length, hbeside.output]
    split at hv
    · next hfinished => rw [if_pos hfinished]; exact hv.keep hkeep
    · next hrun => rw [if_neg hrun]; exact hv.keep hkeep
  · rw [hbeside.workers]
    exact h.errors
  · rw [hbeside.workers]
    exact fun hv => (h.files hv).keep hbeside.world

theorem Account.errors_of_step (h : Account P t start said c) (x? : Option Saying)
    (hstage : ∀ x ∈ x?, x.stage = i) (hworkers : d.workers = c.workers.set i w')
    (hself : w'.errorText = if w'.isFinished then endErrorText (errorTextOf (said ++ x?.toList) i)
      else errorTextOf (said ++ x?.toList) i)
    {j : Nat} {v : Worker} (hv : d.workers[j]? = some v) :
    v.errorText = if v.isFinished then endErrorText (errorTextOf (said ++ x?.toList) j)
      else errorTextOf (said ++ x?.toList) j := by
  rw [hworkers] at hv
  rcases getElem?_setWorker hv with ⟨rfl, rfl⟩ | ⟨hj, hv⟩
  · exact hself
  · rw [errorTextOf, actionsOf_concat_other hstage hj]
    exact h.errors hv

theorem Account.goOn (h : Account P t start said c) (hw : c.workers[i]? = some w) (hrun : w.isFinished = false)
    (hrun' : w'.isFinished = false) (hfiles : c.world.OpenElsewhere P w'.files)
    (herrors : w'.errorText = w.errorText ++ String.ofList (textOf (actionsOf x?.toList i true)))
    (hinner : c.links[i]? = none → actionsOf x?.toList i false = []) (hstage : ∀ x ∈ x?, x.stage = i) :
    Account P t start (said ++ x?.toList) (c.setWorker i w') := by
  -- what goes to a link is not written by the last stage
  have hsame : actionsOf (said ++ x?.toList) c.links.length false = actionsOf said c.links.length false := by
    by_cases hi : c.links.length = i
    · rw [actionsOf_append, hi, hinner (by simp [← hi]), List.append_nil]
    · exact actionsOf_concat_other hstage hi false
  refine ⟨by simpa using h.length, ?_, h.errors_of_step x? hstage rfl ?_, ?_, h.world⟩
  · intro v hv
    rw [links_setWorker, hsame]
    rcases getElem?_setWorker hv with ⟨hi, rfl⟩ | ⟨-, hv⟩
    · have houtput := h.output (hi ▸ hw)
      rw [hrun] at houtput
      rw [hrun']
      exact houtput
    · exact h.output hv
  · rw [hrun', errorTextOf_append, herrors, h.errors hw, hrun]
    rfl
  · intro j v hv
    rcases getElem?_setWorker hv with ⟨-, rfl⟩ | ⟨-, hv⟩
    · exact hfiles
    · exact h.files hv

/-- The stage without a link after it is the last one. -/
theorem Account.eq_last (h : Account P t start said c) (hw : c.workers[i]? = some w) (hlast : c.links[i]? = none) :
    i = c.links.length := by
  have hi := (List.getElem?_eq_some_iff.1 hw).1
  have hle := List.getElem?_eq_none_iff.1 hlast
  have hlength := h.length
  omega

theorem Account.written (h : Account P t start said c) (hw : c.workers[i]? = some w)
    (hrun : w.isFinished = false) (hlast : c.links[i]? = none) {action : OutputAction} {next : w.body.State}
    {output : ChainOutput} {world : World} (hperform : c.ends.output.perform c.world action = (.ok (), output, world)) :
    Account P t start (said ++ [⟨i, false, action⟩])
      ({ c with ends := { c.ends with output, world } }.setWorker i (w.resume next)) := by
  obtain rfl := h.eq_last hw hlast
  have hpoured := h.output hw
  rw [hrun] at hpoured
  obtain ⟨p, v, hperform', hafter, hleaves⟩ := ChainOutput.poured_perform hpoured action
  cases hperform.symm.trans hperform'
  have hactions : actionsOf (said ++ [⟨c.links.length, false, action⟩]) c.links.length false =
      actionsOf said c.links.length false ++ [action] := by
    simp [actionsOf]
  have hstage : ∀ x ∈ some (⟨c.links.length, false, action⟩ : Saying), x.stage = c.links.length := by
    rintro x ⟨⟩
    rfl
  refine ⟨by simpa using h.length, ?_, h.errors_of_step (some _) hstage rfl ?_, ?_,
    h.world.trans (hleaves.mono fun _ hq => hq.2)⟩
  · intro v hv
    rw [links_setWorker, hactions]
    rcases getElem?_setWorker hv with ⟨-, rfl⟩ | ⟨hne, -⟩
    · exact hafter
    · exact absurd rfl hne
  · have herrors := h.errors hw
    rw [hrun] at herrors
    rw [errorTextOf_append]
    simpa [Worker.resume, Worker.isFinished, actionsOf, textOf] using herrors
  · intro j v hv
    rcases getElem?_setWorker hv with ⟨-, rfl⟩ | ⟨-, hv⟩
    · exact (h.files hw).keep hleaves
    · exact (h.files hv).keep hleaves

/-- A stage that finishes ends its error text, whatever becomes of the output. -/
theorem Account.finished (h : Account P t start said c) (hw : c.workers[i]? = some w) (hrun : w.isFinished = false)
    {result : Except CommandError Unit}
    (hleaves : c.world.Leaves (fun place => P place ∧ place ≠ t.place) (c.complete i w result).world)
    (houtput : ∀ {v : Worker}, (c.workers.set i w.finish)[c.links.length]? = some v →
      let actions := actionsOf said c.links.length false
      if v.isFinished then t.Holds (c.complete i w result).world (textOf actions ++ finalBreak actions)
      else (c.complete i w result).ends.output.Poured t (c.complete i w result).world (textOf actions)
        (sinceClear actions)) :
    Account P t start said (c.complete i w result) := by
  have herrors := h.errors hw
  rw [hrun] at herrors
  have hself : w.finish.errorText = endErrorText (errorTextOf said i) := congrArg endErrorText herrors
  have hall := h.errors_of_step none nofun (workers_complete c i w result)
  rw [Option.toList_none, List.append_nil] at hall
  refine ⟨?_, ?_, hall hself, ?_, h.world.trans hleaves⟩
  · rw [workers_complete, List.length_set, (around_complete c i w result).length, h.length]
  · intro v hv
    rw [workers_complete, (around_complete c i w result).length] at hv
    rw [(around_complete c i w result).length]
    exact houtput hv
  · intro j v hv
    rw [workers_complete] at hv
    rcases getElem?_setWorker hv with ⟨-, rfl⟩ | ⟨-, hv⟩
    · exact fun id hid => absurd hid List.not_mem_nil
    · exact (h.files hv).keep hleaves

theorem Account.complete (hplace : P t.place) (h : Account P t start said c) (hw : c.workers[i]? = some w)
    (hrun : w.isFinished = false) (result : Except CommandError Unit) :
    Account P t start said (c.complete i w result) := by
  -- flushing the stage's own files is beside the account; then only the last stage ends the output
  have hflush : c.world.Leaves P (c.flushFiles w.files).world := World.leaves_flushFiles (h.files hw)
  have hflushed := h.beside hplace (beside_withWorld hflush)
  have hothers := hflush.mono (Q := fun place => P place ∧ place ≠ t.place) fun _ hq => hq.1
  rcases hlink : c.links[i]? with _ | l
  · obtain rfl := h.eq_last hw hlink
    have hpoured := hflushed.output hw
    rw [hrun] at hpoured
    obtain ⟨p, v, hend, hholds, hleaves⟩ := ChainOutput.poured_endOfCommand hpoured
    have hends : (c.complete c.links.length w result).ends =
        { (c.flushFiles w.files).ends with output := p, world := v } := by
      rw [ends_complete, endOutput, show (c.flushFiles w.files).links[c.links.length]? = none from hlink]
      dsimp only
      rw [show (c.flushFiles w.files).ends.output.endOfCommand (c.flushFiles w.files).world = (.ok (), p, v) from hend]
    have hworld : (c.complete c.links.length w result).world = v := by rw [Chain.world, hends]
    refine h.finished hw hrun ?_ fun {u} hu => ?_ <;> rw [hworld]
    · exact hothers.trans (hleaves.mono fun _ hq => hq.2)
    · rcases getElem?_setWorker hu with ⟨-, rfl⟩ | ⟨hne, -⟩
      · exact hholds
      · exact absurd rfl hne
  · have hends := ends_complete_inner w result (Option.isSome_iff_exists.2 ⟨l, hlink⟩)
    have hworld : (c.complete i w result).world = (c.flushFiles w.files).world := by rw [Chain.world, hends]; rfl
    have hne : c.links.length ≠ i := by
      rintro rfl
      simp at hlink
    refine h.finished hw hrun ?_ fun {u} hu => ?_ <;> rw [hworld]
    · exact hothers
    · rcases getElem?_setWorker hu with ⟨hi, -⟩ | ⟨-, hu⟩
      · exact absurd hi hne
      · rw [hends]
        exact hflushed.output hu

theorem Account.told (hplace : P t.place) (h : Account P t start said c) (hw : c.workers[i]? = some w)
    (hrun : w.isFinished = false) (hstage : ∀ x ∈ x?, x.stage = i) (htold : Told P c i w x? d) :
    Account P t start (said ++ x?.toList) d := by
  cases htold with
  | goOn hbeside hrun' hfiles herrors hinner =>
      rw [← hbeside.workers] at hw
      refine (h.beside hplace hbeside).goOn hw hrun hrun' hfiles herrors (fun hlast => hinner ?_) hstage
      rwa [List.getElem?_eq_none_iff, hbeside.length, ← List.getElem?_eq_none_iff] at hlast
  | output hlast hperform => exact h.written hw hrun hlast hperform
  | complete result =>
      rw [Option.toList_none, List.append_nil]
      exact h.complete hplace hw hrun result

theorem Account.step (hplace : P t.place) (h : Account P t start said c) (hminds : c.Minds P i)
    (hstep : c.step i = some d) : Account P t start (said ++ (c.saying? i).toList) d := by
  obtain ⟨w, hw, hrun, htold⟩ := told_of_step hminds h.files (fun hw hrun hlast action => by
    obtain rfl := h.eq_last hw hlast
    have hpoured := h.output hw
    rw [hrun] at hpoured
    obtain ⟨output, world, hperform, -⟩ := ChainOutput.poured_perform hpoured action
    exact ⟨output, world, hperform⟩) hstep
  exact h.told hplace hw hrun (fun x hx => stage_of_saying? hx) htold

/-! ### A whole course -/

/-- The chain after some time in which no stage has opened a file at the places of which `P` holds, with what
has been written and what has been completed in the meantime.  The world may change by itself as long as
these places and the screen are left alone and no cancellation is undone. -/
inductive Tale (P : String → Prop) (c : Chain) : List Saying → List Completion → Chain → Prop
  | refl : Tale P c [] [] c
  | step {d e : Chain} {said : List Saying} {log : List Completion} {i : Nat} (h : Tale P c said log d)
      (hminds : d.Minds P i) (hstep : d.step i = some e) :
      Tale P c (said ++ (d.saying? i).toList) (log ++ (d.completion? i).toList) e
  | tick {d e : Chain} {said : List Saying} {log : List Completion} (h : Tale P c said log d)
      (htick : d.tick = some e) : Tale P c said log e
  | outside {d : Chain} {said : List Saying} {log : List Completion} {w : World} (h : Tale P c said log d)
      (hleaves : d.world.Leaves P w) (hcancelled : d.isCancelled = true → (d.withWorld w).isCancelled = true) :
      Tale P c said log (d.withWorld w)

variable {log : List Completion}

theorem Tale.course (h : Tale P c said log d) : Course c log d := by
  induction h with
  | refl => exact .refl
  | step _ _ hstep ih => exact ih.step hstep
  | tick _ htick ih => exact ih.tick htick
  | outside _ _ hcancelled ih => exact ih.outside hcancelled

theorem Account.of_tale (hplace : P t.place) (h : Account P t start [] c) (htale : Tale P c said log d) :
    Account P t start said d := by
  induction htale with
  | refl => exact h
  | step _ hminds hstep ih => exact ih.step hplace hminds hstep
  | tick _ htick ih =>
      obtain ⟨time, rfl⟩ := tick_eq htick
      exact ih.beside hplace ⟨rfl, rfl, rfl, .refl P _⟩
  | outside _ hleaves _ ih => exact ih.beside hplace (beside_withWorld hleaves)

end Chain

end CommandShell
