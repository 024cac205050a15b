import CommandShell.Proofs.Chain.Cancelling

/-!
How the stages of a chain complete.  The result that a stage completes with is read off the step that
completes it, and a course of a chain goes with the list of its completions.  Main statement: the books
that a chain keeps of failures and of cancelled stages follow from that list, in whatever order the
stages complete and whenever the pipeline is cancelled.
-/

namespace CommandShell

/-- A stage has completed. -/
structure Completion where
  stage : Nat
  result : Except CommandError Unit
  /-- The error text of the stage, of which nothing has been shown yet. -/
  queued : String
  /-- Whether the pipeline was cancelled before. -/
  cancelled : Bool

/-- What a stage is set up with, which it keeps. -/
structure Seat where
  context : Context
  invocation : Invocation

def Worker.seat (w : Worker) : Seat := ⟨w.context, w.invocation⟩

namespace Seat

/-- What the commands of the stages make of an earlier stage's failure. -/
def hooks (seats : List Seat) : List (StageError → Option StageError) :=
  seats.filterMap fun s =>
    match s.invocation.stage with
    | .command r _ => some (r.command.relayError s.context)
    | .failed _ => none

/-- A failure after all hooks in order; none if one of them swallows it. -/
def relayThrough (seats : List Seat) (e : StageError) : Option StageError :=
  (hooks seats).foldlM (fun e hook => hook e) e

theorem relayThrough_map_seat (ws : List Worker) (e : StageError) :
    relayThrough (ws.map Worker.seat) e = Chain.relayAll ws e := by
  induction ws generalizing e with
  | nil => rfl
  | cons w ws ih =>
      rw [Chain.relayAll, Worker.relay, Invocation.relay]
      rcases hstage : w.invocation.stage with ⟨r, binding⟩ | error
      · have hcons : hooks (List.map Worker.seat (w :: ws)) =
            r.command.relayError w.context :: hooks (ws.map Worker.seat) := by
          simp [hooks, Worker.seat, hstage]
        rw [relayThrough, hcons, List.foldlM_cons]
        exact Option.bind_congr fun e _ => ih e
      · have hcons : hooks (List.map Worker.seat (w :: ws)) = hooks (ws.map Worker.seat) := by
          simp [hooks, Worker.seat, hstage]
        rw [relayThrough, hcons]
        exact ih e

end Seat

namespace Completion

/-- What is to be reported of a stage that has not been cancelled: its failure, as all later stages
leave it. -/
def failure? (seats : List Seat) (x : Completion) : Option StageError :=
  match x.cancelled, x.result, seats[x.stage]? with
  | false, .error e, some s =>
    Seat.relayThrough (seats.drop (x.stage + 1)) ⟨s.invocation.displayName, s.context.rawText, e⟩
  | _, _, _ => none

end Completion

namespace Chain

variable {c d e : Chain} {i : Nat} {w w' : Worker} {log : List Completion}

/-! ### One step -/

/-- The result that a request completes its stage with; none if the stage goes on. -/
def resultOf (c : Chain) (i : Nat) {σ : Type} : Request σ → Option (Except CommandError Unit)
  | .finish result => some result
  | .output action _ =>
    match c.links[i]?, (c.ends.output.perform c.world action).1 with
    | none, .error fault => some (.error (.io fault))
    | _, _ => none
  | .load path _ =>
    match c.world.load path with
    | .error e => some (.error (.setup e))
    | .ok _ => none
  | .makeFoldersFor path _ =>
    match c.world.makeFoldersFor path with
    | .error fault => some (.error (.io (.file fault)))
    | .ok _ => none
  | .openFile path append _ =>
    match c.world.openFile path append with
    | .error e => some (.error (.setup e))
    | .ok _ => none
  | _ => none

/-- The result that the next step of a stage completes it with; none if the stage goes on. -/
def result? (c : Chain) (i : Nat) : Option (Except CommandError Unit) :=
  match c.workers[i]? with
  | none => none
  | some w =>
    match w.control with
    | .ready s => c.resultOf i (w.body.next s)
    | _ => none

/-- What the next step of a stage completes. -/
def completion? (c : Chain) (i : Nat) : Option Completion :=
  match c.workers[i]?, c.result? i with
  | some w, some result =>
    some { stage := i, result, queued := w.errorText, cancelled := c.isCancelled }
  | _, _ => none

/-- Stage `i` has taken a step: it goes on, or the step completes it. -/
inductive Stepped (c : Chain) (i : Nat) (w : Worker) : Option (Except CommandError Unit) → Chain → Prop
  | goOn {d : Chain} {w' : Worker} (hkept : Kept c d) (hseat : w'.seat = w.seat)
      (hrun : w'.isFinished = false) : Stepped c i w none (d.setWorker i w')
  | complete {d : Chain} (result : Except CommandError Unit) (hkept : Kept c d)
      (hcancelled : d.isCancelled = c.isCancelled) : Stepped c i w (some result) (d.complete i w result)

theorem stepped_resume (s : w.body.State) (hkept : Kept c d) :
    Stepped c i w none (d.setWorker i (w.resume s)) := .goOn hkept rfl rfl

theorem stepped_output (action : OutputAction) (next : w.body.State) :
    Stepped c i w (c.resultOf i (.output action next)) (c.output i w action next) := by
  rcases hl : c.links[i]? with _ | l
  · have hstanding := ChainOutput.standing_perform c.ends.output c.world action
    rcases hperform : c.ends.output.perform c.world action with ⟨result, out, world⟩
    rw [hperform] at hstanding
    have haside : c.ends.Aside { c.ends with output := out, world } := ⟨rfl, hstanding⟩
    simp only [output, resultOf, hl, hperform]
    cases result with
    | ok => exact stepped_resume next (.of_ends haside.later)
    | error fault => exact .complete _ (.of_ends haside.later) haside.isCancelled
  · simp only [output, resultOf, hl]
    exact .goOn (.refl c) rfl rfl

theorem stepped_serve (request : Request w.body.State) :
    Stepped c i w (c.resultOf i request) (c.serve i w request) := by
  cases request with
  | finish result => exact .complete result (.refl c) rfl
  | output action next => exact stepped_output action next
  | errorOutput action next => exact .goOn (.refl c) rfl rfl
  | read extent next => exact .goOn (.refl c) rfl rfl
  | readKey next => exact .goOn (.refl c) rfl rfl
  | flushKeys next => exact stepped_resume next (.of_ends (c.ends.read_flushKeys i).later)
  | sleep ms next => exact .goOn (.refl c) rfl rfl
  | checkCancelled next => exact stepped_resume _ (.refl c)
  | cancel next => exact stepped_resume next (.of_ends ⟨rfl, World.onward_cancel _ _⟩)
  | endSession hard next => exact stepped_resume next (kept_withWorld (World.onward_endSession _ _ _))
  | history next => exact stepped_resume _ (.refl c)
  | sessions next => exact stepped_resume _ (.refl c)
  | environment change next => exact stepped_resume _ (kept_withWorld .refl)
  | load path next =>
      rcases hload : c.world.load path with e | text <;> simp only [serve, resultOf, hload]
      · exact .complete _ (.refl c) rfl
      · exact stepped_resume _ (.refl c)
  | makeFoldersFor path next =>
      rcases hmake : c.world.makeFoldersFor path with fault | world <;> simp only [serve, resultOf, hmake]
      · exact .complete _ (.refl c) rfl
      · exact stepped_resume next (kept_withWorld (World.onward_of_eq (World.standing_makeFoldersFor hmake)))
  | openFile path append next =>
      rcases hopen : c.world.openFile path append with e | ⟨file, world⟩ <;>
        simp only [serve, resultOf, hopen]
      · exact .complete _ (.refl c) rfl
      · exact .goOn (kept_withWorld (World.onward_of_eq (World.standing_openFile hopen))) rfl rfl
  | writeFile file text next =>
      exact stepped_resume next (kept_withWorld (World.onward_of_eq (World.standing_writeFile _ _ _)))
  | flushFile file next =>
      exact stepped_resume next (kept_withWorld (World.onward_of_eq (World.standing_flushFile _ _)))

theorem stepped_pushChar {x : Char} {rest : List Char} {next : w.body.State}
    (h : c.pushChar i w x rest next = some d) : Stepped c i w none d := by
  rw [pushChar] at h
  split at h
  · cases h
    exact stepped_resume next (.refl c)
  · split at h <;> cases h
    · exact .goOn (kept_setLink c i _) rfl rfl
    · exact stepped_resume next (.refl c)

theorem stepped_readOn {r : Reading} {next : Option String → w.body.State}
    (hcontrol : w.control = .reading r next) (h : c.readOn i w r next = some d) :
    Stepped c i w none d := by
  rw [readOn] at h
  rcases hstep : r.step (tryRead i) (readChar i) c with ⟨next?, e⟩
  obtain ⟨fed, hfed, -⟩ := Reading.fed_of_step hstep
  have hkept := kept_of_fed hfed
  rw [hstep] at h
  split at h
  · next heq =>
      cases heq
      cases h
      exact .goOn hkept rfl rfl
  · next heq =>
      cases heq
      cases h
      exact stepped_resume _ hkept
  · next heq =>
      cases heq
      split at h <;> cases h
      exact .goOn hkept rfl (by simp only [Worker.isFinished, hcontrol])

theorem stepped_lookForKey {waited : Bool} {next : Option Key → w.body.State} :
    Stepped c i w none (c.lookForKey i w waited next) := by
  have hends := (c.ends.read_readKey i).later
  rw [lookForKey]
  split
  · exact stepped_resume _ (.refl c)
  · split
    all_goals
      next htake =>
        rw [htake] at hends
        exact .goOn (.of_ends hends) rfl rfl

theorem stepped_of_step (h : c.step i = some d) :
    ∃ w, c.workers[i]? = some w ∧ w.isFinished = false ∧ Stepped c i w (c.result? i) d := by
  rw [step] at h
  split at h
  · cases h
  · next w hw =>
      refine ⟨w, hw, ?_⟩
      rw [result?, hw, Worker.isFinished]
      dsimp only
      split at h
      · cases h
      · -- only a stage that is ready can be completed, in every other state it goes on
        split at h
        · cases h
        · next s hcontrol =>
            cases h
            rw [hcontrol]
            exact ⟨rfl, stepped_serve _⟩
        · next hcontrol =>
            cases h
            rw [hcontrol]
            exact ⟨rfl, stepped_resume _ (.refl c)⟩
        · next hcontrol =>
            rw [hcontrol]
            exact ⟨rfl, stepped_pushChar h⟩
        · next hcontrol =>
            rw [hcontrol]
            exact ⟨rfl, stepped_readOn hcontrol h⟩
        · next hcontrol =>
            cases h
            rw [hcontrol]
            exact ⟨rfl, stepped_lookForKey⟩
        · next hcontrol =>
            cases h
            rw [hcontrol]
            exact ⟨rfl, stepped_resume _ (.refl c)⟩

/-! ### The books -/

/-- The chain after some time, with what has been completed in the meantime: stages take steps in any
order, time passes, and the world may change by itself as long as no cancellation is undone. -/
inductive Course (c : Chain) : List Completion → Chain → Prop
  | refl : Course c [] c
  | step {d e : Chain} {log : List Completion} {i : Nat} (h : Course c log d) (hstep : d.step i = some e) :
      Course c (log ++ (d.completion? i).toList) e
  | tick {d e : Chain} {log : List Completion} (h : Course c log d) (htick : d.tick = some e) :
      Course c log e
  | outside {d : Chain} {log : List Completion} {w : World} (h : Course c log d)
      (hw : d.isCancelled = true → (d.withWorld w).isCancelled = true) : Course c log (d.withWorld w)

/-- What a chain has noted, and the completions that this is the account of. -/
structure Books (seats : List Seat) (log : List Completion) (c : Chain) : Prop where
  workers : c.workers.map Worker.seat = seats
  nodup : (log.map (·.stage)).Nodup
  finished : ∀ {i : Nat} {w : Worker}, c.workers[i]? = some w → w.isFinished = true → i ∈ log.map (·.stage)
  stages : ∀ x ∈ log, ∃ w, c.workers[x.stage]? = some w ∧ w.isFinished = true ∧
    w.errorText = endErrorText x.queued
  failures : c.failures = log.filterMap fun x => (x.failure? seats).map (x.stage, ·)
  cancelledAt : c.cancelledAt = ((log.filter (·.cancelled)).map (·.stage)).min?
  cancelled : ∀ x ∈ log, x.cancelled = true → c.isCancelled = true
  order : log.Pairwise fun x y => x.cancelled = true → y.cancelled = true

variable {seats : List Seat}

theorem books_of_running (hrun : ∀ w ∈ c.workers, w.isFinished = false) (hfailures : c.failures = [])
    (hcancelledAt : c.cancelledAt = none) : Books (c.workers.map Worker.seat) [] c := by
  refine ⟨rfl, .nil, ?_, by simp, hfailures, hcancelledAt, by simp, .nil⟩
  intro i w hw hfinished
  rw [hrun w (List.mem_of_getElem? hw)] at hfinished
  cases hfinished

theorem Books.keep (h : Books seats log c) (hkept : Kept c d) : Books seats log d := by
  refine ⟨by rw [hkept.workers, h.workers], h.nodup, ?_, ?_, by rw [hkept.failures, h.failures],
    by rw [hkept.cancelledAt, h.cancelledAt], fun x hx hc => hkept.ends.isCancelled (h.cancelled x hx hc), h.order⟩
  · rw [hkept.workers]
    exact h.finished
  · rw [hkept.workers]
    exact h.stages

theorem Books.length_workers (h : Books seats log c) : c.workers.length = seats.length := by
  rw [← h.workers, List.length_map]

/-- A stage that is not finished has not completed. -/
theorem Books.stage_ne (h : Books seats log c) (hw : c.workers[i]? = some w) (hrun : w.isFinished = false)
    {x : Completion} (hx : x ∈ log) : x.stage ≠ i := by
  rintro rfl
  obtain ⟨v, hv, hfinished, -⟩ := h.stages x hx
  cases hw.symm.trans hv
  rw [hrun] at hfinished
  cases hfinished

theorem map_seat_set (hw : c.workers[i]? = some w) (hseat : w'.seat = w.seat) :
    (c.workers.set i w').map Worker.seat = c.workers.map Worker.seat := by
  obtain ⟨hi, rfl⟩ := List.getElem?_eq_some_iff.1 hw
  rw [List.map_set, hseat, ← List.getElem_map Worker.seat (h := by simpa using hi), List.set_getElem_self]

theorem Books.setWorker (h : Books seats log c) (hw : c.workers[i]? = some w) (hrun : w.isFinished = false)
    (hseat : w'.seat = w.seat) (hrun' : w'.isFinished = false) : Books seats log (c.setWorker i w') := by
  refine ⟨(map_seat_set hw hseat).trans h.workers, h.nodup, ?_, ?_, h.failures, h.cancelledAt, h.cancelled,
    h.order⟩
  · intro j v hv hfinished
    rw [workers_setWorker, List.getElem?_set] at hv
    split at hv
    · split at hv <;> cases hv
      rw [hrun'] at hfinished
      cases hfinished
    · exact h.finished hv hfinished
  · intro x hx
    rw [workers_setWorker, List.getElem?_set_ne (h.stage_ne hw hrun hx).symm]
    exact h.stages x hx

theorem noteResult_of_cancelled (h : c.isCancelled = true) (result : Except CommandError Unit) :
    (c.noteResult i w result).failures = c.failures ∧
      (c.noteResult i w result).cancelledAt = some (c.cancelledAt.elim i (min · i)) := by
  rw [noteResult.eq_def, if_pos h]
  refine ⟨rfl, ?_⟩
  dsimp only
  cases c.cancelledAt <;> rfl

theorem noteResult_of_live (h : c.isCancelled = false) (result : Except CommandError Unit) :
    (c.noteResult i w result).failures = c.failures ++ (match result with
        | .ok () => none
        | .error e => (relayAll (c.workers.drop (i + 1)) (w.stageError e)).map (i, ·)).toList ∧
      (c.noteResult i w result).cancelledAt = c.cancelledAt := by
  rw [noteResult.eq_def, if_neg (by simp [h])]
  cases result with
  | ok => simp
  | error e =>
      dsimp only
      cases relayAll (c.workers.drop (i + 1)) (w.stageError e) <;> simp

/-- What is noted of a stage that completes. -/
theorem noted_complete {x : Completion} (hw : c.workers[x.stage]? = some w)
    (hcancelled : x.cancelled = c.isCancelled) :
    (c.complete x.stage w x.result).failures = c.failures ++
        ((x.failure? (c.workers.map Worker.seat)).map (x.stage, ·)).toList ∧
      (c.complete x.stage w x.result).cancelledAt =
        if x.cancelled then some (c.cancelledAt.elim x.stage (min · x.stage)) else c.cancelledAt := by
  obtain ⟨d, hcomplete, hworkers, hfailures, hcancelledAt, haside⟩ :=
    exists_complete_eq c x.stage w x.result
  have hd : d.isCancelled = c.isCancelled := haside.isCancelled
  rw [hcomplete, ← hfailures, ← hcancelledAt, hcancelled]
  rw [← hd] at hcancelled ⊢
  rcases hlive : d.isCancelled with _ | _
  · -- the failure goes through the later stages, which the end of this one has not touched
    have hseat : (c.workers.map Worker.seat)[x.stage]? = some w.seat := by
      rw [List.getElem?_map, hw]
      rfl
    have hlater : d.workers.drop (x.stage + 1) = c.workers.drop (x.stage + 1) := by
      rw [hworkers, List.drop_set_of_lt (Nat.lt_succ_self _)]
    have hfailure : (x.failure? (c.workers.map Worker.seat)).map (x.stage, ·) = match x.result with
        | .ok () => none
        | .error e => (relayAll (d.workers.drop (x.stage + 1)) (w.stageError e)).map (x.stage, ·) := by
      rw [Completion.failure?, hcancelled, hlive, hseat, hlater, ← List.map_drop]
      cases x.result with
      | ok => rfl
      | error e =>
          dsimp only
          rw [Seat.relayThrough_map_seat]
          rfl
    rw [hfailure]
    exact noteResult_of_live hlive x.result
  · have hfailure : x.failure? (c.workers.map Worker.seat) = none := by
      rw [Completion.failure?, hcancelled, hlive]
    rw [hfailure, Option.map_none, Option.toList_none, List.append_nil]
    exact noteResult_of_cancelled hlive x.result

theorem min?_concat (is : List Nat) (i : Nat) :
    (is ++ [i]).min? = some (is.min?.elim i (min · i)) := by
  cases is with
  | nil => rfl
  | cons j js =>
      rw [List.cons_append, List.min?_cons', List.min?_cons', List.foldl_append]
      rfl

theorem Books.complete {x : Completion} (h : Books seats log c) (hw : c.workers[x.stage]? = some w)
    (hrun : w.isFinished = false) (hqueued : x.queued = w.errorText) (hcancelled : x.cancelled = c.isCancelled) :
    Books seats (log ++ [x]) (c.complete x.stage w x.result) := by
  obtain ⟨hfailures, hcancelledAt⟩ := noted_complete hw hcancelled
  obtain ⟨hi, -⟩ := List.getElem?_eq_some_iff.1 hw
  refine ⟨?_, ?_, ?_, ?_, ?_, ?_, ?_, ?_⟩
  · rw [workers_complete]
    exact (map_seat_set hw (rfl : w.finish.seat = w.seat)).trans h.workers
  · rw [List.map_append, List.nodup_append]
    refine ⟨h.nodup, by simp, ?_⟩
    intro i hi j hj
    obtain ⟨y, hy, rfl⟩ := List.mem_map.1 hi
    obtain rfl : j = x.stage := by simpa using hj
    exact h.stage_ne hw hrun hy
  · intro i v hv hfinished
    rw [workers_complete, List.getElem?_set] at hv
    split at hv
    · next heq => simp [heq]
    · rw [List.map_append]
      exact List.mem_append_left _ (h.finished hv hfinished)
  · intro y hy
    rw [workers_complete]
    rcases List.mem_append.1 hy with hy | hy
    · rw [List.getElem?_set_ne (h.stage_ne hw hrun hy).symm]
      exact h.stages y hy
    · obtain rfl : y = x := by simpa using hy
      exact ⟨w.finish, List.getElem?_set_self hi, rfl, by rw [hqueued]; rfl⟩
  · rw [hfailures, h.failures, h.workers, List.filterMap_append]
    cases hx : (x.failure? seats).map (x.stage, ·) <;> simp [hx]
  · rw [hcancelledAt, h.cancelledAt, List.filter_append, List.map_append]
    cases hx : x.cancelled with
    | false => simp [hx]
    | true => simp [hx, min?_concat]
  · rw [isCancelled_complete]
    intro y hy hyc
    rcases List.mem_append.1 hy with hy | hy
    · exact h.cancelled y hy hyc
    · obtain rfl : y = x := by simpa using hy
      rw [← hcancelled, hyc]
  · rw [List.pairwise_append]
    refine ⟨h.order, List.pairwise_singleton _ _, ?_⟩
    intro y hy z hz hyc
    obtain rfl : z = x := by simpa using hz
    rw [hcancelled]
    exact h.cancelled y hy hyc

theorem Books.stepped (h : Books seats log c) (hstep : c.step i = some d) :
    Books seats (log ++ (c.completion? i).toList) d := by
  obtain ⟨w, hw, hrun, hstepped⟩ := stepped_of_step hstep
  rw [completion?, hw]
  generalize c.result? i = result? at hstepped
  cases hstepped with
  | goOn hkept hseat hrun' =>
      rw [← hkept.workers] at hw
      simpa using (h.keep hkept).setWorker hw hrun hseat hrun'
  | complete result hkept hcancelled =>
      rw [← hkept.workers] at hw
      exact (h.keep hkept).complete (x := ⟨i, result, w.errorText, c.isCancelled⟩) hw hrun rfl hcancelled.symm

theorem Books.of_course (h : Books seats [] c) (hcourse : Course c log d) : Books seats log d := by
  induction hcourse with
  | refl => exact h
  | step hcourse hstep ih => exact ih.stepped hstep
  | tick hcourse htick ih => exact ih.keep (kept_tick htick)
  | outside hcourse hw ih =>
      -- of the world the books mention only whether the pipeline is cancelled
      exact ⟨ih.workers, ih.nodup, ih.finished, ih.stages, ih.failures, ih.cancelledAt,
        fun x hx hc => hw (ih.cancelled x hx hc), ih.order⟩

theorem step_or_tick_of_advance (h : c.advance = some d) : (∃ i, c.step i = some d) ∨ c.tick = some d := by
  rw [advance] at h
  split at h
  · next hfound =>
      cases h
      obtain ⟨i, -, hstep⟩ := List.exists_of_findSome?_eq_some hfound
      exact .inl ⟨i, hstep⟩
  · exact .inr h

/-- Every run is a course. -/
theorem exists_course_run (fuel : Nat) (c : Chain) : ∃ log, Course c log (c.run fuel) := by
  have hrun : ∀ {d : Chain} {log : List Completion}, Course c log d →
      ∃ log', Course c log' (d.run fuel) := by
    induction fuel with
    | zero => exact fun h => ⟨_, h⟩
    | succ fuel ih =>
        intro d log h
        rw [run]
        split
        · next e hadvance =>
            rcases step_or_tick_of_advance hadvance with ⟨i, hstep⟩ | htick
            · exact ih (h.step hstep)
            · exact ih (h.tick htick)
        · exact ⟨_, h⟩
  exact hrun .refl

end Chain

end CommandShell
