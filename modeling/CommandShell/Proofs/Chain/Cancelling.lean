import CommandShell.Proofs.Chain.Looking
import CommandShell.Proofs.Session.Standing

/-!
Sessions, tokens and the ends of a chain.  Main statements: writing and ending the output have nothing to do
with them, and while the terminal is read a token may be cancelled, but a pipeline that is cancelled stays so.
-/

namespace CommandShell

namespace ChainOutput

@[simp] theorem standing_flush (s : Sink) (w : World) : (s.flush w).standing = w.standing := by
  cases s <;> simp [Sink.flush]

@[simp] theorem standing_write (o : ChainOutput) (w : World) (text : String) :
    (o.write w text).2.2.standing = w.standing := by
  rw [write]
  split
  · rfl
  · dsimp only
    split
    · rfl
    · exact World.standing_writeFile w _ _
    · split <;> rfl

@[simp] theorem standing_newLine (o : ChainOutput) (w : World) :
    (o.newLine w).2.2.standing = w.standing := standing_write o w _

theorem standing_perform (o : ChainOutput) (w : World) (action : OutputAction) :
    (o.perform w action).2.2.standing = w.standing := by
  cases action with
  | write text => exact standing_write o w text
  | newLine => exact standing_newLine o w
  | writeLine text =>
      have hfirst := standing_write o w text
      rw [perform, writeLine]
      split
      · next hwrite => rwa [hwrite] at hfirst
      · next hwrite =>
          rw [hwrite] at hfirst
          rw [standing_newLine]
          exact hfirst
  | clearScreen =>
      rw [perform, clearScreen]
      split
      · split <;> rfl
      · rfl

theorem standing_endOfCommand (o : ChainOutput) (w : World) :
    (o.endOfCommand w).2.2.standing = w.standing := by
  have hline := standing_newLine o w
  rw [endOfCommand]
  split
  · split
    · next hnew => rwa [hnew] at hline
    · next hnew =>
        rw [hnew] at hline
        rw [standing_flush]
        exact hline
  · exact standing_flush o.sink w

end ChainOutput

theorem World.Looked.onward {w v : World} (h : w.Looked v) : w.standing.Onward v.standing := by
  induction h with
  | refl => exact .refl
  | tail _ hlook ih =>
      subst hlook
      exact ih.trans (onward_readKeys _)

namespace Ends

/-- The second ends are the first ones at a later time, as far as sessions and tokens go. -/
structure Later (e f : Ends) : Prop where
  token : f.token = e.token
  world : e.world.standing.Onward f.world.standing

/-- The second ends have to do with the same sessions and tokens, which are as they were. -/
structure Aside (e f : Ends) : Prop where
  token : f.token = e.token
  world : f.world.standing = e.world.standing

variable {e f g : Ends}

theorem Aside.refl (e : Ends) : e.Aside e := ⟨rfl, rfl⟩

theorem Aside.trans (h : e.Aside f) (h' : f.Aside g) : e.Aside g :=
  ⟨h'.token.trans h.token, h'.world.trans h.world⟩

theorem Aside.later (h : e.Aside f) : e.Later f := ⟨h.token, World.onward_of_eq h.world⟩

theorem Aside.isCancelled (h : e.Aside f) : f.isCancelled = e.isCancelled := by
  rw [Ends.isCancelled, World.isCancelled, h.token, World.tokens_eq h.world]
  rfl

theorem Later.of_eq (htoken : f.token = e.token) (hworld : f.world.standing = e.world.standing) : e.Later f :=
  Aside.later ⟨htoken, hworld⟩

theorem Later.refl (e : Ends) : e.Later e := .of_eq rfl rfl

theorem Later.trans (h : e.Later f) (h' : f.Later g) : e.Later g :=
  ⟨h'.token.trans h.token, h.world.trans h'.world⟩

theorem Later.isCancelled (h : e.Later f) (hcancelled : e.isCancelled = true) : f.isCancelled = true := by
  rw [Ends.isCancelled, World.isCancelled, h.token]
  exact h.world.tokens _ hcancelled

theorem Read.later (h : e.Read f) : e.Later f := ⟨h.token, h.world.onward⟩

end Ends

namespace Chain

/-- The stages and what is noted of them are the same, and a pipeline that was cancelled still is. -/
structure Kept (c d : Chain) : Prop where
  workers : d.workers = c.workers
  failures : d.failures = c.failures
  cancelledAt : d.cancelledAt = c.cancelledAt
  ends : c.ends.Later d.ends

variable {c d : Chain} {i : Nat}

theorem Kept.of_ends {ends : Ends} (h : c.ends.Later ends) : Kept c { c with ends } := ⟨rfl, rfl, rfl, h⟩

theorem Kept.refl (c : Chain) : Kept c c := .of_ends (.refl _)

theorem kept_setLink (c : Chain) (i : Nat) (l : Link) : Kept c (c.setLink i l) :=
  ⟨rfl, rfl, rfl, .refl _⟩

theorem kept_withWorld {w : World} (h : c.world.standing.Onward w.standing) : Kept c (c.withWorld w) :=
  .of_ends ⟨rfl, h⟩

theorem kept_tryRead (c : Chain) (i : Nat) : Kept c (c.tryRead i).2 := by
  rw [tryRead]
  split
  · exact .of_ends c.ends.read_tryRead.later
  · exact kept_setLink c _ _

theorem kept_readChar (c : Chain) (i : Nat) : Kept c (c.readChar i).source := by
  have hends := c.ends.read_readChar.later
  rw [readChar]
  split
  · split
    all_goals
      next htake =>
        rw [htake] at hends
        exact .of_ends hends
  · split <;> exact kept_setLink c _ _

theorem kept_of_fed {r : Reading} {fed : Option (Option Char)}
    (h : Reading.Fed (tryRead i) (readChar i) r c fed d) : Kept c d := by
  cases h with
  | tried x t heager htry =>
      have htried := kept_tryRead c i
      rwa [htry] at htried
  | got x t hwait htake | ended t hwait htake | blocked t hwait htake =>
      have hread := kept_readChar c i
      rwa [htake] at hread

theorem kept_tick (h : c.tick = some d) : Kept c d := by
  obtain ⟨time, rfl⟩ := tick_eq h
  exact ⟨rfl, rfl, rfl, .refl _⟩

/-! ### Ending a stage -/

theorem aside_flushFiles (c : Chain) (files : List FileId) : c.ends.Aside (c.flushFiles files).ends :=
  ⟨rfl, World.standing_flushFiles c.world files⟩

theorem aside_endOutput (c : Chain) (i : Nat) : c.ends.Aside (c.endOutput i).ends := by
  rw [endOutput]
  split
  · exact .refl _
  · exact ⟨rfl, c.ends.output.standing_endOfCommand c.world⟩

theorem aside_endInput (c : Chain) (i : Nat) : c.ends.Aside (c.endInput i).ends := by
  rw [endInput]
  split <;> exact .refl _

theorem cancelledAt_endOutput (c : Chain) (i : Nat) : (c.endOutput i).cancelledAt = c.cancelledAt := by
  rw [endOutput]
  split <;> rfl

theorem cancelledAt_endInput (c : Chain) (i : Nat) : (c.endInput i).cancelledAt = c.cancelledAt := by
  rw [endInput]
  split <;> rfl

/-- What is left to be done once a stage has ended its input and its output. -/
theorem exists_complete_eq (c : Chain) (i : Nat) (w : Worker) (result : Except CommandError Unit) :
    ∃ d : Chain, c.complete i w result = d.noteResult i w result ∧
      d.workers = c.workers.set i w.finish ∧ d.failures = c.failures ∧ d.cancelledAt = c.cancelledAt ∧
      c.ends.Aside d.ends := by
  refine ⟨_, rfl, ?_, ?_, ?_, ?_⟩
  · simp [endInput_eq, endOutput_eq, flushFiles, withWorld]
  · simp [endInput_eq, endOutput_eq, flushFiles, withWorld]
  · change ((c.flushFiles w.files).endOutput i |>.endInput i).cancelledAt = _
    rw [cancelledAt_endInput, cancelledAt_endOutput]
    rfl
  · exact ((aside_flushFiles c w.files).trans (aside_endOutput _ i)).trans (aside_endInput _ i)

theorem aside_complete (c : Chain) (i : Nat) (w : Worker) (result : Except CommandError Unit) :
    c.ends.Aside (c.complete i w result).ends := by
  obtain ⟨d, hcomplete, -, -, -, haside⟩ := exists_complete_eq c i w result
  obtain ⟨-, -, hends, -⟩ := noteResult_eq d i w result
  rw [hcomplete, hends]
  exact haside

theorem isCancelled_complete (c : Chain) (i : Nat) (w : Worker) (result : Except CommandError Unit) :
    (c.complete i w result).isCancelled = c.isCancelled := (aside_complete c i w result).isCancelled

end Chain

end CommandShell
