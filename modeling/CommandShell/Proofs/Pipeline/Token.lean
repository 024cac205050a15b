import CommandShell.Pipeline
import CommandShell.Proofs.Chain.Completion

/-!
The token of a pipeline.  Main statements: whatever a line is, its pipeline has a token that is linked to the
session's, and nothing that the pipeline does takes the link away; when the pipeline has been drained, only
its own token is gone.
-/

namespace CommandShell

namespace Chain

variable {c d : Chain} {i : Nat}

theorem later_of_step (h : c.step i = some d) : c.ends.Later d.ends := by
  obtain ⟨w, -, -, hstepped⟩ := stepped_of_step h
  generalize c.result? i = result at hstepped
  cases hstepped with
  | goOn hkept => exact hkept.ends
  | complete result hkept => exact hkept.ends.trans (aside_complete _ _ _ _).later

theorem later_of_advance (h : c.advance = some d) : c.ends.Later d.ends := by
  rcases step_or_tick_of_advance h with ⟨i, hstep⟩ | htick
  · exact later_of_step hstep
  · exact (kept_tick htick).ends

end Chain

theorem Sink.standing_writeErrors (s : Sink) (w : World) (text : String) (color : Color) :
    (s.writeErrors w text color).2.standing = w.standing := by
  rw [writeErrors.eq_def]
  split
  · rfl
  · split
    · rfl
    · exact World.standing_writeFile w _ _
    · split <;> rfl

/-- A token has been made that is cancelled with the session's. -/
structure Standing.Joined (s : Standing) (parent child : TokenId) (t : Standing) : Prop where
  session : t.session = s.session
  controls : t.controls = s.controls
  tokens : s.tokens.Adopts parent child t.tokens

theorem Standing.Joined.passes {s t : Standing} {parent child : TokenId} (h : s.Joined parent child t)
    (hs : s.Sound parent) : s.Passes parent t := by
  have hcontrol : t.control? = s.control? := by
    rw [Standing.control?, h.session, h.controls, Standing.control?]
  refine ⟨h.session, fun {c} hc => ⟨c, hcontrol.trans hc, .refl c⟩,
    ⟨?_, h.tokens.sturdy, h.tokens.keeps hs.token⟩, h.tokens.later parent⟩
  rw [hcontrol]
  exact hs.control

namespace Pipeline

variable {w v : World} {setting : Setting} {parent : TokenId} {p : Pipeline} {c d : Chain}

theorem standing_openSink {target : Option Line.OutputTarget} {sink : Sink}
    (h : openSink w target = .ok (sink, v)) : v.standing = w.standing := by
  rcases target with _ | ⟨path, append⟩ | _
  · cases h
    rfl
  · rw [openSink, openTarget] at h
    rcases hopen : w.openFile path append with fault | ⟨file, u⟩
    · rw [hopen] at h
      cases h
    · rw [hopen] at h
      cases h
      exact World.standing_openFile hopen
  · cases h
    rfl

/-- What opening a pipeline comes to: an error, or a pipeline that has been assembled at the end. -/
inductive Opens (w : World) (setting : Setting) : Except ShellError Pipeline × World → Prop
  | failed {v : World} (error : ShellError) (h : v.standing = w.standing) : Opens w setting (.error error, v)
  | opened {v : World} (invocations : List Invocation) (input : ChainInput) (output errorSink : Sink)
      (h : v.standing = w.standing) :
      Opens w setting (.ok (assemble invocations input output errorSink setting v).1,
        (assemble invocations input output errorSink setting v).2)

theorem opens_openResolved (invocations : List Invocation) (r : Line.Resolved) (setting : Setting) (w : World) :
    Opens w setting (openResolved invocations r setting w) := by
  rw [openResolved]
  split
  · exact .failed _ rfl
  · split
    · exact .failed _ rfl
    · next hout =>
        split
        · exact .opened _ _ _ _ (standing_openSink hout)
        · split
          · exact .failed _ (standing_openSink hout)
          · next herr => exact .opened _ _ _ _ ((standing_openSink herr).trans (standing_openSink hout))

theorem opens_prepare (line nullWord : String) (setting : Setting) (w : World) :
    Opens w setting (prepare line nullWord setting w) := by
  rw [prepare]
  split
  · exact .failed _ rfl
  · split
    · exact .failed _ rfl
    · rw [openWith]
      split
      · exact .failed _ rfl
      · exact opens_openResolved _ _ setting w

/-- A line that is wrong has a pipeline as well. -/
theorem exists_assemble_eq (line nullWord : String) (setting : Setting) (w : World) :
    ∃ invocations input output errorSink v, v.standing = w.standing ∧
      (ofLine line nullWord setting w).2 = assemble invocations input output errorSink setting v := by
  have hopens := opens_prepare line nullWord setting w
  rw [ofLine]
  generalize prepare line nullWord setting w = prepared at hopens
  cases hopens with
  | failed error h => exact ⟨_, _, _, _, _, h, rfl⟩
  | opened invocations input output errorSink h => exact ⟨_, _, _, _, _, h, rfl⟩

theorem joined_ofLine (hw : w.standing.Sound parent) (line nullWord : String) (setting : Setting) :
    w.standing.Joined parent (ofLine line nullWord setting w).2.1.token
      (ofLine line nullWord setting w).2.2.standing := by
  obtain ⟨invocations, input, output, errorSink, v, hv, heq⟩ := exists_assemble_eq line nullWord setting w
  obtain ⟨control, hcontrol, rfl⟩ := hw.control
  have hparent : (v.control?.map (·.token)).getD 0 = control.token := by
    have hcontrol : v.control? = some control := (congrArg Standing.control? hv).trans hcontrol
    rw [hcontrol]
    rfl
  have hadopts : v.standing.tokens.Adopts control.token (v.tokens.child control.token).1
      (v.tokens.child control.token).2.2.1 := by
    refine CancelTree.Sturdy.child (t := v.tokens) ?_ ?_
    · exact World.tokens_eq hv ▸ hw.sturdy
    · exact World.tokens_eq hv ▸ hw.token
  rw [heq, ← hv]
  dsimp only [assemble]
  rw [hparent]
  exact ⟨rfl, rfl, hadopts⟩

theorem onward_start (p : Pipeline) (w : World) : w.standing.Onward (p.start w).world.standing := by
  change w.standing.Onward (p.dropTyped { w with terminal := w.terminal.beginOutput }).standing
  rw [dropTyped]
  split
  · exact World.onward_readKeys { w with terminal := w.terminal.beginOutput }
  · exact .refl

theorem standing_drain (p : Pipeline) (c : Chain) : (p.drain c).2.standing =
    { c.world.standing with tokens := (c.world.tokens.release p.guard).drop p.token } := by
  have hshown : (p.errorSink.flush (p.errorSink.writeErrors c.world (errorText c)
      p.setting.settings.errorColor).2).standing = c.world.standing := by
    rw [ChainOutput.standing_flush, Sink.standing_writeErrors]
  rw [← hshown, ← World.tokens_eq hshown]
  rfl

/-- The chain of a pipeline whose token is cancelled with the session's. -/
structure Attached (parent : TokenId) (p : Pipeline) (c : Chain) : Prop where
  token : c.ends.token = p.token
  link : c.world.tokens.Link parent p.token
  ne : p.token ≠ parent

namespace Attached

theorem later (h : Attached parent p c) (hlater : c.ends.Later d.ends) : Attached parent p d :=
  ⟨hlater.token.trans h.token, hlater.world.alike.link_iff.2 h.link, h.ne⟩

theorem isCancelled (h : Attached parent p c) (hw : c.world.standing.Sound parent)
    (hparent : c.world.isCancelled parent = true) : c.world.isCancelled p.token = true :=
  hw.sturdy.closed _ _ hparent h.link

theorem passes_drain (h : Attached parent p c) (hw : c.world.standing.Sound parent) :
    c.world.standing.Passes parent (p.drain c).2.standing := by
  rw [standing_drain]
  refine ⟨rfl, fun {c} hc => ⟨c, hc, .refl c⟩, ⟨hw.control, (hw.sturdy.release p.guard).drop p.token, ?_⟩,
    fun hc => ?_⟩
  · dsimp only
    rw [CancelTree.get?_drop_of_ne h.ne.symm, CancelTree.get?_release, Option.isSome_map]
    exact hw.token
  · dsimp only
    rw [CancelTree.isCancelled_drop_of_ne h.ne.symm, CancelTree.isCancelled_release]
    exact hc

end Attached

end Pipeline

end CommandShell
