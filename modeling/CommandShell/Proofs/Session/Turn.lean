import CommandShell.Proofs.Pipeline.Token
import CommandShell.Session.Basic

/-!
One step of a session.  Main statement: whatever the step is, the state does not go back, the session's token
stays cancelled once it is, and the pipeline that runs has a token that is linked to it.
-/

namespace CommandShell

def Question.isLine : Question → Bool
  | .line _ _ => true
  | _ => false

namespace Phase

/-- There is no pipeline, and the session has not ended. -/
def isIdle : Phase → Bool
  | .running _ _ | .ended => false
  | _ => true

/-- A command line is being asked for. -/
def asksLine : Phase → Bool
  | .ask question _ | .await question => question.isLine
  | _ => false

end Phase

namespace Session

open Pipeline

variable {s s' : Session} {token : TokenId} {p : Pipeline} {c d : Chain}

def standing (s : Session) : Standing := s.current.standing

/-- What holds of a session with that token at all times. -/
structure Sound (s : Session) (token : TokenId) : Prop where
  session : s.standing.session = s.id
  standing : s.standing.Sound token
  alive : s.isEnded = false → s.state ≠ .ended
  attached : ∀ {p c}, s.phase = .running p c → Attached token p c

/-- The session at a later time.  A command line is asked for only as long as the session is running. -/
structure Later (s : Session) (token : TokenId) (s' : Session) : Prop where
  sound : s'.Sound token
  id : s'.id = s.id
  rank : s.state.rank ≤ s'.state.rank
  cancelled : s.current.isCancelled token = true → s'.current.isCancelled token = true
  asks : s'.phase.asksLine = true → s.phase.asksLine = true ∨ s.state = .running

theorem current_of_idle (h : s.phase.isIdle = true) : s.current = s.world := by
  rw [current]
  split
  · next heq =>
      rw [heq] at h
      cases h
  · rfl

theorem current_of_running (h : s.phase = .running p c) : s.current = c.world := by
  rw [current, h]

theorem isEnded_of_idle (h : s.phase.isIdle = true) : s.isEnded = false := by
  rw [isEnded]
  split
  · next heq =>
      rw [heq] at h
      cases h
  · rfl

theorem isEnded_of_running (h : s.phase = .running p c) : s.isEnded = false := by
  rw [isEnded, h]

theorem state_of_control? {control : SessionControl} (h : s.standing.control? = some control) :
    s.state = control.state := by
  have hcontrol : s.current.control? = some control := h
  rw [state, hcontrol]
  rfl

theorem Later.refl (hs : s.Sound token) : s.Later token s := ⟨hs, rfl, Nat.le_refl _, fun h => h, .inl⟩

theorem later_of_passes (hs : s.Sound token) (hrun : s'.isEnded = false → s.isEnded = false) (hid : s'.id = s.id)
    (h : s.standing.Passes token s'.standing)
    (hattached : ∀ {p c}, s'.phase = .running p c → Attached token p c)
    (hasks : s'.phase.asksLine = true → s.phase.asksLine = true ∨ s.state = .running) : s.Later token s' := by
  obtain ⟨c, hc, -⟩ := hs.standing.control
  obtain ⟨d, hd, hlater⟩ := h.control hc
  have hstate := state_of_control? hc
  have hstate' := state_of_control? hd
  refine ⟨⟨h.session.trans (hs.session.trans hid.symm), h.sound, fun hrun' hended => ?_, hattached⟩, hid, ?_,
    h.cancelled, hasks⟩
  · exact hs.alive (hrun hrun') (hstate.trans (hlater.ended (hstate'.symm.trans hended)))
  · rw [hstate, hstate']
    exact hlater.rank

/-! ### Between pipelines -/

/-- The session goes on without a pipeline and without asking for a line, and nothing that concerns sessions
happens. -/
structure Aside (s s' : Session) : Prop where
  id : s'.id = s.id
  standing : s'.world.standing = s.world.standing
  idle : s'.phase.isIdle = true
  quiet : s'.phase.asksLine = false

theorem standing_writeLines (s : Session) (lines : List String) :
    (s.writeLines lines).world.standing = s.world.standing ∧ (s.writeLines lines).id = s.id := by
  induction lines generalizing s with
  | nil => exact ⟨rfl, rfl⟩
  | cons line lines ih => exact ih (s.writeLine line)

theorem aside_judge (s : Session) (login : Login) (userName password : Option String) :
    s.Aside (s.judge login userName password) := by
  rw [judge]
  split <;> exact ⟨rfl, rfl, rfl, rfl⟩

theorem aside_askPassword (s : Session) (login : Login) (userName : Option String) :
    s.Aside (s.askPassword login userName) := by
  rw [askPassword]
  split
  · exact ⟨rfl, rfl, rfl, rfl⟩
  · exact aside_judge s login userName none

theorem aside_beginLogin (s : Session) : s.Aside s.beginLogin := by
  rw [beginLogin]
  split
  · exact ⟨rfl, rfl, rfl, rfl⟩
  · split
    · exact ⟨rfl, rfl, rfl, rfl⟩
    · exact aside_askPassword s _ none

/-- Going on from the session after a change of what others see of it. -/
theorem later_of_aside {change : SessionControl → SessionControl} (hs : s.Sound token)
    (hidle : s.phase.isIdle = true) (hkeeps : ∀ c, (change c).id = c.id ∧ (change c).token = c.token)
    (hlater : ∀ c : SessionControl, c.state = s.state → c.Later (change c))
    (h : (s.updateControl change).Aside s') : s.Later token s' := by
  have hstanding : s'.standing = s.standing.update s.standing.session change := by
    rw [Session.standing, current_of_idle h.idle, h.standing, Session.standing, current_of_idle hidle]
    rfl
  refine later_of_passes hs (fun _ => isEnded_of_idle hidle) h.id ?_ (fun heq => ?_) (fun hasks => ?_)
  · rw [hstanding]
    exact Standing.passes_update hs.standing (fun c => (hkeeps c).1) (fun c => (hkeeps c).2)
      fun c hc => hlater c (state_of_control? hc).symm
  · have hrunning := h.idle
    rw [heq] at hrunning
    cases hrunning
  · cases h.quiet.symm.trans hasks

theorem later_of_advanced (before after : SessionState) (hs : s.Sound token) (hidle : s.phase.isIdle = true)
    (hrank : before.rank ≤ after.rank) (hended : after ≠ .ended)
    (h : (s.updateControl (·.advance before after)).Aside s') : s.Later token s' := by
  have hadvance (c : SessionControl) : c.Later (c.advance before after) :=
    SessionControl.later_advance hrank hended c
  exact later_of_aside hs hidle (fun c => ⟨(hadvance c).id, (hadvance c).token⟩) (fun c _ => hadvance c) h

theorem later_begin (hs : s.Sound token) (hphase : s.phase = .start) : s.Later token s.begin := by
  have hidle : s.phase.isIdle = true := by rw [hphase]; rfl
  obtain ⟨greeted, hbegin, hstanding, hid⟩ : ∃ greeted : Session, s.begin = greeted.beginLogin ∧
      greeted.world.standing = (s.updateControl (·.advance .notStarted .login)).world.standing ∧
      greeted.id = s.id := by
    rw [begin]
    refine ⟨_, rfl, ?_⟩
    split
    · exact standing_writeLines _ _
    · exact ⟨rfl, rfl⟩
  have haside := aside_beginLogin greeted
  rw [hbegin]
  exact later_of_advanced .notStarted .login hs hidle (by decide) (by decide)
    ⟨haside.id.trans hid, haside.standing.trans hstanding, haside.idle, haside.quiet⟩

/-- Nothing happens that others see, and a line is asked for only if one has been before or the session is
running. -/
theorem later_of_standing (hs : s.Sound token) (hidle : s.phase.isIdle = true) (hidle' : s'.phase.isIdle = true)
    (hid : s'.id = s.id) (hstanding : s'.world.standing = s.world.standing)
    (hasks : s'.phase.asksLine = true → s.phase.asksLine = true ∨ s.state = .running) : s.Later token s' := by
  refine later_of_passes hs (fun _ => isEnded_of_idle hidle) hid ?_ (fun heq => ?_) hasks
  · rw [Session.standing, Session.standing, current_of_idle hidle', hstanding, ← current_of_idle hidle]
    exact .refl hs.standing
  · rw [heq] at hidle'
    cases hidle'

theorem Aside.later (h : s.Aside s') (hs : s.Sound token) (hidle : s.phase.isIdle = true) : s.Later token s' :=
  later_of_standing hs hidle h.idle h.id h.standing fun hasks => nomatch h.quiet.symm.trans hasks

theorem later_welcome (hs : s.Sound token) (hidle : s.phase.isIdle = true) : s.Later token s.welcome := by
  rw [welcome]
  split
  · have hlines := standing_writeLines (s.updateControl (·.advance .login .running))
      (if s.settings.startInfo.isEmpty then [] else s.settings.startInfo ++ [""])
    exact later_of_advanced .login .running hs hidle (by decide) (by decide)
      ⟨hlines.2, hlines.1, rfl, rfl⟩
  · exact later_of_standing hs hidle rfl rfl rfl nofun

theorem later_askLine (hs : s.Sound token) (hidle : s.phase.isIdle = true) : s.Later token s.askLine := by
  rw [askLine]
  split
  · next hstate => exact later_of_standing hs hidle rfl rfl rfl fun _ => .inr hstate
  · exact later_of_standing hs hidle rfl rfl rfl nofun

theorem later_close (hs : s.Sound token) (hidle : s.phase.isIdle = true) :
    s.Later token ((s.updateControl fun c => { c with state := .ending }).goto .saving) := by
  have halive := hs.alive (isEnded_of_idle hidle)
  refine later_of_aside hs hidle ?_ (fun c hc => ?_) ⟨rfl, rfl, rfl, rfl⟩
  · exact fun c => ⟨rfl, rfl⟩
  · exact SessionControl.later_of_state (SessionControl.rank_le_ending (hc ▸ halive)) nofun

theorem standing_save (s : Session) : s.save.world.standing = s.world.standing ∧ s.save.id = s.id := by
  rw [save]
  split
  · exact ⟨rfl, rfl⟩
  · split <;> exact ⟨rfl, rfl⟩

/-- The end is the last step. -/
theorem later_end (hs : s.Sound token) (hidle : s.phase.isIdle = true) :
    s.Later token ((s.save.updateControl fun c => { c with state := .ended }).goto .ended) := by
  let finish (c : SessionControl) : SessionControl := { c with state := .ended }
  let ended := (s.save.updateControl finish).goto .ended
  have hstanding : ended.standing = s.standing.update s.standing.session finish := by
    have hsave : ended.standing = s.save.world.standing.update s.save.world.standing.session finish := rfl
    rw [hsave, (standing_save s).1, Session.standing, current_of_idle hidle]
  obtain ⟨c, hc, -⟩ := hs.standing.control
  have hstate : ended.state = .ended := by
    have hid : ∀ c, (finish c).id = c.id := fun _ => rfl
    have hcontrol : ended.standing.control? = some (finish c) := by
      rw [hstanding, Standing.control?_update_self hid, hc, Option.map_some]
    exact state_of_control? hcontrol
  refine ⟨⟨?_, ?_, nofun, nofun⟩, (standing_save s).2, ?_, fun hcancelled => ?_, nofun⟩
  · exact (congrArg Standing.session hstanding).trans (hs.session.trans (standing_save s).2.symm)
  · rw [hstanding]
    exact hs.standing.update (fun _ => rfl) fun _ => rfl
  · change s.state.rank ≤ ended.state.rank
    rw [hstate]
    exact SessionState.rank_le_ended _
  · change ended.standing.tokens.isCancelled token = true
    rw [hstanding]
    exact hcancelled

/-! ### Pipelines -/

theorem later_launch (hs : s.Sound token) (hidle : s.phase.isIdle = true) (line : String) :
    s.Later token (s.launch line) := by
  let noted := s.updateControl fun c => { c with history := c.history.record line }
  have hnoted : s.standing.Passes token noted.world.standing := by
    have hupdate : noted.world.standing = s.standing.update s.standing.session
        fun c => { c with history := c.history.record line } := by
      rw [Session.standing, current_of_idle hidle]
      rfl
    rw [hupdate]
    exact Standing.passes_update hs.standing (fun _ => rfl) (fun _ => rfl) fun c _ =>
      ⟨rfl, rfl, Nat.le_refl _, fun h => h⟩
  -- the token is the last thing that is made for a line, right or wrong
  have hjoined := joined_ofLine hnoted.sound (Line.expandVariables noted.world.environment.get? line)
    noted.settings.nullDevice noted.setting
  rw [launch]
  dsimp only
  generalize hmade : ofLine (Line.expandVariables _ line) _ _ _ = made
  rw [show ofLine _ _ _ _ = made from hmade] at hjoined
  obtain ⟨error, p, world⟩ := made
  have hpasses := hjoined.passes hnoted.sound
  have hstart := p.onward_start { world with interrupt := some p.token }
  refine later_of_passes hs (fun _ => isEnded_of_idle hidle) rfl ?_ (fun heq => ?_) nofun
  · exact (hnoted.trans hpasses).trans (.of_onward hstart hpasses.sound)
  · cases heq
    exact ⟨rfl, hstart.alike.link_iff.2 hjoined.tokens.link, hjoined.tokens.ne⟩

theorem exists_phase_launch (s : Session) (line : String) : ∃ p c, (s.launch line).phase = .running p c := by
  rw [launch]
  dsimp only
  generalize ofLine _ _ _ _ = made
  exact ⟨_, _, rfl⟩

theorem asksLine_enter (s : Session) (raw : String) : (s.enter raw).phase.asksLine = false := by
  rw [enter]
  split
  · rfl
  · obtain ⟨p, c, hphase⟩ := exists_phase_launch s (Text.trim raw)
    rw [hphase]
    rfl

theorem later_enter (hs : s.Sound token) (hidle : s.phase.isIdle = true) (raw : String) :
    s.Later token (s.enter raw) := by
  rw [enter]
  split
  · exact later_of_standing hs hidle rfl rfl rfl nofun
  · exact later_launch hs hidle _

theorem later_answer {question : Question} (hs : s.Sound token) (hphase : s.phase = .await question)
    (reply : LineReply) : s.Later token (s.answer question reply) := by
  have hidle : s.phase.isIdle = true := by rw [hphase]; rfl
  rw [answer.eq_def]
  split
  · split
    · exact (aside_askPassword s _ _).later hs hidle
    · exact later_of_standing hs hidle rfl rfl rfl nofun
  · split
    · -- the line break is written before the login is judged
      next login _ =>
        have haside := aside_judge (s.writeLine "") login ‹_› (some ‹_›)
        exact later_of_standing hs hidle haside.idle haside.id haside.standing fun hasks =>
          nomatch haside.quiet.symm.trans hasks
    · exact later_of_standing hs hidle rfl rfl rfl nofun
  · exact later_enter hs hidle _
  · exact later_of_standing hs hidle rfl rfl rfl fun _ => .inl (by rw [hphase]; rfl)
  · next hline =>
      refine later_of_standing hs hidle rfl rfl rfl fun hasks => .inl ?_
      rw [hphase]
      exact hasks
  · exact later_of_standing hs hidle rfl rfl rfl nofun
  · exact later_of_standing hs hidle rfl rfl rfl nofun

theorem later_running (hs : s.Sound token) (hphase : s.phase = .running p c) (hlater : c.ends.Later d.ends) :
    s.Later token (s.goto (.running p d)) := by
  refine later_of_passes hs (fun _ => isEnded_of_running hphase) rfl ?_ (fun heq => ?_) nofun
  · have hworld : s.standing.Onward d.world.standing := by
      rw [Session.standing, current_of_running hphase]
      exact hlater.world
    exact .of_onward hworld hs.standing
  · cases heq
    exact (hs.attached hphase).later hlater

theorem later_conclude (hs : s.Sound token) (hphase : s.phase = .running p c) :
    s.Later token (s.conclude p c).2 := by
  have hcurrent : s.standing = c.world.standing := by rw [Session.standing, current_of_running hphase]
  refine later_of_passes hs (fun _ => isEnded_of_running hphase) rfl ?_ (fun heq => ?_) nofun
  · rw [hcurrent]
    exact (hs.attached hphase).passes_drain (hcurrent ▸ hs.standing)
  · cases heq

/-! ### Any step -/

/-- The reading of a line is left out: others may come in between it and what follows from it. -/
theorem later_step (hs : s.Sound token) (hawait : ∀ question, s.phase ≠ .await question)
    (h : s.step = some s') : s.Later token s' := by
  rw [step] at h
  rcases hphase : s.phase with _ | ⟨question, initial⟩ | question | _ | _ | ⟨p, c⟩ | _ | _ | _ <;> rw [hphase] at h
  case start =>
    cases h
    exact later_begin hs hphase
  case ask =>
    cases h
    refine later_of_standing hs (by rw [hphase]; rfl) rfl rfl rfl fun hasks => .inl ?_
    rw [hphase]
    exact hasks
  case await => exact absurd hphase (hawait question)
  case admitted =>
    cases h
    exact later_welcome hs (by rw [hphase]; rfl)
  case prompt =>
    cases h
    exact later_askLine hs (by rw [hphase]; rfl)
  case running =>
    dsimp only at h
    split at h
    · next hadvance =>
        cases h
        exact later_running hs hphase (Chain.later_of_advance hadvance)
    · cases h
      exact later_conclude hs hphase
  case closing =>
    cases h
    exact later_close hs (by rw [hphase]; rfl)
  case saving =>
    cases h
    exact later_end hs (by rw [hphase]; rfl)
  case ended => cases h

/-! ### Others -/

theorem current_mapWorld (s : Session) (change : World → World) :
    (s.mapWorld change).current = change s.current := by
  obtain ⟨id, settings, registry, login, phase, world⟩ := s
  cases phase <;> rfl

theorem mapWorld_mapWorld (s : Session) (f g : World → World) :
    (s.mapWorld f).mapWorld g = s.mapWorld fun w => g (f w) := by
  obtain ⟨id, settings, registry, login, phase, world⟩ := s
  cases phase <;> rfl

theorem mapWorld_cases (s : Session) (change : World → World) :
    (∃ p c, s.phase = .running p c ∧ s.mapWorld change = s.goto (.running p (c.withWorld (change c.world)))) ∨
      (∀ p c, s.phase ≠ .running p c) ∧ s.mapWorld change = { s with world := change s.world } := by
  rw [mapWorld]
  split
  · next p c hphase => exact .inl ⟨p, c, hphase, rfl⟩
  · next hphase => exact .inr ⟨hphase, rfl⟩

theorem later_mapWorld {change : World → World} (hs : s.Sound token)
    (h : s.standing.Onward (change s.current).standing) : s.Later token (s.mapWorld change) := by
  rcases mapWorld_cases s change with ⟨p, c, hphase, hmap⟩ | ⟨hphase, hmap⟩
  · rw [hmap]
    rw [Session.standing, current_of_running hphase] at h
    exact later_running hs hphase ⟨rfl, h⟩
  · have hpasses := Standing.Passes.of_onward h hs.standing
    rw [← current_mapWorld s change, hmap] at hpasses
    rw [hmap]
    exact later_of_passes hs (fun hrun => hrun) rfl hpasses (fun heq => absurd heq (hphase _ _)) .inl

end Session

end CommandShell
