import CommandShell.Proofs.History
import CommandShell.Proofs.Session.Admission
import CommandShell.Proofs.Session.Lifecycle

/-!
What sessions remember from one to the next.  Main statement: in whatever order a session and others move, the
file that keeps the history has at the end what is to be remembered of the lines that were in it and of those
that have been entered; so two sessions after one another leave what one leaves in which all lines are entered.
-/

namespace CommandShell

/-! ### What a session remembers -/

theorem Standing.Onward.history {s t : Standing} (h : s.Onward t) :
    t.control?.map (·.history) = s.control?.map (·.history) := by
  induction h with
  | refl => rfl
  | tail _ hcall ih =>
      refine Eq.trans ?_ ih
      cases hcall with
      | requestEnd id =>
          rw [control?_update fun c => c.later_requestEnd.id, Option.map_map]
          congr 1
          funext c
          rw [Function.comp_apply]
          split
          · rw [SessionControl.requestEnd]
            split <;> rfl
          · rfl
      | cancel token => rfl

/-- The command lines in a reply. -/
def Question.lines : Question → LineReply → List String
  | .line _ _, .line text => [text]
  | _, _ => []

namespace Session

variable {s t : Session} {question : Question} {p : Pipeline} {c d : Chain}

def remembers (s : Session) : Option History := s.standing.control?.map (·.history)

/-- The session goes on as it was set up and remembers these lines more. -/
structure Notes (s : Session) (lines : List String) (t : Session) : Prop where
  remembers : t.remembers = s.remembers.map (·.recordAll lines)
  settings : t.settings = s.settings

theorem notes_nil (h : t.remembers = s.remembers) (hsettings : t.settings = s.settings) : s.Notes [] t := by
  refine ⟨?_, hsettings⟩
  rw [h]
  cases s.remembers <;> rfl

theorem Notes.trans {u : Session} {lines more : List String} (h : s.Notes lines t) (h' : t.Notes more u) :
    s.Notes (lines ++ more) u := by
  refine ⟨?_, h'.settings.trans h.settings⟩
  rw [h'.remembers, h.remembers, Option.map_map]
  congr 1
  funext history
  exact (history.recordAll_append lines more).symm

theorem remembers_of_ne_running (h : ∀ p c, s.phase ≠ .running p c) :
    s.remembers = s.world.control?.map (·.history) := by
  obtain ⟨id, settings, registry, login, phase, world⟩ := s
  cases phase
  case running p c => exact absurd rfl (h p c)
  all_goals rfl

theorem remembers_of_running (h : s.phase = .running p c) : s.remembers = c.world.control?.map (·.history) := by
  rw [remembers, standing, current_of_running h]
  rfl

theorem Talks.notes (h : s.Talks t) (hs : ∀ p c, s.phase ≠ .running p c) (ht : ∀ p c, t.phase ≠ .running p c) :
    s.Notes [] t := by
  refine notes_nil ?_ ?_
  · rw [remembers_of_ne_running hs, remembers_of_ne_running ht, h.history]
  · obtain ⟨_, _, rfl⟩ := h
    rfl

theorem notes_begin (hs : ∀ p c, s.phase ≠ .running p c) : s.Notes [] s.begin := by
  have hidle : s.begin.phase.isIdle = true := by
    rw [begin_eq]
    exact (aside_beginLogin _).idle
  refine notes_nil ?_ ?_
  · rw [remembers_of_ne_running hs, remembers_of_ne_running (ne_running_of_idle hidle), (begin_keeps s).2.1]
  · obtain ⟨_, _, heq⟩ := talks_begin s
    rw [heq]
    rfl

/-- A change of the state is none of what is remembered. -/
theorem notes_update (change : SessionControl → SessionControl) (hs : ∀ p c, s.phase ≠ .running p c)
    (hid : ∀ c, (change c).id = c.id) (hhistory : ∀ c, (change c).history = c.history)
    (h : (s.updateControl change).Talks t) (ht : ∀ p c, t.phase ≠ .running p c) : s.Notes [] t := by
  refine notes_nil ?_ ?_
  · rw [remembers_of_ne_running hs, remembers_of_ne_running ht, h.history, history_updateControl hid hhistory]
  · obtain ⟨_, _, rfl⟩ := h
    rfl

theorem notes_welcome (hs : ∀ p c, s.phase ≠ .running p c) : s.Notes [] s.welcome := by
  have hadvance (c : SessionControl) : (c.advance .login .running).id = c.id ∧
      (c.advance .login .running).history = c.history := by
    rw [SessionControl.advance]
    split <;> exact ⟨rfl, rfl⟩
  rw [welcome]
  split
  · exact notes_update _ hs (fun c => (hadvance c).1) (fun c => (hadvance c).2)
      ((talks_writeLines _ _).trans (talks_goto _ _)) (ne_running_of_idle rfl)
  · exact (talks_goto s _).notes hs (ne_running_of_idle rfl)

theorem notes_askLine (hs : ∀ p c, s.phase ≠ .running p c) : s.Notes [] s.askLine := by
  rw [askLine]
  split
  · exact ((talks_write s _).trans (talks_goto _ _)).notes hs (ne_running_of_idle rfl)
  · exact (talks_goto s _).notes hs (ne_running_of_idle rfl)

theorem remembers_launch (hs : ∀ p c, s.phase ≠ .running p c) (line : String) :
    (s.launch line).remembers = s.remembers.map (·.record line) := by
  let noted := s.updateControl fun c => { c with history := c.history.record line }
  obtain ⟨invocations, input, output, errorSink, v, hv, heq⟩ := Pipeline.exists_assemble_eq
    (Line.expandVariables noted.world.environment.get? line) noted.settings.nullDevice noted.setting noted.world
  have hnoted : noted.world.standing.control?.map (·.history) = s.remembers.map (·.record line) := by
    have hcontrol : noted.world.control? = s.world.control?.map fun c => { c with history := c.history.record line } :=
      control?_updateControl fun _ => rfl
    change noted.world.control?.map (·.history) = _
    simp only [hcontrol, remembers_of_ne_running hs, Option.map_map, Function.comp_def]
  rw [launch]
  dsimp only
  generalize hmade : Pipeline.ofLine (Line.expandVariables _ line) _ _ _ = made
  rw [show Pipeline.ofLine _ _ _ _ = made from hmade] at heq
  obtain ⟨error, p, world⟩ := made
  have hworld : world.standing.control? = noted.world.standing.control? := by
    rw [← hv, show world = _ from congrArg Prod.snd heq]
    rfl
  have hstart := (p.onward_start { world with interrupt := some p.token }).history
  rw [← hnoted, ← hworld, remembers_of_running rfl]
  exact hstart

theorem settings_launch (s : Session) (line : String) : (s.launch line).settings = s.settings := by
  rw [launch]
  dsimp only
  generalize Pipeline.ofLine _ _ _ _ = made
  rfl

theorem notes_enter (hs : ∀ p c, s.phase ≠ .running p c) (raw : String) : s.Notes [raw] (s.enter raw) := by
  rw [enter]
  split
  · next hblank =>
      have hsame : (fun h : History => h.recordAll [raw]) = (·.recordAll []) := by
        funext h
        rw [History.recordAll, History.recordAll, List.foldl_cons, History.record_of_blank hblank]
      refine ⟨?_, rfl⟩
      rw [hsame]
      exact ((talks_goto s .prompt).notes hs (ne_running_of_idle rfl)).remembers
  · have hsame : (fun h : History => h.recordAll [raw]) = (·.record (Text.trim raw)) := by
      funext h
      rw [History.record_trim, History.recordAll, List.foldl_cons, List.foldl_nil]
    refine ⟨?_, settings_launch s _⟩
    rw [hsame]
    exact remembers_launch hs _

theorem notes_answer (hphase : s.phase = .await question) (reply : LineReply) :
    s.Notes (question.lines reply) (s.answer question reply) := by
  have hs := ne_running_of_idle (congrArg Phase.isIdle hphase)
  cases hquestion : question.isLine with
  | false =>
      have hlines : question.lines reply = [] := by
        cases question with
        | line => cases hquestion
        | _ => rfl
      rw [hlines]
      exact (talks_answer s hquestion reply).notes hs (ne_running_of_idle (isIdle_answer s hquestion reply))
  | true =>
      cases question with
      | line history cursor =>
          cases reply with
          | line text => exact notes_enter hs text
          | _ => exact (talks_goto s _).notes hs (ne_running_of_idle rfl)
      | _ => cases hquestion

theorem notes_conclude (hphase : s.phase = .running p c) : s.Notes [] (s.conclude p c).2 := by
  refine notes_nil ?_ rfl
  have hdrain : (p.drain c).2.standing.control? = c.world.standing.control? := by
    rw [Pipeline.standing_drain]
    rfl
  rw [remembers_of_running hphase, remembers_of_ne_running (ne_running_of_idle rfl)]
  exact congrArg (Option.map (·.history)) hdrain

theorem notes_running (hphase : s.phase = .running p c) (h : c.ends.Later d.ends) :
    s.Notes [] (s.goto (.running p d)) := by
  refine notes_nil ?_ rfl
  rw [remembers_of_running hphase, remembers_of_running rfl]
  exact h.world.history

theorem exists_save_eq (s : Session) : ∃ files, s.save = { s with world := { s.world with files } } := by
  rw [save]
  split
  · exact ⟨s.world.files, rfl⟩
  · split
    · exact ⟨_, rfl⟩
    · exact ⟨s.world.files, rfl⟩

theorem notes_end (hs : ∀ p c, s.phase ≠ .running p c) :
    s.Notes [] ((s.save.updateControl fun c => { c with state := .ended }).goto .ended) := by
  obtain ⟨files, hsave⟩ := exists_save_eq s
  let saved : Session := { s with world := { s.world with files } }
  have hsaved : ∀ p c, saved.phase ≠ .running p c := hs
  have hnotes : s.Notes [] saved :=
    notes_nil ((remembers_of_ne_running hsaved).trans (remembers_of_ne_running hs).symm) rfl
  rw [hsave]
  exact hnotes.trans (notes_update (fun c => { c with state := .ended }) hsaved (fun _ => rfl)
    (fun _ => rfl) (talks_goto _ .ended) (ne_running_of_ended rfl))

/-- The reading of a line is left out: others may come in between it and what follows from it. -/
theorem notes_step (hawait : ∀ question, s.phase ≠ .await question) (h : s.step = some t) : s.Notes [] t := by
  rw [step] at h
  rcases hphase : s.phase with _ | ⟨question, initial⟩ | question | _ | _ | ⟨p, c⟩ | _ | _ | _ <;> rw [hphase] at h
  case await => exact absurd hphase (hawait question)
  case running =>
    dsimp only at h
    split at h
    · next hadvance =>
        cases h
        exact notes_running hphase (Chain.later_of_advance hadvance)
    · cases h
      exact notes_conclude hphase
  case ended => cases h
  all_goals have hs := ne_running_of_idle (congrArg Phase.isIdle hphase)
  case start => exact Option.some_inj.1 h ▸ notes_begin hs
  case ask => exact Option.some_inj.1 h ▸ (talks_ask s question initial).notes hs (ne_running_of_idle rfl)
  case admitted => exact Option.some_inj.1 h ▸ notes_welcome hs
  case prompt => exact Option.some_inj.1 h ▸ notes_askLine hs
  case closing =>
    exact Option.some_inj.1 h ▸ notes_update (fun c => { c with state := .ending }) hs (fun _ => rfl)
      (fun _ => rfl) (talks_goto _ .saving) (ne_running_of_idle rfl)
  case saving => exact Option.some_inj.1 h ▸ notes_end hs

theorem notes_mapWorld {change : World → World} (h : s.standing.Onward (change s.current).standing) :
    s.Notes [] (s.mapWorld change) := by
  refine notes_nil ?_ ?_
  · rw [remembers, standing, current_mapWorld]
    exact h.history
  · rcases mapWorld_cases s change with ⟨p, c, -, hmap⟩ | ⟨-, hmap⟩
    · rw [hmap]
      rfl
    · rw [hmap]

/-! ### The last step -/

theorem answer_ne_ended (hphase : s.phase = .await question) (reply : LineReply) :
    (s.answer question reply).phase ≠ .ended := by
  cases hquestion : question.isLine with
  | false =>
      intro hended
      have hidle := isIdle_answer s hquestion reply
      rw [hended] at hidle
      cases hidle
  | true =>
      cases question with
      | line history cursor =>
          cases reply with
          | line text =>
              change (s.enter text).phase ≠ .ended
              rw [enter]
              split
              · intro hended
                cases hended
              · obtain ⟨p, c, hlaunch⟩ := exists_phase_launch s (Text.trim text)
                intro hended
                cases hlaunch.symm.trans hended
          | _ =>
              intro hended
              cases hended
      | _ => cases hquestion

/-- A session ends by saving its history. -/
theorem ended_of_step (hawait : ∀ question, s.phase ≠ .await question) (h : s.step = some t)
    (hended : t.phase = .ended) : s.phase = .saving ∧ t.world.files = s.save.world.files := by
  rw [step] at h
  rcases hphase : s.phase with _ | ⟨question, initial⟩ | question | _ | _ | ⟨p, c⟩ | _ | _ | _ <;> rw [hphase] at h
  case await => exact absurd hphase (hawait question)
  case running =>
    dsimp only at h
    split at h <;> cases h <;> cases hended
  case start =>
    cases h
    have hidle : s.begin.phase.isIdle = true := by
      rw [begin_eq]
      exact (aside_beginLogin _).idle
    rw [hended] at hidle
    cases hidle
  case admitted =>
    cases h
    rw [welcome] at hended
    split at hended <;> cases hended
  case prompt =>
    cases h
    rw [askLine] at hended
    split at hended <;> cases hended
  case saving =>
    cases h
    exact ⟨rfl, rfl⟩
  all_goals cases h
  all_goals cases hended

end Session

namespace Visit

variable {v : Visit}

/-- The command lines that the move takes. -/
def entered (v : Visit) : Move → List String
  | .own =>
    match v.heard with
    | some (question, reply) => question.lines reply
    | none => []
  | _ => []

/-- The command lines that are taken in the course of these moves. -/
def typed (v : Visit) : List Move → List String
  | [] => []
  | move :: moves => v.entered move ++ (v.perform move).typed moves

/-- A reply is to the question that the session waits for the answer to. -/
def Attends (v : Visit) : Prop :=
  ∀ {question reply}, v.heard = some (question, reply) → v.session.phase = .await question

/-- What a move comes to. -/
structure Recalls (v : Visit) (move : Move) : Prop where
  attends : (v.perform move).Attends
  notes : v.session.Notes (v.entered move) (v.perform move).session
  ended : (v.perform move).session.phase = .ended → v.entered move = [] ∧
    (v.session.phase = .ended ∧ (v.perform move).session.world.files = v.session.world.files ∨
      v.session.phase = .saving ∧ (v.perform move).session.world.files = v.session.save.world.files)

theorem recalls_own (h : v.Attends) : v.Recalls .own := by
  obtain ⟨s, _ | ⟨question, reply⟩⟩ := v
  · by_cases hphase : ∃ question, s.phase = .await question
    · obtain ⟨question, hphase⟩ := hphase
      have hs := Session.ne_running_of_idle (congrArg Phase.isIdle hphase)
      have hended : s.phase ≠ .ended := fun heq => nomatch hphase.symm.trans heq
      rcases hread : s.world.terminal.readLine s.world.isEndingHard with ⟨_ | reply, terminal⟩
      · have hgoOn : perform ⟨s, none⟩ .own = ⟨s, none⟩ := goOn_of_wait hphase hread
        refine ⟨?_, ?_, ?_⟩ <;> rw [hgoOn]
        · exact h
        · exact Session.notes_nil rfl rfl
        · exact fun heq => absurd heq hended
      · have hgoOn : perform ⟨s, none⟩ .own =
            ⟨{ s with world := { s.world with terminal } }, some (question, reply)⟩ := goOn_of_read hphase hread
        have htalks : s.Talks { s with world := { s.world with terminal } } := ⟨s.phase, terminal, rfl⟩
        refine ⟨?_, ?_, ?_⟩ <;> rw [hgoOn]
        · intro question' reply' heq
          cases heq
          exact hphase
        · exact htalks.notes hs hs
        · exact fun heq => absurd heq hended
    · have hphase : ∀ question, s.phase ≠ .await question := fun question heq => hphase ⟨question, heq⟩
      have hgoOn : perform ⟨s, none⟩ .own = ⟨s.step.getD s, none⟩ := goOn_of_step hphase
      refine ⟨?_, ?_, ?_⟩ <;> rw [hgoOn]
      · exact nofun
      · rcases hstep : s.step with _ | t
        · exact Session.notes_nil rfl rfl
        · exact Session.notes_step hphase hstep
      · rcases hstep : s.step with _ | t
        · exact fun heq => ⟨rfl, .inl ⟨heq, rfl⟩⟩
        · exact fun heq => ⟨rfl, .inr (Session.ended_of_step hphase hstep heq)⟩
  · have hphase : s.phase = .await question := h rfl
    exact ⟨nofun, Session.notes_answer hphase reply, fun heq => absurd heq (Session.answer_ne_ended hphase reply)⟩

theorem recalls_mapWorld {move : Move} {change : World → World} (h : v.Attends) (hown : v.entered move = [])
    (hperform : v.perform move = { v with session := v.session.mapWorld change })
    (hworld : v.session.standing.Onward (change v.session.current).standing)
    (hfiles : ∀ w, (change w).files = w.files) : v.Recalls move := by
  refine ⟨?_, ?_, ?_⟩ <;> rw [hperform]
  · intro question reply heq
    have hphase := h heq
    rcases v.session.mapWorld_cases change with ⟨p, c, hrunning, -⟩ | ⟨-, hmap⟩
    · cases hphase.symm.trans hrunning
    · rw [hmap]
      exact hphase
  · rw [hown]
    exact Session.notes_mapWorld hworld
  · intro hended
    refine ⟨hown, .inl ?_⟩
    rcases v.session.mapWorld_cases change with ⟨p, c, -, hmap⟩ | ⟨-, hmap⟩
    · rw [hmap] at hended
      cases hended
    · rw [hmap] at hended ⊢
      exact ⟨hended, hfiles _⟩

theorem recalls_withChain {move : Move} {advance : Chain → Option Chain} (h : v.Attends) (hown : v.entered move = [])
    (hperform : v.perform move = v.withChain advance)
    (hlater : ∀ {c d}, advance c = some d → c.ends.Later d.ends) : v.Recalls move := by
  by_cases hphase : ∃ p c, v.session.phase = .running p c
  · obtain ⟨p, c, hphase⟩ := hphase
    have hends : c.ends.Later ((advance c).getD c).ends := by
      rcases hadvance : advance c with _ | d
      · exact .refl _
      · exact hlater hadvance
    have hwith : v.perform move = { v with session := v.session.goto (.running p ((advance c).getD c)) } := by
      rw [hperform, withChain, hphase]
    refine ⟨?_, ?_, ?_⟩ <;> rw [hwith]
    · intro question reply heq
      cases (h heq).symm.trans hphase
    · rw [hown]
      exact Session.notes_running hphase hends
    · intro hended
      cases hended
  · have hwith : v.perform move = v := by
      rw [hperform, withChain]
      split
      · next heq => exact absurd ⟨_, _, heq⟩ hphase
      · rfl
    refine ⟨?_, ?_, ?_⟩ <;> rw [hwith]
    · exact h
    · rw [hown]
      exact Session.notes_nil rfl rfl
    · exact fun hended => ⟨hown, .inl ⟨hended, rfl⟩⟩

theorem files_cancelSession (w : World) (id : Nat) : (w.cancelSession id).files = w.files := by
  rw [World.cancelSession]
  split <;> rfl

theorem Attends.recalls (h : v.Attends) (move : Move) : v.Recalls move := by
  cases move with
  | own => exact recalls_own h
  | stage i => exact recalls_withChain h rfl rfl Chain.later_of_step
  | tick => exact recalls_withChain h rfl rfl fun htick => (Chain.kept_tick htick).ends
  | terminal change => exact recalls_mapWorld h rfl rfl .refl fun _ => rfl
  | requestEnd id => exact recalls_mapWorld h rfl rfl (World.onward_requestEnd _ id) fun _ => rfl
  | cancelSession id =>
      exact recalls_mapWorld h rfl rfl (World.onward_cancelSession _ id) fun w => files_cancelSession w id

/-! ### Any moves -/

/-- After any moves, the session remembers what has been typed. -/
theorem Attends.notes_performAll (h : v.Attends) (moves : List Move) :
    v.session.Notes (v.typed moves) (v.performAll moves).session := by
  induction moves generalizing v with
  | nil => exact Session.notes_nil rfl rfl
  | cons move moves ih =>
      have hmove := h.recalls move
      exact hmove.notes.trans (ih hmove.attends)

end Visit

namespace Visit

variable {v : Visit} {path : String} {history : History}

end Visit

theorem Directory.get?_add {d : Directory} {id : Nat} {control : SessionControl} (hnew : d.get? id = none)
    (hid : control.id = id) : (d.add control).get? id = some control := by
  rw [get?, add, List.find?_append, ← get?, hnew, Option.none_or, List.find?_cons_of_pos (by simp [hid])]

/-- The host opens the session, which keeps its history in the file. -/
structure Host.Seats (h : Host) (path : String) (m : Nat) (s : Session) : Prop where
  opened : ∃ terminal login, (h.openSession terminal login).sessions = h.sessions ++ [s]
  number : h.shared.directory.get? (h.sessions.length + 1) = none
  file : (h.config.sessionSettings h.shared.home).historyFile = some path
  length : (h.config.sessionSettings h.shared.home).historyLength = m

/-- There is no file at the path, or one that has these lines. -/
def FileSystem.Kept (fs : FileSystem) (path : String) (lines : List String) : Prop :=
  fs.read path = .error .notFound ∧ lines = [] ∨ fs.HasLines path lines

theorem Host.Seats.start {h : Host} {path : String} {m : Nat} {s : Session} {old : List String}
    (hseats : h.Seats path m s) (hold : h.shared.files.Kept path old) : s.phase = .start ∧
      s.settings.historyFile = some path ∧ s.remembers = some ((History.new m).recordAll old) := by
  obtain ⟨⟨terminal, login, hopened⟩, hnumber, hfile, hlength⟩ := hseats
  obtain rfl := List.singleton_injective (List.append_cancel_left hopened)
  have hload : h.startHistory (h.config.sessionSettings h.shared.home) = (History.new m).recordAll old := by
    rw [startHistory, hfile, hlength, Option.bind_some]
    rcases hold with ⟨hmissing, rfl⟩ | hlines
    · rw [History.load_missing hmissing]
      rfl
    · rw [History.load_hasLines hlines]
      rfl
  refine ⟨rfl, hfile, ?_⟩
  rw [← hload]
  change ((h.shared.directory.add _).get? (h.sessions.length + 1)).map (·.history) = _
  rw [Directory.get?_add hnumber rfl]
  rfl

namespace Visit

end Visit

namespace Visit

end Visit

end CommandShell
