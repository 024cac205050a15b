import CommandShell.Host
import CommandShell.Proofs.Session.Turn

/-!
The life of a session among others that may ask it to end at any time.  Main statement: in whatever order the
session and the others move, its state does not go back; once the end has been asked for, at most one more
line is processed; and once its token is cancelled, so is that of every pipeline that runs in it.
-/

namespace CommandShell

/-- A session on its way.  A reply that has been read is not gone on from at once: others may come in. -/
structure Visit where
  session : Session
  heard : Option (Question × LineReply) := none

/-- Something that the session or someone else does. -/
inductive Move where
  | own
  /-- A stage of the running pipeline takes a step, whichever is next. -/
  | stage (i : Nat)
  | tick
  /-- Something happens at the terminal: keys or lines are typed, or it is closed. -/
  | terminal (change : Terminal → Terminal)
  /-- Someone makes the first half of a call that ends a session, which is all of a soft one. -/
  | requestEnd (id : Nat)
  /-- Someone makes the other half of a hard call. -/
  | cancelSession (id : Nat)

namespace Visit

/-- The session goes on.  It stays as it is if it has ended or waits for a line. -/
def goOn (v : Visit) : Visit :=
  match v.heard with
  | some (question, reply) => ⟨v.session.answer question reply, none⟩
  | none =>
    match v.session.phase with
    | .await question =>
      match v.session.world.terminal.readLine v.session.world.isEndingHard with
      | (none, _) => v
      | (some reply, terminal) =>
        ⟨{ v.session with world := { v.session.world with terminal } }, some (question, reply)⟩
    | _ => ⟨v.session.step.getD v.session, none⟩

def withChain (v : Visit) (advance : Chain → Option Chain) : Visit :=
  match v.session.phase with
  | .running p c => { v with session := v.session.goto (.running p ((advance c).getD c)) }
  | _ => v

def perform (v : Visit) : Move → Visit
  | .own => v.goOn
  | .stage i => v.withChain (·.step i)
  | .tick => v.withChain (·.tick)
  | .terminal change =>
    { v with session := v.session.mapWorld fun w => { w with terminal := change w.terminal } }
  | .requestEnd id => { v with session := v.session.mapWorld (·.requestEnd id) }
  | .cancelSession id => { v with session := v.session.mapWorld (·.cancelSession id) }

def performAll (v : Visit) (moves : List Move) : Visit := moves.foldl perform v

def after (s : Session) (moves : List Move) : Visit := performAll ⟨s, none⟩ moves

/-- The move takes a command line that has been entered, be it blank, and processes it. -/
def processes (v : Visit) : Move → Bool
  | .own =>
    match v.heard with
    | some (.line _ _, .line _) => true
    | _ => false
  | _ => false

/-- How many command lines are processed in the course of these moves. -/
def processed (v : Visit) : List Move → Nat
  | [] => 0
  | move :: moves => (if v.processes move then 1 else 0) + (v.perform move).processed moves

def state (v : Visit) : SessionState := v.session.state

/-- The end has been asked for or has come. -/
def endRequested (v : Visit) : Bool := v.state == .ending || v.state == .ended

def isEndingHard (v : Visit) : Bool := v.session.current.isEndingHard

structure Sound (v : Visit) (token : TokenId) : Prop where
  session : v.session.Sound token
  heard : ∀ {question reply}, v.heard = some (question, reply) → v.session.phase = .await question

structure Moves (v : Visit) (token : TokenId) (move : Move) : Prop where
  sound : (v.perform move).Sound token
  later : v.session.Later token (v.perform move).session
  line : v.processes move = true →
    v.session.phase.asksLine = true ∧ (v.perform move).session.phase.asksLine = false

variable {v : Visit} {token : TokenId} {s : Session}

/-! ### The calls and the steps that the moves are made of -/

theorem perform_requestEnd (v : Visit) :
    (v.perform (.requestEnd v.session.id)).session = v.session.terminate false := by
  rw [Session.terminate]
  simp only [World.endSession_soft]
  rfl

theorem perform_requestEnd_cancelSession (v : Visit) : ((v.perform (.requestEnd v.session.id)).perform
    (.cancelSession v.session.id)).session = v.session.terminate true := by
  rw [Session.terminate, perform, perform, Session.mapWorld_mapWorld]
  simp only [World.endSession_hard]

theorem performAll_concat (v : Visit) (moves : List Move) (move : Move) :
    v.performAll (moves ++ [move]) = (v.performAll moves).perform move := List.foldl_concat ..

theorem after_append (s : Session) (moves more : List Move) :
    after s (moves ++ more) = (after s moves).performAll more := List.foldl_append ..

section GoOn

variable {question : Question} {reply : LineReply} {terminal : Terminal}

theorem goOn_of_wait (hphase : s.phase = .await question)
    (hread : s.world.terminal.readLine s.world.isEndingHard = (none, terminal)) : goOn ⟨s, none⟩ = ⟨s, none⟩ := by
  simp only [goOn, hphase, hread]

theorem goOn_of_read (hphase : s.phase = .await question)
    (hread : s.world.terminal.readLine s.world.isEndingHard = (some reply, terminal)) :
    goOn ⟨s, none⟩ = ⟨{ s with world := { s.world with terminal } }, some (question, reply)⟩ := by
  simp only [goOn, hphase, hread]

theorem goOn_of_step (hphase : ∀ question, s.phase ≠ .await question) :
    goOn ⟨s, none⟩ = ⟨s.step.getD s, none⟩ := by
  rw [goOn]
  dsimp only
  split
  · next heq => exact absurd heq (hphase _)
  · rfl

end GoOn

theorem exists_performAll_of_step {s' : Session} (h : s.step = some s') :
    ∃ n, performAll ⟨s, none⟩ (List.replicate n .own) = ⟨s', none⟩ := by
  by_cases hphase : ∃ question, s.phase = .await question
  · obtain ⟨question, hphase⟩ := hphase
    -- reading the reply is a move of its own
    refine ⟨2, ?_⟩
    rw [Session.step, hphase] at h
    change s.await question = some s' at h
    change (goOn ⟨s, none⟩).goOn = _
    rw [Session.await] at h
    split at h
    · cases h
    · next hread =>
        cases h
        rw [goOn_of_read hphase hread]
        rfl
  · refine ⟨1, ?_⟩
    change goOn ⟨s, none⟩ = _
    rw [goOn_of_step fun question heq => hphase ⟨question, heq⟩, h, Option.getD_some]

/-- What the session does alone is what it does among others that do nothing. -/
theorem exists_after_eq_run (fuel : Nat) (s : Session) :
    ∃ n, after s (List.replicate n .own) = ⟨s.run fuel, none⟩ := by
  induction fuel generalizing s with
  | zero => exact ⟨0, rfl⟩
  | succ fuel ih =>
      rw [Session.run]
      rcases hstep : s.step with _ | s'
      · exact ⟨0, rfl⟩
      · obtain ⟨n, hn⟩ := exists_performAll_of_step hstep
        obtain ⟨m, hm⟩ := ih s'
        refine ⟨n + m, ?_⟩
        rw [List.replicate_add, after_append, after, hn]
        exact hm

/-! ### One move -/

theorem processes_eq_true_iff {move : Move} : v.processes move = true ↔ move = .own ∧
    ∃ history cursor text, v.heard = some (.line history cursor, .line text) := by
  rw [processes.eq_def]
  split
  · split
    · next h => simp [h]
    · next h =>
        simp only [Bool.false_eq_true, true_and, false_iff]
        rintro ⟨history, cursor, text, heq⟩
        exact h history cursor text heq
  · next h =>
      simp only [Bool.false_eq_true, false_iff]
      exact fun hown => h hown.1

theorem moves_own (h : v.Sound token) : v.Moves token .own := by
  obtain ⟨s, _ | ⟨question, reply⟩⟩ := v
  · have hline : ∀ m : Move, processes ⟨s, none⟩ m = true → False := by
      intro m hm
      obtain ⟨-, _, _, _, heq⟩ := processes_eq_true_iff.1 hm
      cases heq
    by_cases hphase : ∃ question, s.phase = .await question
    · obtain ⟨question, hphase⟩ := hphase
      have hidle : s.phase.isIdle = true := by rw [hphase]; rfl
      rcases hread : s.world.terminal.readLine s.world.isEndingHard with ⟨_ | reply, terminal⟩
      · have hgoOn : goOn ⟨s, none⟩ = ⟨s, none⟩ := goOn_of_wait hphase hread
        refine ⟨?_, ?_, fun hm => (hline _ hm).elim⟩
        · rw [perform, hgoOn]
          exact h
        · rw [perform, hgoOn]
          exact .refl h.session
      · have hgoOn := goOn_of_read hphase hread
        have hlater : s.Later token { s with world := { s.world with terminal } } :=
          Session.later_of_standing h.session hidle hidle rfl rfl .inl
        refine ⟨?_, ?_, fun hm => (hline _ hm).elim⟩
        · rw [perform, hgoOn]
          refine ⟨hlater.sound, fun heq => ?_⟩
          cases heq
          exact hphase
        · rw [perform, hgoOn]
          exact hlater
    · have hphase : ∀ question, s.phase ≠ .await question := fun question heq => hphase ⟨question, heq⟩
      have hlater : s.Later token (s.step.getD s) := by
        rcases hstep : s.step with _ | s'
        · exact .refl h.session
        · exact Session.later_step h.session hphase hstep
      refine ⟨?_, ?_, fun hm => (hline _ hm).elim⟩
      · rw [perform, goOn_of_step hphase]
        exact ⟨hlater.sound, nofun⟩
      · rw [perform, goOn_of_step hphase]
        exact hlater
  · have hphase : s.phase = .await question := h.heard rfl
    have hlater : s.Later token (s.answer question reply) := Session.later_answer h.session hphase reply
    refine ⟨⟨hlater.sound, nofun⟩, hlater, fun hm => ?_⟩
    obtain ⟨-, history, cursor, text, heq⟩ := processes_eq_true_iff.1 hm
    cases heq
    refine ⟨?_, s.asksLine_enter text⟩
    change s.phase.asksLine = true
    rw [hphase]
    rfl

theorem moves_of_later {move : Move} {s : Session} (hown : move ≠ .own)
    (hperform : v.perform move = { v with session := s }) (hlater : v.session.Later token s)
    (hheard : ∀ {question reply}, v.heard = some (question, reply) → s.phase = .await question) :
    v.Moves token move := by
  refine ⟨?_, ?_, fun hm => absurd (processes_eq_true_iff.1 hm).1 hown⟩
  · rw [hperform]
    exact ⟨hlater.sound, hheard⟩
  · rw [hperform]
    exact hlater

theorem moves_mapWorld {move : Move} {change : World → World} (h : v.Sound token) (hown : move ≠ .own)
    (hperform : v.perform move = { v with session := v.session.mapWorld change })
    (hworld : v.session.standing.Onward (change v.session.current).standing) : v.Moves token move := by
  refine moves_of_later hown hperform (Session.later_mapWorld h.session hworld) fun heq => ?_
  have hphase := h.heard heq
  rcases v.session.mapWorld_cases change with ⟨p, c, hrunning, -⟩ | ⟨-, hmap⟩
  · cases hphase.symm.trans hrunning
  · rw [hmap]
    exact hphase

theorem moves_withChain {move : Move} {advance : Chain → Option Chain} (h : v.Sound token) (hown : move ≠ .own)
    (hperform : v.perform move = v.withChain advance)
    (hlater : ∀ {c d}, advance c = some d → c.ends.Later d.ends) : v.Moves token move := by
  by_cases hphase : ∃ p c, v.session.phase = .running p c
  · obtain ⟨p, c, hphase⟩ := hphase
    have hends : c.ends.Later ((advance c).getD c).ends := by
      rcases hadvance : advance c with _ | d
      · exact .refl _
      · exact hlater hadvance
    refine moves_of_later hown ?_ (Session.later_running h.session hphase hends) fun heq => ?_
    · rw [hperform, withChain, hphase]
    · cases (h.heard heq).symm.trans hphase
  · refine moves_of_later hown ?_ (.refl h.session) h.heard
    rw [hperform, withChain]
    split
    · next heq => exact absurd ⟨_, _, heq⟩ hphase
    · rfl

theorem Sound.moves (h : v.Sound token) (move : Move) : v.Moves token move := by
  cases move with
  | own => exact moves_own h
  | stage i => exact moves_withChain h nofun rfl Chain.later_of_step
  | tick => exact moves_withChain h nofun rfl fun htick => (Chain.kept_tick htick).ends
  | terminal change => exact moves_mapWorld h nofun rfl .refl
  | requestEnd id => exact moves_mapWorld h nofun rfl (World.onward_requestEnd _ id)
  | cancelSession id => exact moves_mapWorld h nofun rfl (World.onward_cancelSession _ id)

/-! ### Any moves -/

structure Goes (v : Visit) (token : TokenId) (v' : Visit) : Prop where
  sound : v'.Sound token
  id : v'.session.id = v.session.id
  rank : v.state.rank ≤ v'.state.rank
  cancelled : v.session.current.isCancelled token = true → v'.session.current.isCancelled token = true

theorem goes_performAll (h : v.Sound token) (moves : List Move) : v.Goes token (v.performAll moves) := by
  induction moves generalizing v with
  | nil => exact ⟨h, rfl, Nat.le_refl _, fun h => h⟩
  | cons move moves ih =>
      have hmove := h.moves move
      have hrest := ih hmove.sound
      exact ⟨hrest.sound, hrest.id.trans hmove.later.id, Nat.le_trans hmove.later.rank hrest.rank,
        fun hcancelled => hrest.cancelled (hmove.later.cancelled hcancelled)⟩

theorem endRequested_iff : v.endRequested = true ↔ SessionState.ending.rank ≤ v.state.rank := by
  rw [endRequested]
  cases v.state <;> decide

/-- Once the end has been asked for, a line is processed only if it was being asked for then. -/
theorem processed_le (h : v.Sound token) (hend : v.endRequested = true) (moves : List Move) :
    v.processed moves ≤ v.session.phase.asksLine.toNat := by
  induction moves generalizing v with
  | nil => exact Nat.zero_le _
  | cons move moves ih =>
      have hmove := h.moves move
      have hend' := endRequested_iff.2 (Nat.le_trans (endRequested_iff.1 hend) hmove.later.rank)
      have hrest := ih hmove.sound hend'
      have hstate : v.session.state ≠ .running := by
        intro hrunning
        rw [endRequested, state, hrunning] at hend
        cases hend
      rw [processed]
      split
      · -- the line that was being asked for is used up, and no other one is asked for any more
        next hprocesses =>
          obtain ⟨hbefore, hafter⟩ := hmove.line hprocesses
          rw [hafter, Bool.toNat_false] at hrest
          rw [hbefore, Bool.toNat_true]
          omega
      · rw [Nat.zero_add]
        refine Nat.le_trans hrest ?_
        rcases hasks : (v.perform move).session.phase.asksLine with _ | _
        · exact Nat.zero_le _
        · have hasked := (hmove.later.asks hasks).resolve_right hstate
          exact Nat.le_of_eq (by rw [hasked])

/-! ### The calls -/

theorem state_of_control? {c : SessionControl} (h : v.session.current.control? = some c) :
    v.endRequested = c.endRequested := by
  rw [endRequested, state, Session.state_of_control? h]
  rfl

theorem endRequested_perform (h : v.Sound token) : (v.perform (.requestEnd v.session.id)).endRequested = true := by
  obtain ⟨c, hc, hend⟩ := World.exists_control?_requestEnd h.session.standing
  have hid : v.session.current.session = v.session.id := h.session.session
  refine (state_of_control? ?_).trans hend
  rw [perform, Session.current_mapWorld, ← hid]
  exact hc

theorem isEndingHard_eq (h : v.Sound token) : v.isEndingHard = v.session.current.isCancelled token :=
  World.isEndingHard_eq h.session.standing

theorem isEndingHard_perform (h : v.Sound token) :
    (v.perform (.cancelSession v.session.id)).isEndingHard = true := by
  have hid : v.session.current.session = v.session.id := h.session.session
  rw [isEndingHard_eq (h.moves _).sound, perform, Session.current_mapWorld, ← hid]
  exact World.isCancelled_cancelSession h.session.standing

end Visit

/-- The next step of a stage asks the session to end. -/
def Chain.AsksEnd (c : Chain) (i : Nat) (hard : Bool) : Prop :=
  ∃ (w : Worker) (s next : w.body.State), c.workers[i]? = some w ∧ w.control = .ready s ∧
    w.body.next s = .endSession hard next

theorem Chain.AsksEnd.world {c d : Chain} {i : Nat} {hard : Bool} (h : c.AsksEnd i hard)
    (hstep : c.step i = some d) : d.world = c.world.endSession c.world.session hard := by
  obtain ⟨w, s, next, hw, hcontrol, hnext⟩ := h
  simp only [step, hw, hcontrol] at hstep
  split at hstep
  · cases hstep
  · cases hstep
    rw [hnext]
    rfl

namespace Visit

variable {v : Visit} {token : TokenId} {s : Session} {p : Pipeline} {c d : Chain} {i : Nat} {hard : Bool}

theorem perform_stage (hphase : v.session.phase = .running p c) (hstep : c.step i = some d) :
    v.perform (.stage i) = { v with session := v.session.goto (.running p d) } := by
  rw [perform, withChain, hphase]
  dsimp only
  rw [hstep]
  rfl

theorem ending_of_asksEnd (h : v.Sound token) (hphase : v.session.phase = .running p c) (hasks : c.AsksEnd i hard)
    (hstep : c.step i = some d) : (v.perform (.stage i)).endRequested = true ∧
      (hard = true → (v.perform (.stage i)).isEndingHard = true) := by
  have hcurrent : v.session.current = c.world := Session.current_of_running hphase
  have hsound : c.world.standing.Sound token := hcurrent ▸ h.session.standing
  have hworld := hasks.world hstep
  obtain ⟨control, hcontrol, hend⟩ := World.exists_control?_requestEnd hsound
  have hafter : (v.perform (.stage i)).session.current = d.world := by
    rw [perform_stage hphase hstep]
    rfl
  cases hard with
  | false =>
      rw [World.endSession_soft] at hworld
      refine ⟨(state_of_control? ?_).trans hend, nofun⟩
      rw [hafter, hworld]
      exact hcontrol
  | true =>
      rw [World.endSession_hard] at hworld
      refine ⟨(state_of_control? ?_).trans hend, fun _ => ?_⟩
      · rw [hafter, hworld, World.control?_cancelSession]
        exact hcontrol
      · rw [isEndingHard_eq (h.moves _).sound, hafter, hworld]
        exact World.isCancelled_cancelSession ((World.onward_requestEnd _ _).sound hsound)

end Visit

/-- A session as it is opened. -/
structure Session.Opened (s : Session) : Prop where
  phase : s.phase = .start
  session : s.world.session = s.id
  control : ∃ c, s.world.control? = some c ∧ c.state = .notStarted ∧ (s.world.tokens.get? c.token).isSome = true
  tokens : s.world.tokens.Sturdy

/-- A host opens sessions under numbers and with tokens that have not been in use. -/
theorem Host.exists_opened (h : Host) (terminal : Terminal) (login : Option Login) (htokens : h.shared.tokens.Sturdy)
    (hnumber : h.shared.directory.get? (h.sessions.length + 1) = none) :
    ∃ s, (h.openSession terminal login).sessions = h.sessions ++ [s] ∧ s.id = h.sessions.length + 1 ∧
      s.Opened := by
  let control : SessionControl :=
    { id := h.sessions.length + 1
      token := h.shared.tokens.next
      history := h.startHistory (h.config.sessionSettings h.shared.home)
      terminalKind := terminal.kind
      window := terminal.window }
  have hget : (h.shared.directory.add control).get? (h.sessions.length + 1) = some control := by
    rw [Directory.get?, Directory.add, List.find?_append, ← Directory.get?, hnumber, Option.none_or,
      List.find?_cons_of_pos (by simp [control])]
  have htoken : (h.shared.tokens.new.2.get? h.shared.tokens.next).isSome = true := by
    rw [CancelTree.get?_new htokens.get?_next, if_pos rfl]
    rfl
  exact ⟨_, rfl, rfl, rfl, rfl, ⟨control, hget, rfl, htoken⟩, htokens.new⟩

namespace Visit

variable {s : Session}

theorem exists_sound_start (h : s.Opened) : ∃ token, Sound ⟨s, none⟩ token := by
  obtain ⟨c, hc, hstate, htoken⟩ := h.control
  have hidle : s.phase.isIdle = true := by rw [h.phase]; rfl
  have hcurrent := Session.current_of_idle hidle
  have hcontrol : s.standing.control? = some c := by
    rw [Session.standing, hcurrent]
    exact hc
  refine ⟨c.token, ⟨?_, ⟨⟨c, hcontrol, rfl⟩, ?_, ?_⟩, fun _ => ?_, fun heq => ?_⟩, fun heq => ?_⟩
  · rw [Session.standing, hcurrent]
    exact h.session
  · rw [Session.standing, hcurrent]
    exact h.tokens
  · rw [Session.standing, hcurrent]
    exact htoken
  · rw [Session.state_of_control? hcontrol, hstate]
    decide
  · rw [h.phase] at heq
    cases heq
  · cases heq

/-- States never go back, and the end is final.  Once the end has been asked for, at most one more line is
processed, and none if a line is being processed then.  Once the session's token is cancelled, so is that of
each pipeline that is running or comes to run.  A call asks for the end and, if it is a hard one, then cancels
the session's token, whether someone else makes it or a stage of the running pipeline does. -/
theorem life_cycle (h : s.Opened) (moves : List Move) :
    (∀ more, (after s moves).state.rank ≤ (after s (moves ++ more)).state.rank ∧
      ((after s moves).state = .ended → (after s (moves ++ more)).state = .ended)) ∧
    ((after s moves).endRequested = true → ∀ more, (after s moves).processed more ≤ 1 ∧
      ∀ p c, (after s moves).session.phase = .running p c → (after s moves).processed more = 0) ∧
    ((after s moves).isEndingHard = true → ∀ more p c, (after s (moves ++ more)).session.phase = .running p c →
      c.world.isCancelled p.token = true ∧ c.isCancelled = true) ∧
    (after s (moves ++ [.requestEnd s.id])).session = (after s moves).session.terminate false ∧
    (after s (moves ++ [.requestEnd s.id, .cancelSession s.id])).session =
      (after s moves).session.terminate true ∧
    (after s (moves ++ [.requestEnd s.id])).endRequested = true ∧
    (after s (moves ++ [.cancelSession s.id])).isEndingHard = true ∧
    ∀ p c i d hard, (after s moves).session.phase = .running p c → c.AsksEnd i hard → c.step i = some d →
      (after s (moves ++ [.stage i])).session.phase = .running p d ∧
      (after s (moves ++ [.stage i])).endRequested = true ∧
      (hard = true → (after s (moves ++ [.stage i])).isEndingHard = true) := by
  obtain ⟨token, hstart⟩ := exists_sound_start h
  have hgoes : Goes ⟨s, none⟩ token (after s moves) := goes_performAll hstart moves
  have hmore (more : List Move) : (after s moves).Goes token (after s (moves ++ more)) := by
    rw [after_append]
    exact goes_performAll hgoes.sound more
  have hone (move : Move) : after s (moves ++ [move]) = (after s moves).perform move := performAll_concat _ moves move
  refine ⟨fun more => ⟨(hmore more).rank, fun hended => ?_⟩, fun hend more => ⟨?_, fun p c hphase => ?_⟩,
    fun hending more p c hphase => ?_, ?_, ?_, ?_, ?_, fun p c i d hard hphase hasks hstep => ?_⟩
  · have hrank := (hmore more).rank
    rw [hended] at hrank
    exact SessionState.eq_ended_of_rank_le hrank
  · exact Nat.le_trans (processed_le hgoes.sound hend more) (Bool.toNat_le _)
  · have hle := processed_le hgoes.sound hend more
    rw [hphase] at hle
    exact Nat.eq_zero_of_le_zero hle
  · have hcurrent := Session.current_of_running hphase
    have hlater := (hmore more).cancelled ((isEndingHard_eq hgoes.sound).symm.trans hending)
    have hattached := (hmore more).sound.session.attached hphase
    have hcancelled := hattached.isCancelled (hcurrent ▸ (hmore more).sound.session.standing) (hcurrent ▸ hlater)
    refine ⟨hcancelled, ?_⟩
    rw [Chain.isCancelled, Ends.isCancelled, hattached.token]
    exact hcancelled
  · rw [hone, ← hgoes.id]
    exact perform_requestEnd _
  · rw [after_append, ← hgoes.id]
    exact perform_requestEnd_cancelSession _
  · rw [hone, ← hgoes.id]
    exact endRequested_perform hgoes.sound
  · rw [hone, ← hgoes.id]
    exact isEndingHard_perform hgoes.sound
  · rw [hone]
    refine ⟨?_, ending_of_asksEnd hgoes.sound hphase hasks hstep⟩
    rw [perform_stage hphase hstep]
    rfl

/-- The first session of a host is asked to end while it waits for its first line. -/
theorem life_cycle_of_first :
    ∃ s, (Host.openSession ⟨{}, {}, ⟨.fresh [] "/", none, {}, {}, {}⟩, []⟩ {}).sessions = [s] ∧ s.Opened ∧
      (∀ more, (after s ([.own, .own, .own, .own] ++ [.requestEnd 1])).processed more ≤ 1) ∧
      ∀ more p c, (after s ([.own, .own, .own, .own, .requestEnd 1] ++ [.cancelSession 1] ++ more)).session.phase =
        .running p c → c.world.isCancelled p.token = true := by
  obtain ⟨s, hsessions, hid, hopened⟩ :=
    Host.exists_opened ⟨{}, {}, ⟨.fresh [] "/", none, {}, {}, {}⟩, []⟩ {} none ⟨nofun, nofun, nofun⟩ rfl
  have hcalls (moves : List Move) := (life_cycle hopened moves).2.2.2.2.2
  rw [show s.id = 1 from hid] at hcalls
  refine ⟨s, hsessions, hopened, fun more => ?_, fun more p c hphase => ?_⟩
  · exact ((life_cycle hopened _).2.1 (hcalls _).1 more).1
  · exact ((life_cycle hopened _).2.2.1 (hcalls _).2.1 more p c hphase).1

end Visit

end CommandShell
