import CommandShell.Host
import CommandShell.Proofs.Session.Turn

/-!
The login dialog.  What is going to be answered at the terminal is taken apart from all else that a session
is, so that sessions can be compared that differ in that alone.  Main statement: a session whose login is not
admitted ends without having run a pipeline or read on, and what it leaves does not depend on what it has not
read; no session remembers what is entered in the dialog.
-/

namespace CommandShell

/-- The session is about to begin or in its login dialog. -/
def Phase.isDialog : Phase → Bool
  | .start => true
  | .ask question _ | .await question => !question.isLine
  | _ => false

/-- What is going to be answered at a terminal, and whether the terminal is closed after that. -/
structure Script where
  replies : List LineReply
  closed : Bool

/-- The script goes through these replies, and `left` is left of it then.  At its end a terminal tells that it
is closed if it is, or if the session is being ended hard. -/
def Script.Delivers (script : Script) (hard : Bool) (heard left : List LineReply) : Prop :=
  script.replies = heard ++ left ∨
    (hard || script.closed) = true ∧ heard = script.replies ++ [.closed] ∧ left = []

theorem Script.delivers_nil_iff {script : Script} {hard : Bool} {left : List LineReply} :
    script.Delivers hard [] left ↔ script.replies = left := by
  simp [Delivers]

namespace Login

/-- The replies to a question of the dialog, and to those that follow from it, and whether they are let in
that have given them.  Keys that recall a line are passed over. -/
inductive Decides (login : Login) : Question → List LineReply → Bool → Prop
  | recall {question : Question} {heard : List LineReply} {admitted : Bool} (key : Key)
      (h : Decides login question heard admitted) : Decides login question (.recall key :: heard) admitted
  | failed (question : Question) : Decides login question [.failed] false
  | closed (question : Question) : Decides login question [.closed] false
  | userName {heard : List LineReply} {admitted : Bool} (name : String) (hwants : login.wantsPassword = true)
      (h : Decides login (.password (some name)) heard admitted) :
      Decides login .userName (.line name :: heard) admitted
  | onlyUserName (name : String) (hwants : login.wantsPassword = false) :
      Decides login .userName [.line name] (login.admits (some name) none)
  | password (userName : Option String) (password : String) :
      Decides login (.password userName) [.line password] (login.admits userName (some password))

/-- The replies that the whole dialog hears, and whether they are let in that have given them. -/
inductive Hears (login : Login) : List LineReply → Bool → Prop
  | userName {heard : List LineReply} {admitted : Bool} (hwants : login.wantsUserName = true)
      (h : login.Decides .userName heard admitted) : Hears login heard admitted
  | password {heard : List LineReply} {admitted : Bool} (hwants : login.wantsUserName = false)
      (hwants' : login.wantsPassword = true) (h : login.Decides (.password none) heard admitted) :
      Hears login heard admitted
  | nothing (hwants : login.wantsUserName = false) (hwants' : login.wantsPassword = false) :
      Hears login [] (login.admits none none)

/-- Whatever is answered to a question, there is a verdict once the terminal is closed. -/
theorem exists_decides (login : Login) (question : Question) (hquestion : question.isLine = false) (replies : List LineReply)
    (hard : Bool) : ∃ heard left admitted,
      (Script.mk replies true).Delivers hard heard left ∧ login.Decides question heard admitted := by
  induction replies generalizing question with
  | nil => exact ⟨[.closed], [], false, .inr ⟨Bool.or_true _, rfl, rfl⟩, .closed question⟩
  | cons reply rest ih =>
      have hlast {admitted : Bool} (h : login.Decides question [reply] admitted) :
          ∃ heard left admitted, (Script.mk (reply :: rest) true).Delivers hard heard left ∧
            login.Decides question heard admitted :=
        ⟨[reply], rest, admitted, .inl rfl, h⟩
      have hmore (next : Question) (hnext : next.isLine = false)
          (h : ∀ {heard admitted}, login.Decides next heard admitted →
            login.Decides question (reply :: heard) admitted) :
          ∃ heard left admitted, (Script.mk (reply :: rest) true).Delivers hard heard left ∧
            login.Decides question heard admitted := by
        obtain ⟨heard, left, admitted, hscript, hdecides⟩ := ih next hnext
        refine ⟨reply :: heard, left, admitted, ?_, h hdecides⟩
        rcases hscript with hreplies | ⟨hover, hheard, hleft⟩
        · exact .inl (congrArg (reply :: ·) hreplies)
        · exact .inr ⟨hover, congrArg (reply :: ·) hheard, hleft⟩
      cases reply with
      | «recall» key => exact hmore question hquestion (.recall key)
      | failed => exact hlast (.failed question)
      | closed => exact hlast (.closed question)
      | line text =>
          cases question with
          | line => cases hquestion
          | password userName => exact hlast (.password userName text)
          | userName =>
              cases hwants : login.wantsPassword with
              | false => exact hlast (.onlyUserName text hwants)
              | true => exact hmore (.password (some text)) rfl (.userName text hwants)

/-- Every script after which the terminal is closed decides on the login. -/
theorem exists_hears (login : Login) (replies : List LineReply) (hard : Bool) : ∃ heard left admitted,
    (Script.mk replies true).Delivers hard heard left ∧ login.Hears heard admitted := by
  cases hwants : login.wantsUserName with
  | true =>
      obtain ⟨heard, left, admitted, hscript, h⟩ := login.exists_decides .userName rfl replies hard
      exact ⟨heard, left, admitted, hscript, .userName hwants h⟩
  | false =>
      cases hwants' : login.wantsPassword with
      | true =>
          obtain ⟨heard, left, admitted, hscript, h⟩ := login.exists_decides (.password none) rfl replies hard
          exact ⟨heard, left, admitted, hscript, .password hwants hwants' h⟩
      | false => exact ⟨[], replies, _, .inl rfl, .nothing hwants hwants'⟩

end Login

namespace Terminal

def script (t : Terminal) : Script := ⟨t.replies, t.closed⟩

/-- The terminal with another script. -/
def withScript (t : Terminal) (script : Script) : Terminal :=
  { t with replies := script.replies, closed := script.closed }

variable (t : Terminal) (script : Script)

theorem record_withScript (event : TerminalEvent) :
    (t.withScript script).record event = (t.record event).withScript script := by
  cases event with
  | write text => rcases hevents : t.events with _ | ⟨_ | _, rest⟩ <;> simp [record, withScript, hevents]
  | _ => rfl

theorem write_withScript (text : String) :
    ((t.withScript script).write text).2 = (t.write text).2.withScript script := by
  have hfaults : (t.withScript script).faults = t.faults := rfl
  rw [write, write, hfaults]
  by_cases hfault : t.faults.write = true
  · rw [if_pos hfault, if_pos hfault]
  · rw [if_neg hfault, if_neg hfault]
    dsimp only
    rw [← record_withScript]
    rfl

/-- A reply is taken off the script, and the rest of it is still to come. -/
theorem readLine_withScript {hard : Bool} {reply : LineReply} {heard left : List LineReply}
    (h : script.Delivers hard (reply :: heard) left) :
    ∃ next, (t.withScript script).readLine hard = (some reply, t.withScript next) ∧
      next.closed = script.closed ∧ next.Delivers hard heard left := by
  obtain ⟨replies, closed⟩ := script
  rcases h with hreplies | ⟨hover, hheard, rfl⟩
  · obtain rfl : replies = reply :: (heard ++ left) := hreplies
    exact ⟨⟨heard ++ left, closed⟩, rfl, rfl, .inl rfl⟩
  · rcases replies with _ | ⟨first, rest⟩
    · obtain ⟨rfl, rfl⟩ := List.cons_eq_cons.1 hheard
      refine ⟨⟨[], closed⟩, ?_, rfl, .inl rfl⟩
      change (if hard || closed then some LineReply.closed else none, _) = _
      rw [if_pos hover]
    · obtain ⟨rfl, rfl⟩ := List.cons_eq_cons.1 hheard
      exact ⟨⟨rest, closed⟩, rfl, rfl, .inr ⟨hover, rfl, rfl⟩⟩

end Terminal

namespace Session

variable {s t u : Session} {login : Login} {question : Question}

/-! ### Other replies to come -/

def script (s : Session) : Script := s.world.terminal.script

/-- The session with other replies to come. -/
def withScript (s : Session) (script : Script) : Session :=
  { s with world := { s.world with terminal := s.world.terminal.withScript script } }

/-- The session as it is listed, before anything is written. -/
def listed (s : Session) : Session :=
  { s with world := { s.world with directory := s.world.directory.list s.id } }.updateControl
    (·.advance .notStarted .login)

theorem begin_eq (s : Session) : s.begin =
    (s.listed.writeLines (if s.settings.showSessionId then [s!"Session ID: {s.id}", ""] else [])).beginLogin := by
  rw [begin, listed]
  dsimp only
  split <;> rfl

section WithScript

variable (s) (script : Script)

theorem write_withScript (text : String) : (s.withScript script).write text = (s.write text).withScript script := by
  simp only [write, withScript, Terminal.write_withScript]

theorem writeLine_withScript (text : String) :
    (s.withScript script).writeLine text = (s.writeLine text).withScript script :=
  write_withScript s script _

theorem writeLines_withScript (lines : List String) :
    (s.withScript script).writeLines lines = (s.writeLines lines).withScript script := by
  induction lines generalizing s with
  | nil => rfl
  | cons line lines ih =>
      rw [writeLines, List.foldl_cons, writeLine_withScript]
      exact ih _

theorem judge_withScript (login : Login) (userName password : Option String) :
    (s.withScript script).judge login userName password = (s.judge login userName password).withScript script := by
  rw [judge, judge, writeLine_withScript, writeLine_withScript]
  split <;> rfl

theorem askPassword_withScript (login : Login) (userName : Option String) :
    (s.withScript script).askPassword login userName = (s.askPassword login userName).withScript script := by
  rw [askPassword, askPassword, write_withScript, judge_withScript]
  split <;> rfl

theorem beginLogin_withScript : (s.withScript script).beginLogin = s.beginLogin.withScript script := by
  have hlogin : (s.withScript script).login = s.login := rfl
  rw [beginLogin, beginLogin, hlogin]
  split
  · rfl
  · rw [write_withScript, askPassword_withScript]
    split <;> rfl

theorem begin_withScript : (s.withScript script).begin = s.begin.withScript script := by
  have hlisted : (s.withScript script).listed = s.listed.withScript script := rfl
  rw [begin_eq, begin_eq, hlisted, writeLines_withScript, beginLogin_withScript]
  rfl

theorem ask_withScript (question : Question) (initial : String) :
    (s.withScript script).ask question initial = (s.ask question initial).withScript script := by
  simp only [ask, withScript, Terminal.record_withScript]

theorem answer_withScript (hquestion : question.isLine = false) (reply : LineReply) :
    (s.withScript script).answer question reply = (s.answer question reply).withScript script := by
  have hlogin : (s.withScript script).login = s.login := rfl
  cases question with
  | line => cases hquestion
  | userName =>
      cases reply with
      | line name =>
          rw [answer, answer, hlogin]
          split
          · exact askPassword_withScript s script _ _
          · rfl
      | _ => rfl
  | password userName =>
      cases reply with
      | line password =>
          rw [answer, answer, hlogin, writeLine_withScript]
          split
          · exact judge_withScript _ script _ _ _
          · rfl
      | _ => rfl

theorem history_withScript : (s.withScript script).history = s.history := by
  obtain ⟨id, settings, registry, login, phase, world⟩ := s
  cases phase <;> rfl

theorem save_withScript : (s.withScript script).save = s.save.withScript script := by
  have hsettings : (s.withScript script).settings = s.settings := rfl
  have hfiles : (s.withScript script).world.files = s.world.files := rfl
  rw [save, save, hsettings]
  rcases s.settings.historyFile with _ | path
  · rfl
  · dsimp only
    rw [history_withScript, hfiles]
    split <;> rfl

end WithScript

/-! ### What the dialog leaves alone -/

/-- Only where the session stands and what happens at its terminal differ. -/
def Talks (s t : Session) : Prop :=
  ∃ phase terminal, t = { s with phase, world := { s.world with terminal } }

theorem Talks.refl (s : Session) : s.Talks s := ⟨s.phase, s.world.terminal, rfl⟩

theorem Talks.trans (h : s.Talks t) (h' : t.Talks u) : s.Talks u := by
  obtain ⟨_, _, rfl⟩ := h
  obtain ⟨phase, terminal, rfl⟩ := h'
  exact ⟨phase, terminal, rfl⟩

theorem talks_goto (s : Session) (phase : Phase) : s.Talks (s.goto phase) := ⟨phase, s.world.terminal, rfl⟩

theorem talks_write (s : Session) (text : String) : s.Talks (s.write text) := ⟨s.phase, _, rfl⟩

theorem talks_writeLine (s : Session) (text : String) : s.Talks (s.writeLine text) := ⟨s.phase, _, rfl⟩

theorem talks_writeLines (s : Session) (lines : List String) : s.Talks (s.writeLines lines) := by
  induction lines generalizing s with
  | nil => exact .refl s
  | cons line lines ih => exact (talks_writeLine s line).trans (ih _)

theorem talks_judge (s : Session) (login : Login) (userName password : Option String) :
    s.Talks (s.judge login userName password) := by
  rw [judge]
  split <;> exact (talks_writeLine s _).trans (talks_goto _ _)

theorem talks_askPassword (s : Session) (login : Login) (userName : Option String) :
    s.Talks (s.askPassword login userName) := by
  rw [askPassword]
  split
  · exact (talks_write s _).trans (talks_goto _ _)
  · exact talks_judge s login userName none

theorem talks_beginLogin (s : Session) : s.Talks s.beginLogin := by
  rw [beginLogin]
  split
  · exact talks_goto s _
  · split
    · exact (talks_write s _).trans (talks_goto _ _)
    · exact talks_askPassword s _ none

theorem talks_ask (s : Session) (question : Question) (initial : String) : s.Talks (s.ask question initial) :=
  ⟨_, _, rfl⟩

theorem talks_answer (s : Session) (hquestion : question.isLine = false) (reply : LineReply) :
    s.Talks (s.answer question reply) := by
  cases question with
  | line => cases hquestion
  | userName =>
      cases reply with
      | line name =>
          rw [answer]
          split
          · exact talks_askPassword s _ _
          · exact talks_goto s _
      | _ => exact talks_goto s _
  | password userName =>
      cases reply with
      | line password =>
          rw [answer]
          split
          · exact (talks_writeLine s "").trans (talks_judge _ _ _ _)
          · exact talks_goto s _
      | _ => exact talks_goto s _

/-- A session that talks does not start anything. -/
theorem isIdle_answer (s : Session) (hquestion : question.isLine = false) (reply : LineReply) :
    (s.answer question reply).phase.isIdle = true := by
  cases question with
  | line => cases hquestion
  | userName =>
      cases reply with
      | line name =>
          rw [answer]
          split
          · exact (aside_askPassword s _ _).idle
          · rfl
      | _ => rfl
  | password userName =>
      cases reply with
      | line password =>
          rw [answer]
          split
          · exact (aside_judge _ _ _ _).idle
          · rfl
      | _ => rfl

theorem Talks.environment (h : s.Talks t) : t.world.environment = s.world.environment := by
  obtain ⟨_, _, rfl⟩ := h
  rfl

theorem Talks.history (h : s.Talks t) :
    t.world.control?.map (·.history) = s.world.control?.map (·.history) := by
  obtain ⟨_, _, rfl⟩ := h
  rfl

theorem Talks.isEndingHard (h : s.Talks t) : t.world.isEndingHard = s.world.isEndingHard := by
  obtain ⟨_, _, rfl⟩ := h
  rfl

theorem control?_updateControl {change : SessionControl → SessionControl} (hid : ∀ c, (change c).id = c.id) :
    (s.updateControl change).world.control? = s.world.control?.map change :=
  Standing.control?_update_self (s := s.world.standing) hid

theorem history_updateControl {change : SessionControl → SessionControl} (hid : ∀ c, (change c).id = c.id)
    (hhistory : ∀ c, (change c).history = c.history) :
    (s.updateControl change).world.control?.map (·.history) = s.world.control?.map (·.history) := by
  rw [control?_updateControl hid, Option.map_map]
  congr 1
  funext c
  exact hhistory c

theorem ne_running_of_idle (h : s.phase.isIdle = true) (p : Pipeline) (c : Chain) : s.phase ≠ .running p c := by
  intro hphase
  rw [hphase] at h
  cases h

theorem ne_running_of_ended (h : s.phase = .ended) (p : Pipeline) (c : Chain) : s.phase ≠ .running p c := by
  intro hphase
  cases h.symm.trans hphase

theorem isEndingHard_updateControl {change : SessionControl → SessionControl} (hid : ∀ c, (change c).id = c.id)
    (htoken : ∀ c, (change c).token = c.token) :
    (s.updateControl change).world.isEndingHard = s.world.isEndingHard := by
  rw [World.isEndingHard, control?_updateControl hid, World.isEndingHard]
  rcases s.world.control? with _ | c
  · rfl
  · dsimp only [Option.map_some]
    rw [htoken c]
    rfl

/-! ### Step by step -/

/-- The session comes to another one step by step, and `P` holds on the way from the first to the last. -/
inductive Comes (P : Session → Prop) : Session → Session → Prop
  | refl {s : Session} (h : P s) : Comes P s s
  | step {s t u : Session} (h : P s) (hstep : s.step = some t) (hrest : Comes P t u) : Comes P s u

namespace Comes

variable {P : Session → Prop}

theorem trans (h : Comes P s t) (h' : Comes P t u) : Comes P s u := by
  induction h with
  | refl => exact h'
  | step hs hstep _ ih => exact .step hs hstep (ih h')

/-- A run stays on the way to the last session. -/
theorem run (h : Comes P s t) (hend : t.step = none) (n : Nat) :
    P (s.run n) ∧ ((s.run n).step = none → s.run n = t) := by
  induction h generalizing n with
  | @refl s hs =>
      have hrun : s.run n = s := by
        cases n with
        | zero => rfl
        | succ n => rw [Session.run, hend]
      rw [hrun]
      exact ⟨hs, fun _ => rfl⟩
  | step hs hstep _ ih =>
      cases n with
      | zero => exact ⟨hs, fun hnone => nomatch hstep.symm.trans hnone⟩
      | succ n =>
          rw [Session.run, hstep]
          exact ih hend n

theorem last (h : Comes P s t) : P t := by
  induction h with
  | refl h => exact h
  | step _ _ _ ih => exact ih

theorem exists_run (h : Comes P s t) : ∃ n, s.run n = t := by
  induction h with
  | refl => exact ⟨0, rfl⟩
  | step _ hstep _ ih =>
      obtain ⟨n, hn⟩ := ih
      refine ⟨n + 1, ?_⟩
      rw [Session.run, hstep]
      exact hn

end Comes

/-- None of what the login is there to keep people from has happened: no pipeline runs, the environment and the
history are these, and `left` has not been read. -/
structure Barred (environment : Environment) (history : Option History) (left : List LineReply)
    (s : Session) : Prop where
  idle : ∀ p c, s.phase ≠ .running p c
  environment : s.world.environment = environment
  history : s.world.control?.map (·.history) = history
  unread : ∃ heard, s.script.Delivers s.world.isEndingHard heard left

variable {script next : Script} {heard left : List LineReply} {reply : LineReply} {initial : String}
  {admitted : Bool}

theorem barred_of_talks (h : s.Talks t) (hidle : ∀ p c, t.phase ≠ .running p c)
    (hscript : script.Delivers s.world.isEndingHard heard left) :
    Barred s.world.environment (s.world.control?.map (·.history)) left (t.withScript script) := by
  obtain ⟨phase, terminal, rfl⟩ := h
  exact ⟨hidle, rfl, rfl, heard, hscript⟩

theorem step_of_start (h : s.phase = .start) : s.step = some s.begin := by
  rw [step, h]

theorem step_of_closing (h : s.phase = .closing) :
    s.step = some ((s.updateControl fun c => { c with state := .ending }).goto .saving) := by
  rw [step, h]

theorem step_of_saving (h : s.phase = .saving) :
    s.step = some ((s.save.updateControl fun c => { c with state := .ended }).goto .ended) := by
  rw [step, h]

theorem step_of_ended (h : s.phase = .ended) : s.step = none := by
  rw [step, h]

theorem step_of_ask (h : s.phase = .ask question initial) : s.step = some (s.ask question initial) := by
  rw [step, h]

theorem step_of_await {terminal : Terminal} (h : s.phase = .await question)
    (hread : s.world.terminal.readLine s.world.isEndingHard = (some reply, terminal)) :
    s.step = some ({ s with world := { s.world with terminal } }.answer question reply) := by
  have hstep : s.step = s.await question := by rw [step, h]
  rw [hstep, await, hread]

/-- A question of the dialog is asked and answered. -/
theorem comes_answer (hquestion : question.isLine = false) (hphase : s.phase = .ask question initial)
    (hscript : script.Delivers s.world.isEndingHard (reply :: heard) left)
    (hrest : ∀ next, next.closed = script.closed → next.Delivers s.world.isEndingHard heard left →
      Comes (Barred s.world.environment (s.world.control?.map (·.history)) left)
        (((s.ask question initial).answer question reply).withScript next) t) :
    Comes (Barred s.world.environment (s.world.control?.map (·.history)) left) (s.withScript script) t := by
  obtain ⟨next, hread, hclosed, hnext⟩ :=
    (s.ask question initial).world.terminal.readLine_withScript script hscript
  have hask : (s.withScript script).step = some ((s.ask question initial).withScript script) := by
    rw [step_of_ask (s := s.withScript script) hphase, ask_withScript]
  have hhard : ((s.ask question initial).withScript script).world.isEndingHard = s.world.isEndingHard := rfl
  have hawait : ((s.ask question initial).withScript script).step =
      some (((s.ask question initial).answer question reply).withScript next) := by
    rw [← hhard] at hread
    rw [step_of_await rfl hread, ← answer_withScript _ next hquestion]
    rfl
  have hidle := ne_running_of_idle (congrArg Phase.isIdle hphase)
  have hbarred := barred_of_talks (Talks.refl s) hidle hscript
  have hbarred' := barred_of_talks (talks_ask s question initial) (ne_running_of_idle rfl) hscript
  exact .step hbarred hask (.step hbarred' hawait (hrest next hclosed hnext))

theorem answer_userName (hlogin : s.login = some login) (name : String) :
    s.answer .userName (.line name) = s.askPassword login (some name) := by
  rw [answer, hlogin]

theorem answer_password (hlogin : s.login = some login) (userName : Option String) (password : String) :
    s.answer (.password userName) (.line password) = (s.writeLine "").judge login userName (some password) := by
  rw [answer, hlogin]

theorem answer_recall (s : Session) (hquestion : question.isLine = false) (key : Key) :
    s.answer question (.recall key) = s.goto (.ask question "") := by
  cases question
  case line => cases hquestion
  all_goals rfl

theorem phase_judge (s : Session) (login : Login) (userName password : Option String) :
    (s.judge login userName password).phase =
      if login.admits userName password then .admitted else .closing := by
  rw [judge]
  split <;> rfl

/-- The dialog goes on from the session to its end, hearing these replies, whatever comes after them. -/
def TalksOn (s : Session) (heard : List LineReply) (admitted : Bool) : Prop :=
  ∃ t, s.Talks t ∧ (t.phase = if admitted then .admitted else .closing) ∧
    ∀ {script : Script} {left : List LineReply}, script.Delivers s.world.isEndingHard heard left →
      Comes (Barred s.world.environment (s.world.control?.map (·.history)) left) (s.withScript script)
        (t.withScript ⟨left, script.closed⟩)

/-- The last answer of the dialog. -/
theorem talksOn_last (hquestion : question.isLine = false) (hphase : s.phase = .ask question initial)
    (hlast : ((s.ask question initial).answer question reply).phase = if admitted then .admitted else .closing) :
    s.TalksOn [reply] admitted := by
  have htalks := (talks_ask s question initial).trans (talks_answer _ hquestion reply)
  refine ⟨_, htalks, hlast, fun hscript => comes_answer hquestion hphase hscript fun next hclosed hnext => ?_⟩
  have hidle := ne_running_of_idle (isIdle_answer (s.ask question initial) hquestion reply)
  obtain rfl : next.replies = _ := Script.delivers_nil_iff.1 hnext
  rw [← hclosed]
  exact .refl (barred_of_talks htalks hidle hnext)

theorem talksOn_of_decides (h : login.Decides question heard admitted) (hquestion : question.isLine = false)
    (hlogin : s.login = some login) (hphase : s.phase = .ask question initial) : s.TalksOn heard admitted := by
  induction h generalizing s initial with
  | @«recall» question _ _ key h ih =>
      have hanswer := answer_recall (s.ask question initial) hquestion key
      obtain ⟨t, htalks, hlast, hcomes⟩ :=
        ih hquestion (s := (s.ask question initial).goto (.ask question "")) hlogin rfl
      refine ⟨t, ((talks_ask s question initial).trans (talks_goto _ _)).trans htalks, hlast, fun hscript => ?_⟩
      refine comes_answer hquestion hphase hscript fun next hclosed hnext => ?_
      rw [hanswer, ← hclosed]
      exact hcomes hnext
  | failed question =>
      refine talksOn_last hquestion hphase ?_
      cases question
      case line => cases hquestion
      all_goals rfl
  | closed question =>
      refine talksOn_last hquestion hphase ?_
      cases question
      case line => cases hquestion
      all_goals rfl
  | userName name hwants h ih =>
      have hanswer : (s.ask .userName initial).answer .userName (.line name) =
          ((s.ask .userName initial).write "Password: ").goto (.ask (.password (some name)) "") := by
        rw [answer_userName (s := s.ask _ initial) hlogin, askPassword, if_pos hwants]
      obtain ⟨t, htalks, hlast, hcomes⟩ := ih rfl
        (s := ((s.ask .userName initial).write "Password: ").goto (.ask (.password (some name)) "")) hlogin rfl
      refine ⟨t, (((talks_ask s _ initial).trans (talks_write _ _)).trans (talks_goto _ _)).trans htalks, hlast,
        fun hscript => ?_⟩
      refine comes_answer hquestion hphase hscript fun next hclosed hnext => ?_
      rw [hanswer, ← hclosed]
      exact hcomes hnext
  | onlyUserName name hwants =>
      refine talksOn_last hquestion hphase ?_
      rw [answer_userName (s := s.ask _ initial) hlogin, askPassword, if_neg (by rw [hwants]; exact Bool.false_ne_true), phase_judge]
  | password userName password =>
      refine talksOn_last hquestion hphase ?_
      rw [answer_password (s := s.ask _ initial) hlogin, phase_judge]

/-! ### From the start to the end -/

theorem listed_keeps (s : Session) :
    s.listed.world.control?.map (·.history) = s.world.control?.map (·.history) ∧
      s.listed.world.isEndingHard = s.world.isEndingHard := by
  have hadvance (c : SessionControl) : (c.advance .notStarted .login).id = c.id ∧
      (c.advance .notStarted .login).token = c.token ∧ (c.advance .notStarted .login).history = c.history := by
    rw [SessionControl.advance]
    split <;> exact ⟨rfl, rfl, rfl⟩
  exact ⟨history_updateControl (fun c => (hadvance c).1) fun c => (hadvance c).2.2,
    isEndingHard_updateControl (fun c => (hadvance c).1) fun c => (hadvance c).2.1⟩

theorem talks_begin (s : Session) : s.listed.Talks s.begin := by
  rw [begin_eq]
  exact (talks_writeLines _ _).trans (talks_beginLogin _)

theorem begin_keeps (s : Session) : s.begin.world.environment = s.world.environment ∧
    s.begin.world.control?.map (·.history) = s.world.control?.map (·.history) ∧
      s.begin.world.isEndingHard = s.world.isEndingHard :=
  ⟨(talks_begin s).environment, (talks_begin s).history.trans (listed_keeps s).1,
    (talks_begin s).isEndingHard.trans (listed_keeps s).2⟩

/-- The dialog begins with a question. -/
theorem talksOn_ask {text : String} (h : login.Decides question heard admitted) (hquestion : question.isLine = false)
    (hlogin : s.login = some login) : ((s.write text).goto (.ask question "")).TalksOn heard admitted :=
  talksOn_of_decides h hquestion hlogin rfl

theorem talksOn_beginLogin (h : login.Hears heard admitted) (hlogin : s.login = some login) :
    s.beginLogin.TalksOn heard admitted := by
  rw [beginLogin, hlogin]
  dsimp only
  cases h with
  | userName hwants h =>
      rw [if_pos hwants]
      exact talksOn_ask h rfl hlogin
  | password hwants hwants' h =>
      rw [if_neg (by rw [hwants]; exact Bool.false_ne_true), askPassword, if_pos hwants']
      exact talksOn_ask h rfl hlogin
  | nothing hwants hwants' =>
      rw [if_neg (by rw [hwants]; exact Bool.false_ne_true), askPassword, if_neg (by rw [hwants']; exact Bool.false_ne_true)]
      refine ⟨_, .refl _, phase_judge s login none none, fun {script left} hscript => ?_⟩
      obtain rfl := Script.delivers_nil_iff.1 hscript
      exact .refl (barred_of_talks (.refl _) (ne_running_of_idle (aside_judge s login none none).idle) hscript)

theorem exists_comes_start (h : login.Hears heard admitted) (hlogin : s.login = some login)
    (hphase : s.phase = .start) :
    ∃ t : Session, (t.phase = if admitted then .admitted else .closing) ∧
      t.world.environment = s.world.environment ∧
      t.world.control?.map (·.history) = s.world.control?.map (·.history) ∧
      ∀ {script : Script} {left : List LineReply}, script.Delivers s.world.isEndingHard heard left →
        Comes (Barred s.world.environment (s.world.control?.map (·.history)) left) (s.withScript script)
          (t.withScript ⟨left, script.closed⟩) := by
  have hbegun (script : Script) : (s.withScript script).step = some (s.begin.withScript script) := by
    rw [step_of_start (s := s.withScript script) hphase, begin_withScript]
  obtain ⟨greeted, hgreeted, hbegin⟩ : ∃ greeted, s.listed.Talks greeted ∧ s.begin = greeted.beginLogin :=
    ⟨_, talks_writeLines s.listed _, begin_eq s⟩
  have hlogin' : greeted.login = some login := by
    obtain ⟨_, _, rfl⟩ := hgreeted
    exact hlogin
  obtain ⟨t, htalks, hlast, hcomes⟩ := hbegin ▸ talksOn_beginLogin h hlogin'
  obtain ⟨henvironment, hhistory, hhard⟩ := begin_keeps s
  rw [henvironment, hhistory, hhard] at hcomes
  refine ⟨t, hlast, htalks.environment.trans henvironment, htalks.history.trans hhistory, fun hscript => ?_⟩
  have hidle := ne_running_of_idle (congrArg Phase.isIdle hphase)
  exact .step (barred_of_talks (.refl s) hidle hscript) (hbegun _) (hcomes hscript)

/-- A session that is being closed saves its history and ends. -/
theorem exists_comes_closing (hphase : s.phase = .closing) : ∃ t : Session, t.phase = .ended ∧
    ∀ script : Script, Comes (Barred s.world.environment (s.world.control?.map (·.history)) script.replies)
      (s.withScript script) (t.withScript script) := by
  let closed := (s.updateControl fun c => { c with state := .ending }).goto .saving
  let ended := (closed.save.updateControl fun c => { c with state := .ended }).goto .ended
  have hclosed : closed.world.control?.map (·.history) = s.world.control?.map (·.history) :=
    history_updateControl (fun _ => rfl) fun _ => rfl
  have hsave : closed.save.world.environment = s.world.environment ∧
      closed.save.world.control?.map (·.history) = closed.world.control?.map (·.history) := by
    rw [save]
    split
    · exact ⟨rfl, rfl⟩
    · split <;> exact ⟨rfl, rfl⟩
  have hended : ended.world.control?.map (·.history) = closed.save.world.control?.map (·.history) :=
    history_updateControl (fun _ => rfl) fun _ => rfl
  refine ⟨ended, rfl, fun script => ?_⟩
  have hbarred (t : Session) (hidle : ∀ p c, t.phase ≠ .running p c)
      (henvironment : t.world.environment = s.world.environment)
      (hhistory : t.world.control?.map (·.history) = s.world.control?.map (·.history)) :
      Barred s.world.environment (s.world.control?.map (·.history)) script.replies (t.withScript script) :=
    ⟨hidle, henvironment, hhistory, [], .inl rfl⟩
  have hclose : (s.withScript script).step = some (closed.withScript script) :=
    step_of_closing hphase
  have hend : (closed.withScript script).step = some (ended.withScript script) := by
    rw [step_of_saving (s := closed.withScript script) rfl, save_withScript]
    rfl
  exact .step (hbarred s (ne_running_of_idle (congrArg Phase.isIdle hphase)) rfl rfl) hclose
    (.step (hbarred closed (ne_running_of_idle rfl) rfl hclosed) hend
      (.refl (hbarred ended (ne_running_of_ended rfl) hsave.1 (hended.trans (hsave.2.trans hclosed)))))

/-! ### Before the first prompt -/

theorem history_of_ne_running (h : ∀ p c, s.phase ≠ .running p c) :
    s.history = (s.world.control?.map (·.history)).getD {} := by
  have hcurrent : s.current = s.world := by
    rw [current]
    split
    · next p c hphase => exact absurd hphase (h p c)
    · rfl
  rw [history, hcurrent]

theorem ne_running_of_isDialog (h : s.phase.isDialog = true) (p : Pipeline) (c : Chain) :
    s.phase ≠ .running p c := by
  intro hphase
  rw [hphase] at h
  cases h

theorem Talks.history_eq (h : s.Talks t) (hs : ∀ p c, s.phase ≠ .running p c)
    (ht : ∀ p c, t.phase ≠ .running p c) : t.history = s.history := by
  rw [history_of_ne_running hs, history_of_ne_running ht, h.history]

theorem Barred.history_eq {environment : Environment} (hs : ∀ p c, s.phase ≠ .running p c)
    (h : Barred environment (s.world.control?.map (·.history)) left t) : t.history = s.history := by
  rw [history_of_ne_running hs, history_of_ne_running h.idle, h.history]

/-- What is heard in the dialog is not remembered. -/
theorem history_dialog (h : s.phase.isDialog = true) (hstep : s.step = some t) : t.history = s.history := by
  have hidle := ne_running_of_isDialog h
  rw [step] at hstep
  rcases hphase : s.phase with _ | ⟨question, initial⟩ | question | _ | _ | ⟨p, c⟩ | _ | _ | _ <;>
    rw [hphase] at h hstep
  case start =>
    obtain rfl := Option.some_inj.1 hstep
    have hbegin : s.begin.phase.isIdle = true := by
      rw [begin_eq]
      exact (aside_beginLogin _).idle
    rw [history_of_ne_running hidle, history_of_ne_running (ne_running_of_idle hbegin), (begin_keeps s).2.1]
  case ask =>
    obtain rfl := Option.some_inj.1 hstep
    exact (talks_ask s question initial).history_eq hidle (ne_running_of_idle rfl)
  case await =>
    have hquestion : question.isLine = false := by simpa [Phase.isDialog] using h
    dsimp only at hstep
    rw [await] at hstep
    split at hstep
    · cases hstep
    · next reply terminal _ =>
      obtain rfl := Option.some_inj.1 hstep
      have hread : s.Talks { s with world := { s.world with terminal } } := ⟨s.phase, terminal, rfl⟩
      exact (hread.trans (talks_answer _ hquestion reply)).history_eq hidle
        (ne_running_of_idle (isIdle_answer _ hquestion reply))
  all_goals cases h

theorem run_succ (s : Session) (n : Nat) : s.run (n + 1) = (s.run n).step.getD (s.run n) := by
  induction n generalizing s with
  | zero =>
      simp only [run]
      cases s.step <;> rfl
  | succ n ih =>
      rw [run, run]
      cases hstep : s.step with
      | none => rw [hstep]; rfl
      | some t => exact ih t

/-- No session remembers what is entered in its dialog. -/
theorem history_run_dialog (s : Session) (n : Nat) (h : ∀ m < n, (s.run m).phase.isDialog = true) :
    (s.run n).history = s.history := by
  induction n with
  | zero => rfl
  | succ n ih =>
      have hbefore := ih fun m hm => h m (Nat.lt_succ_of_lt hm)
      rw [run_succ]
      cases hstep : (s.run n).step with
      | none => exact hbefore
      | some t => exact (history_dialog (h n (Nat.lt_succ_self n)) hstep).trans hbefore

/-- The login is a gate.  Every script after which the terminal is closed decides on it.  Those who are not
admitted come to the end of the session: on the way no pipeline runs, the environment and the history stay
what they were, and nothing is read after the replies of the dialog.  The end is the same for all scripts that
begin with these replies, but for what is left of them.  And no session remembers what is entered in its
dialog. -/
theorem gated_by_login (hphase : s.phase = .start) (hlogin : s.login = some login) :
    (∀ replies, ∃ heard left admitted,
      (Script.mk replies true).Delivers s.world.isEndingHard heard left ∧ login.Hears heard admitted) ∧
    (∀ heard, login.Hears heard false → ∃ last : Session,
      last.phase = .ended ∧ last.world.environment = s.world.environment ∧ last.history = s.history ∧
      ∀ (script : Script) (left : List LineReply), script.Delivers s.world.isEndingHard heard left →
        (∃ n, (s.withScript script).run n = last.withScript ⟨left, script.closed⟩) ∧
        ∀ n u, (s.withScript script).run n = u →
          (∀ p c, u.phase ≠ .running p c) ∧
          u.world.environment = s.world.environment ∧ u.history = s.history ∧
          (∃ more, u.script.Delivers u.world.isEndingHard more left) ∧
          (u.phase = .ended → u = last.withScript ⟨left, script.closed⟩)) ∧
    ∀ (t : Session) (n : Nat), (∀ m < n, (t.run m).phase.isDialog = true) → (t.run n).history = t.history := by
  refine ⟨fun replies => login.exists_hears replies _, fun heard hheard => ?_, history_run_dialog⟩
  obtain ⟨t, hclosing, henvironment, hhistory, htalk⟩ := exists_comes_start hheard hlogin hphase
  obtain ⟨last, hended, hclose⟩ := exists_comes_closing (s := t) hclosing
  rw [henvironment, hhistory] at hclose
  have hstart := ne_running_of_idle (congrArg Phase.isIdle hphase)
  have hlast := (hclose ⟨[], true⟩).last
  have hkept : last.history = s.history := (history_withScript last _).symm.trans (hlast.history_eq hstart)
  refine ⟨last, hended, hlast.environment, hkept, fun script left hscript => ?_⟩
  have hcomes := (htalk hscript).trans (hclose ⟨left, script.closed⟩)
  have hnone : (last.withScript ⟨left, script.closed⟩).step = none := step_of_ended hended
  refine ⟨hcomes.exists_run, fun n u hu => ?_⟩
  obtain ⟨hbarred, hover⟩ := hcomes.run hnone n
  rw [hu] at hbarred hover
  exact ⟨hbarred.idle, hbarred.environment, hbarred.history_eq hstart, hbarred.unread,
    fun hphase => hover (step_of_ended hphase)⟩

/-- A stranger who enters a wrong password does not get to a line, whatever it would have been. -/
theorem gated_by_login_of_stranger : ∃ s last : Session,
    (Host.openSession ⟨{}, {}, ⟨.fresh [] "/", none, {}, {}, {}⟩, []⟩ {}
      (some { admits := fun _ password => password == some "sesame" })).sessions = [s] ∧
    last.phase = .ended ∧ last.history = s.history ∧ ∀ line, ∃ n,
      (s.withScript ⟨[.recall .up, .line "ada", .line "guess", .line line], true⟩).run n =
        last.withScript ⟨[.line line], true⟩ := by
  let login : Login := { admits := fun _ password => password == some "sesame" }
  have hheard : login.Hears [.recall .up, .line "ada", .line "guess"] false :=
    .userName rfl (.recall .up (.userName "ada" rfl (.password (some "ada") "guess")))
  obtain ⟨s, hsessions, hphase, hlogin⟩ : ∃ s : Session,
      (Host.openSession ⟨{}, {}, ⟨.fresh [] "/", none, {}, {}, {}⟩, []⟩ {} (some login)).sessions = [s] ∧
        s.phase = .start ∧ s.login = some login := ⟨_, rfl, rfl, rfl⟩
  obtain ⟨last, hended, -, hhistory, hruns⟩ := (gated_by_login hphase hlogin).2.1 _ hheard
  exact ⟨s, last, hsessions, hended, hhistory, fun line => (hruns _ _ (.inl rfl)).1⟩

end Session

end CommandShell
