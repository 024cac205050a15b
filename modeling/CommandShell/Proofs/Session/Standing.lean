import CommandShell.Proofs.Cancellation.Child
import CommandShell.World

/-!
What a world has to do with sessions.  Main statement: as long as sessions are only asked to end and tokens
only cancelled, each session keeps its token, its state does not go back, and no link between tokens is lost.
-/

namespace CommandShell

open Relation

/-- The place of a state in the order of a session's life. -/
def SessionState.rank : SessionState → Nat
  | .notStarted => 0
  | .login => 1
  | .running => 2
  | .ending => 3
  | .ended => 4

theorem SessionState.rank_le_ended (state : SessionState) : state.rank ≤ ended.rank := by
  cases state <;> decide

theorem SessionState.eq_ended_of_rank_le {state : SessionState} (h : ended.rank ≤ state.rank) : state = ended := by
  cases state
  case ended => rfl
  all_goals exact absurd h (by decide)

namespace SessionControl

variable {c d e : SessionControl}

/-- The second one is of the same session at a later time, and the session has not ended meanwhile. -/
structure Later (c d : SessionControl) : Prop where
  id : d.id = c.id
  token : d.token = c.token
  rank : c.state.rank ≤ d.state.rank
  ended : d.state = .ended → c.state = .ended

theorem Later.refl (c : SessionControl) : c.Later c := ⟨rfl, rfl, Nat.le_refl _, fun h => h⟩

theorem Later.trans (h : c.Later d) (h' : d.Later e) : c.Later e :=
  ⟨h'.id.trans h.id, h'.token.trans h.token, Nat.le_trans h.rank h'.rank, fun he => h.ended (h'.ended he)⟩

theorem later_of_state {state : SessionState} (hrank : c.state.rank ≤ state.rank) (hended : state ≠ .ended) :
    c.Later { c with state } := ⟨rfl, rfl, hrank, fun h => absurd h hended⟩

theorem later_advance {before after : SessionState} (hrank : before.rank ≤ after.rank) (hended : after ≠ .ended)
    (c : SessionControl) : c.Later (c.advance before after) := by
  rw [advance]
  split
  · next h => exact later_of_state (h ▸ hrank) hended
  · exact .refl c

theorem rank_le_ending (h : c.state ≠ .ended) : c.state.rank ≤ SessionState.ending.rank := by
  revert h
  cases c.state <;> decide

theorem later_requestEnd (c : SessionControl) : c.Later c.requestEnd := by
  rw [requestEnd]
  split
  · exact .refl c
  · next h => exact later_of_state (rank_le_ending (by simpa [isEnded] using h)) nofun

theorem endRequested_requestEnd (c : SessionControl) : c.requestEnd.endRequested = true := by
  rw [requestEnd]
  split
  · next h => simp_all [endRequested, isEnded]
  · rfl

end SessionControl

/-- What concerns sessions: the number of this one, what others see of each, and the tokens. -/
structure Standing where
  session : Nat
  controls : List SessionControl
  tokens : CancelTree

def World.standing (w : World) : Standing := ⟨w.session, w.directory.controls, w.tokens⟩

namespace Standing

def control? (s : Standing) : Option SessionControl := s.controls.find? (·.id == s.session)

def update (s : Standing) (id : Nat) (change : SessionControl → SessionControl) : Standing :=
  { s with controls := s.controls.map fun c => if c.id = id then change c else c }

def cancel (s : Standing) (token : TokenId) : Standing := { s with tokens := (s.tokens.cancel token).1 }

/-- A session is asked to end, or a token is cancelled. -/
inductive Call (s : Standing) : Standing → Prop
  | requestEnd (id : Nat) : s.Call (s.update id SessionControl.requestEnd)
  | cancel (token : TokenId) : s.Call (s.cancel token)

/-- Some sessions have been asked to end, and some tokens have been cancelled. -/
abbrev Onward : Standing → Standing → Prop := ReflTransGen Call

/-- The session is there and so is its token. -/
structure Sound (s : Standing) (token : TokenId) : Prop where
  control : ∃ c, s.control? = some c ∧ c.token = token
  sturdy : s.tokens.Sturdy
  token : (s.tokens.get? token).isSome = true

variable {s t : Standing} {token : TokenId} {id : Nat} {change : SessionControl → SessionControl}

theorem control?_update (hid : ∀ c, (change c).id = c.id) : (s.update id change).control? =
    s.control?.map fun c => if c.id = id then change c else c := by
  have hsame : ((·.id == s.session) ∘ fun c => if c.id = id then change c else c) = (·.id == s.session) := by
    funext c
    by_cases h : c.id = id
    · simp [h, hid]
    · simp [h]
  simp only [control?, update, List.find?_map, hsame]

theorem id_of_control? {c : SessionControl} (h : s.control? = some c) : c.id = s.session := by
  simpa using List.find?_some h

theorem control?_update_self (hid : ∀ c, (change c).id = c.id) :
    (s.update s.session change).control? = s.control?.map change := by
  rw [control?_update hid]
  rcases hc : s.control? with _ | c
  · rfl
  · rw [Option.map_some, if_pos (id_of_control? hc), Option.map_some]

namespace Onward

theorem session (h : s.Onward t) : t.session = s.session := by
  induction h with
  | refl => rfl
  | tail _ hcall ih => cases hcall <;> exact ih

theorem control (h : s.Onward t) {c : SessionControl} (hc : s.control? = some c) :
    ∃ d, t.control? = some d ∧ c.Later d := by
  induction h with
  | refl => exact ⟨c, hc, .refl c⟩
  | tail _ hcall ih =>
      obtain ⟨d, hd, hlater⟩ := ih
      cases hcall with
      | requestEnd id =>
          refine ⟨_, (control?_update fun c => c.later_requestEnd.id).trans (by rw [hd, Option.map_some]), ?_⟩
          split
          · exact hlater.trans d.later_requestEnd
          · exact hlater
      | cancel token => exact ⟨d, hd, hlater⟩

theorem tokens (h : s.Onward t) : s.tokens.Later t.tokens := by
  induction h with
  | refl => exact .refl _
  | tail _ hcall ih =>
      cases hcall with
      | requestEnd id => exact ih
      | cancel token => exact ih.trans (CancelTree.later_cancel _ token)

theorem alike (h : s.Onward t) : s.tokens.Alike t.tokens := by
  induction h with
  | refl => exact .refl _
  | tail _ hcall ih =>
      cases hcall with
      | requestEnd id => exact ih
      | cancel token => exact ih.trans (CancelTree.alike_runAll _ _)

theorem sturdy (h : s.Onward t) (hs : s.tokens.Sturdy) : t.tokens.Sturdy := by
  induction h with
  | refl => exact hs
  | tail _ hcall ih =>
      cases hcall with
      | requestEnd id => exact ih
      | cancel token => exact ih.cancel token

theorem sound (h : s.Onward t) (hs : s.Sound token) : t.Sound token := by
  obtain ⟨c, hc, rfl⟩ := hs.control
  obtain ⟨d, hd, hlater⟩ := h.control hc
  exact ⟨⟨d, hd, hlater.token⟩, h.sturdy hs.sturdy, (h.alike.isSome_get? _).trans hs.token⟩

end Onward

/-- Nothing that concerns a session with that token goes back. -/
structure Passes (s : Standing) (token : TokenId) (t : Standing) : Prop where
  session : t.session = s.session
  control : ∀ {c}, s.control? = some c → ∃ d, t.control? = some d ∧ c.Later d
  sound : t.Sound token
  cancelled : s.tokens.isCancelled token = true → t.tokens.isCancelled token = true

namespace Passes

variable {r : Standing}

theorem refl (h : s.Sound token) : s.Passes token s := ⟨rfl, fun {c} hc => ⟨c, hc, .refl c⟩, h, fun h => h⟩

theorem trans (h : s.Passes token t) (h' : t.Passes token r) : s.Passes token r := by
  refine ⟨h'.session.trans h.session, fun hc => ?_, h'.sound, fun hs => h'.cancelled (h.cancelled hs)⟩
  obtain ⟨d, hd, hlater⟩ := h.control hc
  obtain ⟨e, he, hlater'⟩ := h'.control hd
  exact ⟨e, he, hlater.trans hlater'⟩

theorem of_onward (h : s.Onward t) (hs : s.Sound token) : s.Passes token t :=
  ⟨h.session, h.control, h.sound hs, h.tokens token⟩

end Passes

theorem Sound.update (hs : s.Sound token) (hid : ∀ c, (change c).id = c.id)
    (htoken : ∀ c, (change c).token = c.token) : (s.update s.session change).Sound token := by
  obtain ⟨c, hc, rfl⟩ := hs.control
  refine ⟨⟨change c, ?_, htoken c⟩, hs.sturdy, hs.token⟩
  rw [control?_update_self hid, hc, Option.map_some]

theorem passes_update (hs : s.Sound token) (hid : ∀ c, (change c).id = c.id)
    (htoken : ∀ c, (change c).token = c.token) (hlater : ∀ c, s.control? = some c → c.Later (change c)) :
    s.Passes token (s.update s.session change) := by
  refine ⟨rfl, fun {c} hc => ⟨change c, ?_, hlater c hc⟩, hs.update hid htoken, fun h => h⟩
  rw [control?_update_self hid, hc, Option.map_some]

end Standing

namespace World

variable {w v : World} {id : FileId}

theorem tokens_eq (h : v.standing = w.standing) : v.tokens = w.tokens := congrArg Standing.tokens h

theorem onward_of_eq (h : v.standing = w.standing) : w.standing.Onward v.standing := by
  rw [h]

theorem onward_cancel (w : World) (token : TokenId) : w.standing.Onward (w.cancel token).standing :=
  .single (.cancel token)

/-- The first half of ending a session. -/
def requestEnd (w : World) (id : Nat) : World :=
  { w with directory := w.directory.update id SessionControl.requestEnd }

/-- The other half of ending a session hard. -/
def cancelSession (w : World) (id : Nat) : World :=
  match w.directory.get? id with
  | some control => w.cancel control.token
  | none => w

theorem endSession_soft (w : World) (id : Nat) : w.endSession id false = w.requestEnd id := by
  rw [endSession]
  split <;> rfl

theorem endSession_hard (w : World) (id : Nat) : w.endSession id true = (w.requestEnd id).cancelSession id := by
  rcases hget : (w.directory.update id SessionControl.requestEnd).get? id with _ | control
  · simp only [endSession, cancelSession, requestEnd, hget]
  · simp only [endSession, cancelSession, requestEnd, hget, if_true]

theorem onward_requestEnd (w : World) (id : Nat) : w.standing.Onward (w.requestEnd id).standing :=
  .single (.requestEnd id)

theorem onward_cancelSession (w : World) (id : Nat) : w.standing.Onward (w.cancelSession id).standing := by
  rw [cancelSession]
  split
  · exact onward_cancel _ _
  · exact .refl

theorem onward_endSession (w : World) (id : Nat) (hard : Bool) :
    w.standing.Onward (w.endSession id hard).standing := by
  cases hard with
  | false => exact w.endSession_soft id ▸ w.onward_requestEnd id
  | true => exact w.endSession_hard id ▸ (w.onward_requestEnd id).trans (onward_cancelSession _ id)

theorem control?_cancelSession (w : World) (id : Nat) : (w.cancelSession id).control? = w.control? := by
  rw [cancelSession]
  split <;> rfl

section Sound

variable {token : TokenId}

theorem exists_control?_requestEnd (hw : w.standing.Sound token) :
    ∃ c, (w.requestEnd w.session).control? = some c ∧ c.endRequested = true := by
  obtain ⟨c, hc, -⟩ := hw.control
  refine ⟨c.requestEnd, ?_, c.endRequested_requestEnd⟩
  have hcontrol := Standing.control?_update_self (s := w.standing) fun c => c.later_requestEnd.id
  rw [hc, Option.map_some] at hcontrol
  exact hcontrol

theorem isCancelled_cancelSession (hw : w.standing.Sound token) :
    (w.cancelSession w.session).isCancelled token = true := by
  obtain ⟨c, hc, rfl⟩ := hw.control
  have hget : w.directory.get? w.session = some c := hc
  rw [cancelSession, hget]
  exact CancelTree.isCancelled_of_mem (List.mem_singleton_self _) hw.token

theorem isEndingHard_eq (hw : w.standing.Sound token) : w.isEndingHard = w.isCancelled token := by
  obtain ⟨c, hc, rfl⟩ := hw.control
  have hget : w.control? = some c := hc
  rw [isEndingHard, hget]
  rfl

end Sound

theorem onward_readKeys (w : World) : w.standing.Onward w.readKeys.2.standing := by
  rw [readKeys]
  dsimp only
  split
  · exact onward_cancel _ _
  · exact .refl

@[simp] theorem standing_withFile (w : World) (id : FileId)
    (change : OpenFile → FileSystem → OpenFile × FileSystem) :
    (w.withFile id change).standing = w.standing := by
  rw [withFile]
  split <;> rfl

@[simp] theorem standing_writeFile (w : World) (id : FileId) (text : String) :
    (w.writeFile id text).standing = w.standing := standing_withFile w id _

@[simp] theorem standing_flushFile (w : World) (id : FileId) : (w.flushFile id).standing = w.standing :=
  standing_withFile w id _

theorem standing_flushFiles (w : World) (files : List FileId) :
    (files.foldl flushFile w).standing = w.standing := by
  induction files generalizing w with
  | nil => rfl
  | cons file files ih => rw [List.foldl_cons, ih, standing_flushFile]

theorem standing_makeFoldersFor {path : String} (h : w.makeFoldersFor path = .ok v) :
    v.standing = w.standing := by
  rw [makeFoldersFor] at h
  split at h
  · cases h
    rfl
  · next folder _ =>
      split at h
      · cases h
        rfl
      · rcases hmake : w.files.makeFolders folder with fault | files
        · rw [hmake] at h
          cases h
        · rw [hmake] at h
          cases h
          rfl

theorem standing_openFile {path : String} {append : Bool} (h : w.openFile path append = .ok (id, v)) :
    v.standing = w.standing := by
  rw [openFile] at h
  split at h <;> cases h
  rfl

end World

end CommandShell
