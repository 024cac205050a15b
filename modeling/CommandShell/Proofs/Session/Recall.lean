import CommandShell.Proofs.History
import CommandShell.Proofs.Session.Admission

/-!
The walk through what a history remembers.  Main statement: every key leads up or down by one place between the
oldest line and the empty one behind the latest, and the line that is there is shown; a prompt offers it to be
edited.
-/

namespace CommandShell

/-- Where a key leads from a place among `n` lines and the empty one behind them. -/
def Key.placeAfter (n p : Nat) : Key → Nat
  | .up => p - 1
  | .down => min (p + 1) n
  | _ => p

/-- Where keys lead that are pressed one after another. -/
def placeAfterAll (n p : Nat) (keys : List Key) : Nat := keys.foldl (fun p key => key.placeAfter n p) p

theorem placeAfterAll_le {n p : Nat} (h : p ≤ n) (keys : List Key) : placeAfterAll n p keys ≤ n := by
  induction keys using List.reverseRecOn with
  | nil => exact h
  | append_singleton keys key ih =>
      rw [placeAfterAll, List.foldl_concat, ← placeAfterAll]
      cases key with
      | up => exact (Nat.sub_le _ _).trans ih
      | down => exact Nat.min_le_right _ _
      | _ => exact ih

theorem placeAfterAll_up (n p k : Nat) : placeAfterAll n p (List.replicate k .up) = p - k := by
  induction k generalizing p with
  | zero => rfl
  | succ k ih =>
      rw [List.replicate_succ, placeAfterAll, List.foldl_cons, ← placeAfterAll, ih, Key.placeAfter]
      omega

namespace Cursor

variable {c : Cursor} {h : History}

/-- Moves by keys, one after another. -/
def stepAll (c : Cursor) (h : History) (keys : List Key) : Cursor := keys.foldl (·.step h) c

theorem index_step (hle : c.index ≤ h.entries.length) (key : Key) :
    (c.step h key).index = key.placeAfter h.entries.length c.index := by
  cases hentries : h.entries with
  | nil =>
      have hzero : c.index = 0 := by simpa [hentries] using hle
      have hstays : c.step h key = c := by simp [step.eq_def, hentries]
      rw [hstays, hzero]
      cases key <;> simp [Key.placeAfter]
  | cons entry rest =>
      rw [hentries] at hle
      cases key with
      | down =>
          simp only [step, hentries, List.isEmpty_cons, Bool.false_eq_true, if_false, Key.placeAfter]
          split
          · next hlt => exact (Nat.min_eq_left hlt).symm
          · next hge => omega
      | _ => simp [step.eq_def, hentries, Key.placeAfter]

theorem index_stepAll (hle : c.index ≤ h.entries.length) (keys : List Key) :
    (c.stepAll h keys).index = placeAfterAll h.entries.length c.index keys := by
  induction keys using List.reverseRecOn with
  | nil => rfl
  | append_singleton keys key ih =>
      have hbound : (c.stepAll h keys).index ≤ h.entries.length := ih ▸ placeAfterAll_le hle keys
      rw [stepAll, List.foldl_concat, ← stepAll, index_step hbound, ih]
      rw [placeAfterAll, placeAfterAll, List.foldl_concat]

theorem line_of_lt (hlt : c.index < h.entries.length) : h.entries[c.index]? = some (c.line h) := by
  rw [line, List.getElem?_eq_getElem hlt]
  rfl

theorem line_of_ge (hge : h.entries.length ≤ c.index) : c.line h = "" := by
  rw [line, List.getElem?_eq_none hge]
  rfl

end Cursor

/-! ### The walk -/

namespace History

variable {m k : Nat} {lines : List String} {h : History}

/-- Where keys lead that are pressed at a prompt. -/
def walk (h : History) (keys : List Key) : Cursor := (Cursor.new h).stepAll h keys

theorem index_walk (h : History) (keys : List Key) :
    (h.walk keys).index = placeAfterAll h.entries.length h.entries.length keys :=
  Cursor.index_stepAll (Nat.le_refl _) keys

theorem index_walk_le (h : History) (keys : List Key) : (h.walk keys).index ≤ h.entries.length :=
  index_walk h keys ▸ placeAfterAll_le (Nat.le_refl _) keys

theorem line_walk (h : History) (keys : List Key) :
    (h.entries ++ [""])[(h.walk keys).index]? = some ((h.walk keys).line h) := by
  rcases (index_walk_le h keys).lt_or_eq with hlt | hend
  · rw [List.getElem?_append_left hlt, Cursor.line_of_lt hlt]
  · rw [Cursor.line_of_ge hend.ge, hend, List.getElem?_append_right (Nat.le_refl _), Nat.sub_self]
    rfl

/-- Presses of Up count the lines from the latest one back. -/
theorem line_walk_up (hpos : 1 ≤ k) (hle : k ≤ h.entries.length) :
    h.entries.reverse[k - 1]? = some ((h.walk (List.replicate k .up)).line h) := by
  have hindex : (h.walk (List.replicate k .up)).index = h.entries.length - 1 - (k - 1) := by
    rw [index_walk, placeAfterAll_up]
    omega
  rw [List.getElem?_reverse (by omega), ← hindex]
  exact Cursor.line_of_lt (by omega)

theorem reverse_remembered (m : Nat) (lines : List String) :
    (remembered m lines).reverse = (notable lines).dedup.reverse.take m := by
  rw [remembered, lastOf, List.take_reverse]

/-- Keys walk through the lines that have been entered, as trimmed lines, each at its last place, `m` at most. -/
theorem recall_exact (m : Nat) (lines : List String) (keys : List Key) :
    let h := (new m).recordAll lines
    let n := (remembered m lines).length
    h.entries = remembered m lines ∧
      (h.walk keys).index = placeAfterAll n n keys ∧ (h.walk keys).index ≤ n ∧
      (remembered m lines ++ [""])[(h.walk keys).index]? = some ((h.walk keys).line h) ∧
      ∀ k, 1 ≤ k → k ≤ n →
        (notable lines).dedup.reverse[k - 1]? = some ((h.walk (List.replicate k .up)).line h) := by
  intro h n
  have hentries : h.entries = remembered m lines := congrArg entries (recordAll_new m lines)
  have hlength : h.entries.length = n := congrArg List.length hentries
  refine ⟨hentries, hlength ▸ index_walk h keys, hlength ▸ index_walk_le h keys, hentries ▸ line_walk h keys, ?_⟩
  intro k hpos hle
  have hm : n ≤ m := length_remembered_le m lines
  rw [← line_walk_up hpos (hlength ▸ hle), hentries, reverse_remembered, List.getElem?_take_of_lt (by omega)]

/-- Of four lines two are remembered; Up stops at the older one. -/
theorem recall_exact_of_repeated :
    let h := (new 2).recordAll ["ls", "cd", " ls ", "pwd"]
    let keys : List Key := [.up, .up, .up, .left]
    remembered 2 ["ls", "cd", " ls ", "pwd"] = ["ls", "pwd"] ∧ (h.walk keys).index = 0 ∧
      (h.walk keys).line h = "ls" ∧ (h.walk [.up]).line h = "pwd" := by
  have hlines : remembered 2 ["ls", "cd", " ls ", "pwd"] = ["ls", "pwd"] := by decide +kernel
  obtain ⟨-, hindex, -, hline, hup⟩ := recall_exact 2 ["ls", "cd", " ls ", "pwd"] [.up, .up, .up, .left]
  rw [hlines] at hindex hline
  have hfirst : (((new 2).recordAll ["ls", "cd", " ls ", "pwd"]).walk [.up, .up, .up, .left]).index = 0 := hindex
  rw [hfirst] at hline
  have hlatest : some "pwd" = _ := hup 1 (Nat.le_refl _) (by rw [hlines]; decide)
  exact ⟨hlines, hfirst, (Option.some_inj.1 hline).symm, (Option.some_inj.1 hlatest).symm⟩

end History

/-! ### At a prompt -/

namespace Terminal

variable (t : Terminal)

@[simp] theorem replies_record (event : TerminalEvent) : (t.record event).replies = t.replies := by
  rw [record.eq_def]
  split <;> rfl

@[simp] theorem replies_write (text : String) : (t.write text).2.replies = t.replies := by
  rw [write]
  split
  · rfl
  · exact replies_record _ _

end Terminal

namespace Session

variable {s t u : Session} {h : History} {c : Cursor} {key : Key} {initial : String} {replies : List LineReply}

theorem run_of_step (hstep : s.step = some t) (n : Nat) : s.run (n + 1) = t.run n := by
  rw [run, hstep]

/-- A key takes two steps: it is read, and the line is asked for again. -/
theorem exists_run_recall (hphase : s.phase = .ask (.line h c) initial)
    (hreplies : s.world.terminal.replies = .recall key :: replies) :
    ∃ t : Session, (∀ n, s.run (n + 2) = t.run n) ∧
      t.phase = .ask (.line h (c.step h key)) ((c.step h key).line h) ∧ t.world.terminal.replies = replies := by
  let asked := s.ask (.line h c) initial
  let terminal : Terminal := { asked.world.terminal with replies }
  have hasked : asked.world.terminal.replies = .recall key :: replies := (Terminal.replies_record _ _).trans hreplies
  have hread : asked.world.terminal.readLine asked.world.isEndingHard = (some (.recall key), terminal) := by
    rw [Terminal.readLine, hasked]
  refine ⟨{ asked with world := { asked.world with terminal } }.answer (.line h c) (.recall key), fun n => ?_, rfl, rfl⟩
  rw [run_of_step (step_of_ask hphase), run_of_step (step_of_await rfl hread)]

/-- The line to which keys lead is offered to be edited. -/
theorem offers_stepAll {keys : List Key} (hphase : s.phase = .ask (.line h c) (c.line h))
    (hreplies : s.world.terminal.replies = keys.map .recall ++ replies) :
    (s.run (2 * keys.length)).phase = .ask (.line h (c.stepAll h keys)) ((c.stepAll h keys).line h) ∧
      (s.run (2 * keys.length)).world.terminal.replies = replies := by
  induction keys generalizing s c with
  | nil => exact ⟨hphase, hreplies⟩
  | cons key keys ih =>
      obtain ⟨t, hrun, hphase, hreplies⟩ := exists_run_recall hphase hreplies
      rw [List.length_cons, Nat.mul_succ, hrun]
      exact ih hphase hreplies

/-- Keys pressed at a prompt walk through the history. -/
theorem offers_walk {keys : List Key} (hphase : s.phase = .prompt) (hstate : s.state = .running)
    (hreplies : s.world.terminal.replies = keys.map .recall ++ replies) :
    (s.run (2 * keys.length + 1)).phase =
        .ask (.line s.history (s.history.walk keys)) ((s.history.walk keys).line s.history) ∧
      (s.run (2 * keys.length + 1)).world.terminal.replies = replies := by
  have hstep : s.step = some s.askLine := by rw [step, hphase]
  have hask : s.askLine = (s.write s.settings.prompt).goto (.ask (.line s.history (.new s.history)) "") := by
    rw [askLine, if_pos hstate]
  have hempty : (Cursor.new s.history).line s.history = "" := Cursor.line_of_ge (Nat.le_refl _)
  rw [run_of_step hstep, hask]
  refine offers_stepAll ?_ ((Terminal.replies_write _ _).trans hreplies)
  rw [hempty]
  rfl

end Session

end CommandShell
