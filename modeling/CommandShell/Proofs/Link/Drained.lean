import CommandShell.Proofs.Cancellation.Tree
import CommandShell.Proofs.Link.Lines

/-!
A text from a file and one that waits in a link whose writer is done.  Main statement: a stage that calls for its
input in any way is told the same from either, whenever the pipeline is cancelled in between, and is never held
up.
-/

namespace CommandShell

/-- What a stage can do to its input in one go. -/
structure Input (σ : Type) where
  isPiped : σ → Bool
  isEnded : σ → Bool
  flush : σ → σ
  tryRead : σ → Option Char × σ
  readChar : σ → Take Char σ
  /-- The pipeline is cancelled, by whomever. -/
  cancel : σ → σ

def Ends.asInput : Input Ends where
  isPiped e := e.input != .terminal
  isEnded := isEnded
  flush := flushInput
  tryRead := tryRead
  readChar := readChar
  cancel := cancel

/-- A link, with whether the pipeline is cancelled. -/
def Link.asInput : Input (Link × Bool) where
  isPiped _ := true
  isEnded s := s.1.isEnded s.2
  flush s := (s.1.flush, s.2)
  tryRead s := (s.1.tryRead.1, s.1.tryRead.2, s.2)
  readChar s :=
    match s.1.readChar s.2 with
    | .got c l => .got c (l, s.2)
    | .ended l => .ended (l, s.2)
    | .blocked l => .blocked (l, s.2)
  cancel s := (s.1, true)

namespace Input

inductive Call where
  | isPiped
  | isEnded
  | flush
  | tryRead
  | read (extent : Extent)
  deriving DecidableEq, Repr

inductive Answer where
  | flag (b : Bool)
  | text (t : Option String)
  | nothing
  deriving DecidableEq, Repr

/-- A stage that makes calls one after another. -/
structure Caller (σ : Type) where
  source : σ
  calls : List Call
  /-- The read under way. -/
  reading : Option Reading := none
  answers : List Answer := []

variable {σ τ : Type}

/-- The next thing that the stage does: one step of the read under way, or the next call. -/
def Caller.step (i : Input σ) (x : Caller σ) : Caller σ :=
  match x.reading, x.calls with
  | some r, _ =>
    match r.step i.tryRead i.readChar x.source with
    | (some (.more r), source) => { x with source, reading := some r }
    | (some (.done text), source) => { x with source, reading := none, answers := x.answers ++ [.text text] }
    | (none, source) => { x with source }
  | none, [] => x
  | none, .isPiped :: calls => { x with calls, answers := x.answers ++ [.flag (i.isPiped x.source)] }
  | none, .isEnded :: calls => { x with calls, answers := x.answers ++ [.flag (i.isEnded x.source)] }
  | none, .flush :: calls => { x with source := i.flush x.source, calls, answers := x.answers ++ [.nothing] }
  | none, .tryRead :: calls =>
    let (c, source) := i.tryRead x.source
    { x with source, calls, answers := x.answers ++ [.text (c.map Char.toString)] }
  | none, .read extent :: calls => { x with calls, reading := some (.start extent) }

/-- The stage goes on, or the pipeline is cancelled. -/
inductive Event where
  | go
  | cancel
  deriving DecidableEq, Repr

/-- The pipeline may be cancelled before any step, also between two steps of a read. -/
def Caller.run (i : Input σ) : Caller σ → List Event → Caller σ
  | x, [] => x
  | x, .go :: events => run i (x.step i) events
  | x, .cancel :: events => run i { x with source := i.cancel x.source } events

/-- Both attempts have taken the same character, or both have come to the end, and their sources are related. -/
def SameTake (R : σ → τ → Prop) : Take Char σ → Take Char τ → Prop
  | .got c s, .got d t => c = d ∧ R s t
  | .ended s, .ended t => R s t
  | _, _ => False

/-- Related sources answer alike and remain related; neither keeps a stage waiting. -/
structure Simulates (i : Input σ) (j : Input τ) (R : σ → τ → Prop) : Prop where
  isPiped : ∀ {s t}, R s t → i.isPiped s = j.isPiped t
  isEnded : ∀ {s t}, R s t → i.isEnded s = j.isEnded t
  flush : ∀ {s t}, R s t → R (i.flush s) (j.flush t)
  tryRead : ∀ {s t}, R s t → (i.tryRead s).1 = (j.tryRead t).1 ∧ R (i.tryRead s).2 (j.tryRead t).2
  readChar : ∀ {s t}, R s t → SameTake R (i.readChar s) (j.readChar t)
  cancel : ∀ {s t}, R s t → R (i.cancel s) (j.cancel t)

/-- The callers have related sources and have come equally far. -/
structure Alike (R : σ → τ → Prop) (x : Caller σ) (y : Caller τ) : Prop where
  source : R x.source y.source
  calls : x.calls = y.calls
  reading : x.reading = y.reading
  answers : x.answers = y.answers

variable {i : Input σ} {j : Input τ} {R : σ → τ → Prop}

theorem Simulates.reading_step (h : Simulates i j R) {s : σ} {t : τ} (hR : R s t) (r : Reading) :
    ∃ next s' t', r.step i.tryRead i.readChar s = (some next, s') ∧ r.step j.tryRead j.readChar t = (some next, t') ∧
      R s' t' := by
  unfold Reading.step
  split
  · obtain ⟨hchar, hsource⟩ := h.tryRead hR
    exact ⟨_, _, _, rfl, by rw [hchar], hsource⟩
  · have htake := h.readChar hR
    match hs : i.readChar s, ht : j.readChar t with
    | .got c s', .got d t' =>
        rw [hs, ht] at htake
        obtain ⟨rfl, hsource⟩ := htake
        exact ⟨_, _, _, rfl, rfl, hsource⟩
    | .ended s', .ended t' =>
        rw [hs, ht] at htake
        exact ⟨_, _, _, rfl, rfl, htake⟩
    | .got _ _, .ended _ | .got _ _, .blocked _ | .ended _, .got _ _ | .ended _, .blocked _ | .blocked _, _ =>
        rw [hs, ht] at htake
        cases htake

theorem Simulates.alike_step (h : Simulates i j R) {x : Caller σ} {y : Caller τ} (hxy : Alike R x y) :
    Alike R (x.step i) (y.step j) := by
  obtain ⟨s, calls, reading, answers⟩ := x
  obtain ⟨t, _, _, _⟩ := y
  obtain ⟨hsource, rfl, rfl, rfl⟩ := hxy
  cases reading with
  | some r =>
      obtain ⟨next, s', t', hs, ht, hafter⟩ := h.reading_step hsource r
      simp only [Caller.step, hs, ht]
      cases next with
      | more r => exact ⟨hafter, rfl, rfl, rfl⟩
      | done text => exact ⟨hafter, rfl, rfl, rfl⟩
  | none =>
      match calls with
      | [] => exact ⟨hsource, rfl, rfl, rfl⟩
      | .isPiped :: calls => exact ⟨hsource, rfl, rfl, congrArg (answers ++ [.flag ·]) (h.isPiped hsource)⟩
      | .isEnded :: calls => exact ⟨hsource, rfl, rfl, congrArg (answers ++ [.flag ·]) (h.isEnded hsource)⟩
      | .flush :: calls => exact ⟨h.flush hsource, rfl, rfl, rfl⟩
      | .tryRead :: calls =>
          obtain ⟨hchar, hafter⟩ := h.tryRead hsource
          exact ⟨hafter, rfl, rfl, congrArg (fun c => answers ++ [.text (Option.map Char.toString c)]) hchar⟩
      | .read extent :: calls => exact ⟨hsource, rfl, rfl, rfl⟩

theorem Simulates.alike_run (h : Simulates i j R) {x : Caller σ} {y : Caller τ} (hxy : Alike R x y)
    (events : List Event) : Alike R (x.run i events) (y.run j events) := by
  induction events generalizing x y with
  | nil => exact hxy
  | cons event events ih =>
      cases event with
      | go => exact ih (h.alike_step hxy)
      | cancel => exact ih ⟨h.cancel hxy.source, hxy.calls, hxy.reading, hxy.answers⟩

/-- A call that has been begun has one answer to come. -/
def Caller.due (x : Caller σ) : Nat := x.calls.length + if x.reading.isSome then 1 else 0

theorem due_eq_zero_iff {x : Caller σ} : x.due = 0 ↔ x.calls = [] ∧ x.reading = none := by
  rw [Caller.due]
  cases x.reading <;> simp

theorem due_run_of_due (i : Input σ) {x : Caller σ} (hdue : x.due = 0) (events : List Event) :
    (x.run i events).due = 0 := by
  induction events generalizing x with
  | nil => exact hdue
  | cons event events ih =>
      cases event with
      | go =>
          obtain ⟨hcalls, hreading⟩ := due_eq_zero_iff.1 hdue
          have hstep : x.step i = x := by simp only [Caller.step, hcalls, hreading]
          exact ih (hstep.symm ▸ hdue)
      | cancel => exact ih hdue

theorem told_step (i : Input σ) (x : Caller σ) :
    (x.step i).answers.length + (x.step i).due = x.answers.length + x.due := by
  obtain ⟨s, calls, reading, answers⟩ := x
  cases reading with
  | some r =>
      simp only [Caller.step]
      split
      · rfl
      · simp [Caller.due]
        omega
      · rfl
  | none =>
      match calls with
      | [] | .read extent :: calls => rfl
      | .isPiped :: calls | .isEnded :: calls | .flush :: calls | .tryRead :: calls =>
          simp [Caller.step, Caller.due]
          omega

theorem told_run (i : Input σ) (x : Caller σ) (events : List Event) :
    (x.run i events).answers.length + (x.run i events).due = x.answers.length + x.due := by
  induction events generalizing x with
  | nil => rfl
  | cons event events ih =>
      cases event with
      | go => exact (ih _).trans (told_step i x)
      | cancel => exact ih _

end Input

namespace Reading

/-- How many steps a read takes besides those for its characters. -/
def cost : Reading → Nat
  | .all _ true => 2
  | _ => 1

theorem cost_pos (r : Reading) : 0 < r.cost := by
  unfold cost
  split <;> simp

theorem cost_le (r : Reading) : r.cost ≤ 2 := by
  unfold cost
  split <;> simp

theorem cost_of_feed_none {r r' : Reading} (h : r.feed none = .more r') : r'.cost < r.cost := by
  cases r with
  | character | chunk text | line text => cases h
  | all text eager =>
      cases eager with
      | false => cases h
      | true => cases h; simp [cost]

end Reading

namespace Link

open Input

/-- A step of a read from a link whose writer is done takes a character or finds none. -/
theorem step_of_writerDone {s t : Link × Bool} {next : Option Reading.Next} {r : Reading}
    (hdone : s.1.writerDone = true) (hstep : r.step asInput.tryRead asInput.readChar s = (next, t)) :
    (∃ c q, next = some (r.feed (some c)) ∧ t = ({ s.1 with queue := q }, s.2) ∧ s.1.queue.toList = c :: q.toList) ∨
      next = some (r.feed none) ∧ t = s := by
  obtain ⟨l, cancelled⟩ := s
  obtain ⟨fed, hfed, rfl⟩ := Reading.fed_of_step hstep
  cases hfed with
  | tried c t heager htry =>
      rcases hl : l.tryRead with ⟨_ | d, m⟩
      · obtain ⟨rfl, -⟩ := tryRead_eq_none hl
        simp only [asInput, hl] at htry
        cases htry
        exact .inr ⟨rfl, rfl⟩
      · obtain ⟨q, rfl, hq⟩ := tryRead_eq_some hl
        simp only [asInput, hl] at htry
        cases htry
        exact .inl ⟨d, q, rfl, rfl, hq⟩
  | got c t hwait hread =>
      simp only [asInput] at hread
      split at hread <;> cases hread
      next m hgot =>
        obtain ⟨q, rfl, hq⟩ := tryRead_eq_some (readChar_eq_got hgot).2
        exact .inl ⟨c, q, rfl, rfl, hq⟩
  | ended t hwait hread =>
      simp only [asInput] at hread
      split at hread <;> cases hread
      next m hended =>
        obtain ⟨rfl, -⟩ := readChar_eq_ended hended
        exact .inr ⟨rfl, rfl⟩
  | blocked t hwait hread =>
      simp only [asInput] at hread
      split at hread <;> cases hread
      next m hblocked =>
        obtain ⟨-, -, -, hopen⟩ := readChar_eq_blocked hblocked
        cases hdone.symm.trans hopen

/-- A text that a link has room for is written at once. -/
theorem write_of_room (l : Link) (hopen : l.readerDone = false) (cs : List Char)
    (hroom : l.queue.size + cs.length ≤ l.capacity) :
    ∃ q, l.write false cs = ({ l with queue := q }, []) ∧ q.toList = l.queue.toList ++ cs := by
  induction cs generalizing l with
  | nil => exact ⟨l.queue, rfl, by simp⟩
  | cons c cs ih =>
      rw [List.length_cons] at hroom
      have hpush : l.push false c = .pushed { l with queue := l.queue.push c } :=
        push_eq_pushed_iff.2 ⟨rfl, hopen, by omega, rfl⟩
      obtain ⟨q, hwrite, hq⟩ := ih { l with queue := l.queue.push c } hopen (by
        rw [Queue.size_eq_length, Queue.toList_push, List.length_append, ← Queue.size_eq_length]
        simp only [List.length_singleton]
        omega)
      refine ⟨q, ?_, by simp [hq]⟩
      rw [write, hpush]
      exact hwrite

/-- What is still to be done by a stage that reads from a link. -/
def workOf (x : Caller (Link × Bool)) : Nat :=
  2 * x.source.1.queue.toList.length + 2 * x.calls.length + (x.reading.map Reading.cost).getD 0

variable {x : Caller (Link × Bool)}

theorem workOf_step (hdone : x.source.1.writerDone = true) (hdue : x.due ≠ 0) :
    workOf (x.step asInput) < workOf x ∧ (x.step asInput).source.1.writerDone = true := by
  obtain ⟨s, calls, reading, answers⟩ := x
  cases reading with
  | some r =>
      rcases hstep : r.step asInput.tryRead asInput.readChar s with ⟨next, t⟩
      have hcost := r.cost_pos
      obtain ⟨c, q, rfl, rfl, hq⟩ | ⟨rfl, rfl⟩ := step_of_writerDone hdone hstep
      · simp only [Caller.step, hstep]
        cases r.feed (some c) with
        | more r' =>
            have hcost' := r'.cost_le
            refine ⟨?_, hdone⟩
            simp [workOf, hq]
            omega
        | done text =>
            refine ⟨?_, hdone⟩
            simp [workOf, hq]
            omega
      · simp only [Caller.step, hstep]
        cases hfeed : r.feed none with
        | more r' =>
            have hless := Reading.cost_of_feed_none hfeed
            exact ⟨by simpa [workOf] using hless, hdone⟩
        | done text => exact ⟨by simpa [workOf] using hcost, hdone⟩
  | none =>
      match calls with
      | [] => exact absurd rfl hdue
      | .isPiped :: calls | .isEnded :: calls => exact ⟨by simp [workOf, Caller.step], hdone⟩
      | .flush :: calls =>
          refine ⟨?_, hdone⟩
          simp [workOf, Caller.step, asInput, flush]
          omega
      | .tryRead :: calls =>
          obtain ⟨l, cancelled⟩ := s
          rcases htry : l.tryRead with ⟨_ | c, m⟩
          · obtain ⟨rfl, -⟩ := tryRead_eq_none htry
            exact ⟨by simp [workOf, Caller.step, asInput, htry], by simpa [Caller.step, asInput, htry] using hdone⟩
          · obtain ⟨q, rfl, hq⟩ := tryRead_eq_some htry
            refine ⟨?_, by simpa [Caller.step, asInput, htry] using hdone⟩
            simp [workOf, Caller.step, asInput, htry, hq]
            omega
      | .read extent :: calls =>
          refine ⟨?_, hdone⟩
          cases extent <;> simp [workOf, Caller.step, Reading.start, Reading.cost] <;> omega

theorem due_of_workOf (h : workOf x = 0) : x.due = 0 := by
  have hcalls : x.calls = [] := by
    rw [workOf] at h
    exact List.length_eq_zero_iff.1 (by omega)
  have hreading : x.reading = none := by
    cases hr : x.reading with
    | none => rfl
    | some r =>
        have hcost := r.cost_pos
        simp [workOf, hr] at h
        omega
  exact due_eq_zero_iff.2 ⟨hcalls, hreading⟩

/-- With enough steps all calls are answered. -/
theorem due_run (hdone : x.source.1.writerDone = true) {events : List Event} (hsteps : workOf x ≤ events.count .go) :
    (x.run asInput events).due = 0 := by
  by_cases hdue : x.due = 0
  · exact due_run_of_due asInput hdue events
  · -- a step lowers the work that is left, and cancelling does not change it
    induction events generalizing x with
    | nil => exact absurd (due_of_workOf (Nat.le_zero.1 hsteps)) hdue
    | cons event events ih =>
        cases event with
        | go =>
            obtain ⟨hless, hafter⟩ := workOf_step hdone hdue
            rw [List.count_cons_self] at hsteps
            by_cases hnext : (x.step asInput).due = 0
            · exact due_run_of_due asInput hnext events
            · exact ih hafter (by omega) hnext
        | cancel =>
            rw [List.count_cons_of_ne (by decide)] at hsteps
            exact ih (x := { x with source := asInput.cancel x.source }) hdone hsteps hdue

end Link

/-- A redirected input and a link are left with the same text, and no more is written to the link. -/
structure SameText (e : Ends) (s : Link × Bool) : Prop where
  input : e.input = .redirected s.1.queue.toList
  writerDone : s.1.writerDone = true
  cancelled : s.2 = e.isCancelled
  known : (e.world.tokens.get? e.token).isSome = true

namespace SameText

variable {e : Ends} {s : Link × Bool}

theorem cancel (h : SameText e s) : SameText e.cancel (Link.asInput.cancel s) := by
  have hcancelled : e.cancel.isCancelled = true :=
    CancelTree.isCancelled_of_mem (List.mem_singleton_self _) h.known
  exact ⟨h.input, h.writerDone, hcancelled.symm, CancelTree.isSome_of_isCancelled hcancelled⟩

theorem tryRead (h : SameText e s) : (Ends.asInput.tryRead e).1 = (Link.asInput.tryRead s).1 ∧
    SameText (Ends.asInput.tryRead e).2 (Link.asInput.tryRead s).2 := by
  obtain ⟨l, cancelled⟩ := s
  obtain ⟨hinput, hdone, hcancelled, hknown⟩ := h
  rcases htry : l.tryRead with ⟨_ | c, m⟩
  · obtain ⟨rfl, hempty⟩ := Link.tryRead_eq_none htry
    simp only [Ends.asInput, Link.asInput, Ends.tryRead, hinput, hempty, htry, Redirected.tryRead]
    exact ⟨trivial, by rw [hempty], hdone, hcancelled, hknown⟩
  · obtain ⟨q, rfl, hq⟩ := Link.tryRead_eq_some htry
    simp only [Ends.asInput, Link.asInput, Ends.tryRead, hinput, hq, htry, Redirected.tryRead]
    exact ⟨trivial, rfl, hdone, hcancelled, hknown⟩

theorem readChar (h : SameText e s) :
    Input.SameTake SameText (Ends.asInput.readChar e) (Link.asInput.readChar s) := by
  obtain ⟨l, cancelled⟩ := s
  obtain ⟨hinput, hdone, rfl, hknown⟩ := h
  dsimp only at hinput hdone
  simp only [Ends.asInput, Link.asInput, Ends.readChar, hinput, Redirected.readChar, Link.readChar]
  cases hcancelled : e.isCancelled with
  | true => exact ⟨rfl, hdone, hcancelled.symm, hknown⟩
  | false =>
      rcases htry : l.tryRead with ⟨_ | c, m⟩
      · obtain ⟨rfl, hempty⟩ := Link.tryRead_eq_none htry
        simp only [hempty, hdone, Redirected.tryRead, if_true]
        exact ⟨by rw [hempty], hdone, hcancelled.symm, hknown⟩
      · obtain ⟨q, rfl, hq⟩ := Link.tryRead_eq_some htry
        simp only [hq, Redirected.tryRead]
        exact ⟨rfl, rfl, hdone, hcancelled.symm, hknown⟩

theorem simulates : Input.Simulates Ends.asInput Link.asInput SameText where
  isPiped h := by simp [Ends.asInput, Link.asInput, h.input]
  isEnded h := by
    simp [Ends.asInput, Link.asInput, Ends.isEnded, h.input, Redirected.isEnded, Link.isEnded, h.writerDone,
      h.cancelled]
  flush h := by
    simp only [Ends.asInput, Link.asInput, Ends.flushInput, h.input]
    exact ⟨rfl, h.writerDone, h.cancelled, h.known⟩
  tryRead h := h.tryRead
  readChar h := h.readChar
  cancel h := h.cancel

theorem alike_run (h : SameText e s) (calls : List Input.Call) (events : List Input.Event) :
    Input.Alike SameText (Input.Caller.run Ends.asInput { source := e, calls } events)
      (Input.Caller.run Link.asInput { source := s, calls } events) :=
  simulates.alike_run ⟨h, rfl, rfl, rfl⟩ events

/-- All calls to a redirected input are answered, with as many steps as those to the link may need. -/
theorem due_run (h : SameText e s) (calls : List Input.Call) {events : List Input.Event}
    (hsteps : 2 * (s.1.queue.toList.length + calls.length) ≤ events.count .go) :
    (Input.Caller.run Ends.asInput { source := e, calls } events).due = 0 := by
  have hrun := h.alike_run calls events
  have hwork : Link.workOf { source := s, calls } ≤ events.count .go := by
    simp only [Link.workOf, Option.map_none, Option.getD_none]
    omega
  have hdue := Input.due_eq_zero_iff.1 (Link.due_run (x := { source := s, calls }) h.writerDone hwork)
  rw [← hrun.calls, ← hrun.reading] at hdue
  exact Input.due_eq_zero_iff.2 hdue

end SameText

/-- Whatever a stage calls for, and whenever the pipeline is cancelled meanwhile, it is told the same by a redirected
input and by a link to which its text has been written before the writing end was closed, and with enough steps it
is told all. -/
theorem told_alike {text : String} {capacity : Nat} {e : Ends} (hroom : text.length ≤ max capacity 1)
    (hinput : e.input = .redirected text.toList) (hknown : (e.world.tokens.get? e.token).isSome = true)
    (calls : List Input.Call) (events : List Input.Event) :
    ∃ l, (Link.new capacity).write false text.toList = (l, []) ∧
      ∃ file link, Input.Caller.run Ends.asInput { source := e, calls } events = file ∧
        Input.Caller.run Link.asInput { source := (l.endWriting, e.isCancelled), calls } events = link ∧
        link.answers = file.answers ∧ link.calls = file.calls ∧ link.reading = file.reading ∧
        (2 * (text.length + calls.length) ≤ events.count .go → file.answers.length = calls.length) := by
  have hempty : (Link.new capacity).queue.toList = [] := rfl
  obtain ⟨q, hwrite, hq⟩ := (Link.new capacity).write_of_room rfl text.toList (by
    rw [Queue.size_eq_length, hempty, String.length_toList]
    simpa [Link.new] using hroom)
  rw [hempty, List.nil_append] at hq
  have hsame : SameText e (({ Link.new capacity with queue := q }).endWriting, e.isCancelled) :=
    ⟨by rw [hinput, ← hq]; rfl, rfl, rfl, hknown⟩
  have hrun := hsame.alike_run calls events
  refine ⟨_, hwrite, _, _, rfl, rfl, hrun.answers.symm, hrun.calls.symm, hrun.reading.symm, fun hsteps => ?_⟩
  have hlength : q.toList.length = text.length := by rw [hq, String.length_toList]
  have htold := Input.told_run Ends.asInput { source := e, calls } events
  rw [hsame.due_run calls (hlength ▸ hsteps)] at htold
  simpa [Input.Caller.due] using htold

/-- A pipeline that is cancelled in the middle of a line: the line is cut short there, no later read gives anything,
and what is left can still be taken by those who do not wait. -/
theorem told_alike_of_cancelled :
    let text := "a\nbcd"
    let e : Ends := ⟨.detached ⟨.empty, ""⟩ none {}, 0, 20, true, ⟨[], none⟩, .redirected text.toList, .new .null {}⟩
    let calls : List Input.Call := [.read .line, .isEnded, .read .line, .tryRead, .isEnded, .read .chunk, .isPiped]
    let events : List Input.Event := List.replicate 6 .go ++ .cancel :: List.replicate 24 .go
    text.length ≤ max 5 1 ∧ (e.world.tokens.get? e.token).isSome = true ∧ e.isCancelled = false ∧
      ∃ file, Input.Caller.run Ends.asInput { source := e, calls } events = file ∧ file.calls = [] ∧
        file.answers = [.text (some "a"), .flag false, .text (some "b"), .text (some "c"), .flag true, .text none,
          .flag true] := by
  intro text e calls events
  have hroom : text.length ≤ max 5 1 := by decide +kernel
  have hknown : (e.world.tokens.get? e.token).isSome = true := by decide +kernel
  have hlive : e.isCancelled = false := by decide +kernel
  obtain ⟨l, hwrite, file, link, hfile, hlink, hanswers, hcalls, -, -⟩ := told_alike hroom rfl hknown calls events
  obtain rfl : ((Link.new 5).write false text.toList).1 = l := by rw [hwrite]
  rw [hlive] at hlink
  refine ⟨hroom, hknown, hlive, file, hfile, ?_, ?_⟩
  · rw [← hcalls, ← hlink]
    decide +kernel
  · rw [← hanswers, ← hlink]
    decide +kernel

end CommandShell
