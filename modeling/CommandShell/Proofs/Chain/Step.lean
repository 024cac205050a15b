import CommandShell.Chain.Basic
import CommandShell.Proofs.Link.Basic

/-!
What one step of a stage does to a chain: it changes the stage itself and at most the two links
beside it, and a stage that finishes ends both of them.  What holds of every step is said once, in
`advanced_of_step`.
-/

namespace CommandShell

namespace Chain

variable {c d e : Chain} {i : Nat} {w : Worker}

@[simp] theorem workers_setWorker (c : Chain) (i : Nat) (w : Worker) :
    (c.setWorker i w).workers = c.workers.set i w := rfl

@[simp] theorem links_setWorker (c : Chain) (i : Nat) (w : Worker) :
    (c.setWorker i w).links = c.links := rfl

@[simp] theorem ends_setWorker (c : Chain) (i : Nat) (w : Worker) :
    (c.setWorker i w).ends = c.ends := rfl

@[simp] theorem now_setWorker (c : Chain) (i : Nat) (w : Worker) :
    (c.setWorker i w).now = c.now := rfl

@[simp] theorem failures_setWorker (c : Chain) (i : Nat) (w : Worker) :
    (c.setWorker i w).failures = c.failures := rfl

@[simp] theorem links_setLink (c : Chain) (i : Nat) (l : Link) :
    (c.setLink i l).links = c.links.set i l := rfl

@[simp] theorem ends_setLink (c : Chain) (i : Nat) (l : Link) : (c.setLink i l).ends = c.ends := rfl

/-- All but the stages of the second chain is that of the first one at a later time, and the clock
has not moved. -/
structure Around (c d : Chain) : Prop where
  length : d.links.length = c.links.length
  later : ∀ {j : Nat} {l m : Link}, c.links[j]? = some l → d.links[j]? = some m → l.Later m
  now : d.now = c.now
  terminal : d.ends.input = .terminal → c.ends.input = .terminal

theorem Around.refl (c : Chain) : Around c c := by
  refine ⟨rfl, ?_, rfl, id⟩
  intro j l m hl hm
  cases hl.symm.trans hm
  exact .refl l

theorem Around.trans (h : Around c d) (h' : Around d e) : Around c e := by
  refine ⟨h'.length.trans h.length, ?_, h'.now.trans h.now, h.terminal ∘ h'.terminal⟩
  intro j l m hl hm
  obtain ⟨k, hk⟩ : ∃ k, d.links[j]? = some k := by
    have hj := (List.getElem?_eq_some_iff.1 hl).1
    exact ⟨_, List.getElem?_eq_getElem (h.length ▸ hj)⟩
  exact (h.later hl hk).trans (h'.later hk hm)

/-- Only the stages and the world differ. -/
theorem Around.of_eq (hlinks : d.links = c.links) (hnow : d.now = c.now)
    (hterminal : d.ends.input = .terminal → c.ends.input = .terminal) : Around c d := by
  refine ⟨by rw [hlinks], ?_, hnow, hterminal⟩
  intro j l m hl hm
  rw [hlinks] at hm
  exact (Around.refl c).later hl hm

theorem around_setLink {l m : Link} (hl : c.links[i]? = some l) (hm : l.Later m) :
    Around c (c.setLink i m) := by
  refine ⟨by simp, ?_, rfl, id⟩
  intro j k k' hk hk'
  rw [links_setLink, List.getElem?_set] at hk'
  split at hk'
  · next hij =>
      subst hij
      cases hl.symm.trans hk
      split at hk' <;> cases hk'
      exact hm
  · cases hk.symm.trans hk'
    exact .refl k

theorem around_setWorker (c : Chain) (i : Nat) (w : Worker) : Around c (c.setWorker i w) :=
  .of_eq rfl rfl id

theorem around_withWorld (c : Chain) (w : World) : Around c (c.withWorld w) := .of_eq rfl rfl id

/-! ### Reading -/

theorem input_pump (e : Ends) : e.pump.2.input = e.input := by
  rw [Ends.pump]
  split
  split <;> rfl

theorem terminal_tryRead (e : Ends) (h : e.tryRead.2.input = .terminal) : e.input = .terminal := by
  rw [Ends.tryRead] at h
  split at h
  · exact h
  · cases h
  · next hin => exact hin

theorem linkBefore?_eq_some {l : Link} (h : c.linkBefore? i = some l) :
    ∃ j, i = j + 1 ∧ c.links[j]? = some l := by
  cases i with
  | zero => cases h
  | succ j => exact ⟨j, rfl, h⟩

/-- The first stage has no link before it, and has none later. -/
theorem linkBefore?_eq_none (haround : Around c d) (h : ¬(d.linkBefore? i).isSome) :
    c.linkBefore? i = none := by
  cases i with
  | zero => rfl
  | succ j =>
      simp only [linkBefore?, Bool.not_eq_true, Option.isSome_eq_false_iff, Option.isNone_iff_eq_none,
        List.getElem?_eq_none_iff] at h ⊢
      rwa [← haround.length]

theorem tryRead_around {x : Option Char} (h : c.tryRead i = (x, d)) :
    d.workers = c.workers ∧ Around c d := by
  rw [tryRead] at h
  split at h
  · cases h
    exact ⟨rfl, .of_eq rfl rfl (terminal_tryRead c.ends)⟩
  · next hl =>
      obtain ⟨j, rfl, hj⟩ := linkBefore?_eq_some hl
      cases h
      exact ⟨rfl, around_setLink hj (Link.later_of_tryRead rfl)⟩

theorem terminal_readChar (e : Ends) (h : e.readChar.source.input = .terminal) :
    e.input = .terminal := by
  rcases hin : e.input with _ | rest | _
  · rfl
  · simp only [Ends.readChar, hin] at h
    split at h <;> cases h
  · simp only [Ends.readChar, hin] at h
    exact hin.symm.trans h

theorem terminal_of_blocked {e e' : Ends} (h : e.readChar = .blocked e') : e.input = .terminal := by
  rcases hin : e.input with _ | rest | _
  · rfl
  · simp only [Ends.readChar, hin] at h
    split at h <;> cases h
  · simp [Ends.readChar, hin] at h

theorem readChar_around (c : Chain) (i : Nat) :
    (c.readChar i).source.workers = c.workers ∧ Around c (c.readChar i).source := by
  rw [readChar]
  split
  · have hterminal := terminal_readChar c.ends
    split
    all_goals
      next htake =>
        rw [htake] at hterminal
        exact ⟨rfl, .of_eq rfl rfl hterminal⟩
  · next hl =>
      obtain ⟨j, rfl, hj⟩ := linkBefore?_eq_some hl
      split
      · next hgot => exact ⟨rfl, around_setLink hj (Link.later_of_tryRead (Link.readChar_eq_got hgot).2)⟩
      · next hended =>
          obtain ⟨rfl, -⟩ := Link.readChar_eq_ended hended
          exact ⟨rfl, around_setLink hj (.refl _)⟩
      · next hblocked =>
          obtain ⟨rfl, -⟩ := Link.readChar_eq_blocked hblocked
          exact ⟨rfl, around_setLink hj (.refl _)⟩

theorem terminal_of_readChar_blocked (h : c.readChar i = .blocked d) (hbefore : c.linkBefore? i = none) :
    c.ends.input = .terminal := by
  simp only [readChar, hbefore] at h
  split at h <;> cases h
  next hblocked => exact terminal_of_blocked hblocked

theorem fed_around {r : Reading} {fed : Option (Option Char)}
    (h : Reading.Fed (tryRead i) (readChar i) r c fed d) : d.workers = c.workers ∧ Around c d := by
  cases h with
  | tried x t heager htry => exact tryRead_around htry
  | got x t hwait htake | ended t hwait htake | blocked t hwait htake =>
      have hc := readChar_around c i
      rwa [htake] at hc

/-- What holds of the ends whenever they are read holds of them whenever a stage reads. -/
theorem ends_of_fed {R : Ends → Ends → Prop} (hrefl : ∀ e, R e e) (htry : ∀ e : Ends, R e e.tryRead.2)
    (hread : ∀ e : Ends, R e e.readChar.source) {r : Reading} {fed : Option (Option Char)}
    (h : Reading.Fed (tryRead i) (readChar i) r c fed d) : R c.ends d.ends := by
  have htried : R c.ends (c.tryRead i).2.ends := by
    rw [tryRead]
    split
    · exact htry c.ends
    · exact hrefl c.ends
  have hwaited : R c.ends (c.readChar i).source.ends := by
    have hends := hread c.ends
    rw [readChar]
    split
    · split
      all_goals
        next htake => rwa [htake] at hends
    · split <;> exact hrefl c.ends
  cases h with
  | tried x t heager h => rwa [h] at htried
  | got x t hwait h | ended t hwait h | blocked t hwait h => rwa [h] at hwaited

/-! ### Finishing -/

theorem endOutput_eq (c : Chain) (i : Nat) :
    (c.endOutput i).workers = c.workers ∧ (c.endOutput i).ends.input = c.ends.input ∧
      (c.endOutput i).now = c.now ∧ (c.endOutput i).failures = c.failures := by
  rw [endOutput]
  split <;> exact ⟨rfl, rfl, rfl, rfl⟩

theorem links_endOutput (c : Chain) (i j : Nat) :
    (c.endOutput i).links[j]? = c.links[j]?.map fun l => if j = i then l.endWriting else l := by
  rw [endOutput]
  split
  · next l hl =>
      rw [links_setLink, List.getElem?_set]
      by_cases hij : i = j
      · subst hij
        obtain ⟨hi, rfl⟩ := List.getElem?_eq_some_iff.1 hl
        simp [hi]
      · simp [hij, Ne.symm hij]
  · next hl =>
      by_cases hij : j = i
      · subst hij
        simp [hl]
      · simp [hij]

theorem endInput_eq (c : Chain) (i : Nat) :
    (c.endInput i).workers = c.workers ∧ (c.endInput i).ends = c.ends ∧
      (c.endInput i).now = c.now ∧ (c.endInput i).failures = c.failures := by
  rw [endInput]
  split <;> exact ⟨rfl, rfl, rfl, rfl⟩

theorem links_endInput (c : Chain) (i j : Nat) :
    (c.endInput i).links[j]? = c.links[j]?.map fun l => if j + 1 = i then l.endReading else l := by
  rw [endInput]
  cases i with
  | zero => simp [linkBefore?]
  | succ k =>
      rcases hl : c.links[k]? with _ | l
      · by_cases hjk : j = k
        · subst hjk
          simp [linkBefore?, hl]
        · simp [linkBefore?, hl, hjk]
      · rw [linkBefore?, hl, links_setLink, Nat.add_sub_cancel, List.getElem?_set]
        by_cases hjk : k = j
        · subst hjk
          obtain ⟨hk, rfl⟩ := List.getElem?_eq_some_iff.1 hl
          simp [hk]
        · simp [hjk, Ne.symm hjk]

theorem noteResult_eq (c : Chain) (i : Nat) (w : Worker) (result : Except CommandError Unit) :
    (c.noteResult i w result).workers = c.workers ∧ (c.noteResult i w result).links = c.links ∧
      (c.noteResult i w result).ends = c.ends ∧ (c.noteResult i w result).now = c.now := by
  unfold noteResult
  split
  · exact ⟨rfl, rfl, rfl, rfl⟩
  · cases result with
    | ok => exact ⟨rfl, rfl, rfl, rfl⟩
    | error e =>
        dsimp only
        split <;> exact ⟨rfl, rfl, rfl, rfl⟩

@[simp] theorem workers_complete (c : Chain) (i : Nat) (w : Worker) (result : Except CommandError Unit) :
    (c.complete i w result).workers = c.workers.set i w.finish := by
  simp [complete, noteResult_eq, endInput_eq, endOutput_eq, flushFiles, withWorld]

/-- A stage that finishes ends the links beside it. -/
theorem links_complete (c : Chain) (i : Nat) (w : Worker) (result : Except CommandError Unit)
    (j : Nat) : (c.complete i w result).links[j]? = c.links[j]?.map fun l =>
      if j = i then l.endWriting else if j + 1 = i then l.endReading else l := by
  simp only [complete, noteResult_eq, links_setWorker, links_endInput, links_endOutput,
    Option.map_map]
  congr 1
  funext l
  by_cases hij : j = i
  · simp [hij]
  · simp [hij]

theorem ends_complete (c : Chain) (i : Nat) (w : Worker) (result : Except CommandError Unit) :
    (c.complete i w result).ends = ((c.flushFiles w.files).endOutput i).ends := by
  simp only [complete, noteResult_eq, ends_setWorker, endInput_eq]

theorem ends_complete_inner (w : Worker) (result : Except CommandError Unit)
    (hinner : c.links[i]?.isSome) : (c.complete i w result).ends = (c.flushFiles w.files).ends := by
  obtain ⟨l, hl⟩ := Option.isSome_iff_exists.1 hinner
  rw [ends_complete, endOutput, show (c.flushFiles w.files).links[i]? = some l from hl, ends_setLink]

theorem around_complete (c : Chain) (i : Nat) (w : Worker) (result : Except CommandError Unit) :
    Around c (c.complete i w result) := by
  refine ⟨?_, ?_, ?_, ?_⟩
  · apply Nat.le_antisymm
    · rw [← List.getElem?_eq_none_iff, links_complete]
      simp
    · rw [← List.getElem?_eq_none_iff]
      have hnone := links_complete c i w result (c.complete i w result).links.length
      simpa using hnone.symm
  · intro j l m hl hm
    rw [links_complete, hl, Option.map_some, Option.some_inj] at hm
    subst hm
    split
    · exact l.later_endWriting
    · split
      · exact l.later_endReading
      · exact .refl l
  · simp [complete, noteResult_eq, endInput_eq, endOutput_eq, flushFiles, withWorld]
  · simp [complete, noteResult_eq, endInput_eq, endOutput_eq, flushFiles, withWorld]

theorem failures_complete (c : Chain) (i : Nat) (w : Worker) :
    (c.complete i w (.ok ())).failures = c.failures := by
  have hnoted : ∀ d : Chain, (d.noteResult i w (.ok ())).failures = d.failures := by
    intro d
    rw [noteResult]
    split <;> rfl
  simp [complete, hnoted, endInput_eq, endOutput_eq, flushFiles, withWorld]

end Chain

/-! ### Pauses -/

/-- The request makes its stage wait for time to pass. -/
def Request.pauses {σ : Type} : Request σ → Bool
  | .readKey _ | .sleep _ _ => true
  | _ => false

/-- A body that never waits for time to pass. -/
def Body.Steady (b : Body) : Prop := ∀ s, (b.next s).pauses = false

def Control.isPaused {σ : Type} : Control σ → Bool
  | .typing _ _ | .sleeping _ => true
  | _ => false

/-- The stage is not waiting for time to pass. -/
def Worker.Awake (w : Worker) (now : Nat) : Prop := w.wake ≤ now ∧ w.control.isPaused = false

namespace Chain

variable {c d e : Chain} {i : Nat} {w w' : Worker}

/-! ### One step -/

/-- Stage `i` has taken a step, which has made `w'` of it. -/
structure Advanced (c : Chain) (i : Nat) (w w' : Worker) (d : Chain) : Prop where
  workers : d.workers = c.workers.set i w'
  around : Around c d
  ended : w'.isFinished = true → ∀ {j : Nat} {l : Link}, d.links[j]? = some l →
    (j = i → l.writerDone = true) ∧ (j + 1 = i → l.readerDone = true)
  steady : c.ends.input ≠ .terminal → w.body.Steady → w.Awake c.now →
    w'.body.Steady ∧ w'.Awake c.now

theorem advanced_of_running (hworkers : d.workers = c.workers.set i w') (haround : Around c d)
    (hrun : w'.isFinished = false)
    (hsteady : c.ends.input ≠ .terminal → w.body.Steady → w.Awake c.now →
      w'.body.Steady ∧ w'.Awake c.now) : Advanced c i w w' d :=
  ⟨hworkers, haround, by simp [hrun], hsteady⟩

/-- The stage goes on without waiting for time to pass. -/
theorem advanced_goOn {control : Control w.body.State} {errorText : String} {files : List FileId}
    (hworkers : d.workers = c.workers) (haround : Around c d)
    (hrun : { w with control, errorText, files }.isFinished = false) (hpaused : control.isPaused = false) :
    Advanced c i w { w with control, errorText, files }
      (d.setWorker i { w with control, errorText, files }) := by
  refine advanced_of_running ?_ (haround.trans (around_setWorker d i _)) hrun ?_
  · rw [workers_setWorker, hworkers]
  · intro _ hbody hawake
    exact ⟨hbody, hawake.1, hpaused⟩

/-- The stage goes on in a state of its body. -/
theorem advanced_resume (s : w.body.State) (hworkers : d.workers = c.workers) (haround : Around c d) :
    Advanced c i w (w.resume s) (d.setWorker i (w.resume s)) :=
  advanced_goOn hworkers haround rfl rfl

theorem advanced_complete (result : Except CommandError Unit) (hworkers : d.workers = c.workers)
    (haround : Around c d) : Advanced c i w w.finish (d.complete i w result) := by
  refine ⟨?_, haround.trans (around_complete d i w result), ?_, ?_⟩
  · rw [workers_complete, hworkers]
  · intro _ j l hl
    rw [links_complete, Option.map_eq_some_iff] at hl
    obtain ⟨k, -, rfl⟩ := hl
    constructor
    · intro hj
      simp [hj, Link.endWriting]
    · intro hj
      have hne : j ≠ i := by omega
      simp [hj, hne, Link.endReading]
  · intro _ hbody hawake
    exact ⟨hbody, hawake.1, rfl⟩

theorem advanced_output (action : OutputAction) (next : w.body.State) :
    ∃ w', Advanced c i w w' (c.output i w action next) := by
  rw [output]
  split
  · exact ⟨_, advanced_goOn rfl (.refl c) rfl rfl⟩
  · split
    dsimp only
    split
    · exact ⟨_, advanced_resume next rfl (.of_eq rfl rfl id)⟩
    · exact ⟨_, advanced_complete _ rfl (.of_eq rfl rfl id)⟩

theorem advanced_serve (request : Request w.body.State)
    (hpauses : w.body.Steady → request.pauses = false) :
    ∃ w', Advanced c i w w' (c.serve i w request) := by
  cases request with
  | finish result => exact ⟨_, advanced_complete result rfl (.refl c)⟩
  | output action next => exact advanced_output action next
  | errorOutput action next => exact ⟨_, advanced_goOn rfl (.refl c) rfl rfl⟩
  | read extent next => exact ⟨_, advanced_goOn rfl (.refl c) rfl rfl⟩
  | readKey next =>
      refine ⟨_, advanced_of_running rfl (around_setWorker c i _) rfl ?_⟩
      intro _ hbody _
      cases hpauses hbody
  | sleep ms next =>
      refine ⟨_, advanced_of_running rfl (around_setWorker c i _) rfl ?_⟩
      intro _ hbody _
      cases hpauses hbody
  | flushKeys next =>
      refine ⟨_, advanced_resume next rfl (.of_eq rfl rfl ?_)⟩
      intro hin
      rw [Ends.flushKeys] at hin
      split at hin
      · rwa [← input_pump]
      · exact hin
  | checkCancelled next => exact ⟨_, advanced_resume _ rfl (.refl c)⟩
  | cancel next => exact ⟨_, advanced_resume next rfl (.of_eq rfl rfl id)⟩
  | endSession hard next => exact ⟨_, advanced_resume next rfl (around_withWorld c _)⟩
  | history next => exact ⟨_, advanced_resume _ rfl (.refl c)⟩
  | sessions next => exact ⟨_, advanced_resume _ rfl (.refl c)⟩
  | environment change next => exact ⟨_, advanced_resume _ rfl (around_withWorld c _)⟩
  | load path next =>
      unfold serve
      dsimp only
      split
      · exact ⟨_, advanced_complete _ rfl (.refl c)⟩
      · exact ⟨_, advanced_resume _ rfl (.refl c)⟩
  | makeFoldersFor path next =>
      unfold serve
      dsimp only
      split
      · exact ⟨_, advanced_complete _ rfl (.refl c)⟩
      · exact ⟨_, advanced_resume next rfl (around_withWorld c _)⟩
  | openFile path append next =>
      unfold serve
      dsimp only
      split
      · exact ⟨_, advanced_complete _ rfl (.refl c)⟩
      · exact ⟨_, advanced_goOn rfl (around_withWorld c _) rfl rfl⟩
  | writeFile file text next => exact ⟨_, advanced_resume next rfl (around_withWorld c _)⟩
  | flushFile file next => exact ⟨_, advanced_resume next rfl (around_withWorld c _)⟩

theorem advanced_pushChar {x : Char} {rest : List Char} {next : w.body.State}
    (h : c.pushChar i w x rest next = some d) : ∃ w', Advanced c i w w' d := by
  rw [pushChar] at h
  split at h
  · cases h
    exact ⟨_, advanced_resume next rfl (.refl c)⟩
  · next hl =>
      split at h <;> cases h
      · next hpush => exact ⟨_, advanced_goOn rfl (around_setLink hl (Link.later_of_pushed hpush)) rfl rfl⟩
      · exact ⟨_, advanced_resume next rfl (.refl c)⟩

theorem advanced_readOn {r : Reading} {next : Option String → w.body.State}
    (hcontrol : w.control = .reading r next) (h : c.readOn i w r next = some d) :
    ∃ w', Advanced c i w w' d := by
  rw [readOn] at h
  rcases hstep : r.step (tryRead i) (readChar i) c with ⟨next?, e⟩
  obtain ⟨fed, hfed, hnext⟩ := Reading.fed_of_step hstep
  obtain ⟨hworkers, haround⟩ := fed_around hfed
  rw [hstep] at h
  split at h
  · next heq =>
      cases heq
      cases h
      exact ⟨_, advanced_goOn hworkers haround rfl rfl⟩
  · next heq =>
      cases heq
      cases h
      exact ⟨_, advanced_resume _ hworkers haround⟩
  · next heq =>
      cases heq
      have hblocked : c.readChar i = .blocked e := by
        cases hfed with
        | blocked t hwait hblocked => exact hblocked
        | tried | got | ended => cases hnext
      split at h <;> cases h
      next hbefore =>
        refine ⟨_, advanced_of_running (by rw [pause, workers_setWorker, hworkers])
          (haround.trans (around_setWorker _ i _)) (by simp only [Worker.isFinished, hcontrol]) ?_⟩
        intro hinput _ _
        have hfirst := linkBefore?_eq_none haround hbefore
        exact absurd (terminal_of_readChar_blocked hblocked hfirst) hinput

theorem input_readKey (e : Ends) (i : Nat) : (e.readKey i).source.input = e.input := by
  have hpop : ∀ e : Ends, (e.popKey i).2.input = e.input := by
    intro e
    rw [Ends.popKey]
    split <;> rfl
  have htry : (e.tryKey i).2.input = e.input := by
    have hfirst := hpop e
    rw [Ends.tryKey]
    split
    · next heq => rwa [heq] at hfirst
    · next heq =>
        rw [heq] at hfirst
        split
        · rw [hpop, input_pump, hfirst]
        · exact hfirst
  rw [Ends.readKey]
  split
  · next heq => rwa [heq] at htry
  · next heq =>
      rw [heq] at htry
      split <;> exact htry

theorem advanced_lookForKey {waited : Bool} {next : Option Key → w.body.State}
    (hcontrol : w.control = .typing waited next) :
    ∃ w', Advanced c i w w' (c.lookForKey i w waited next) := by
  have hinput := input_readKey c.ends i
  rw [lookForKey]
  split
  · exact ⟨_, advanced_resume _ rfl (.refl c)⟩
  · split
    · next htake =>
        rw [htake] at hinput
        exact ⟨_, advanced_resume _ rfl (.of_eq rfl rfl (hinput ▸ id))⟩
    · next htake =>
        rw [htake] at hinput
        exact ⟨_, advanced_resume _ rfl (.of_eq rfl rfl (hinput ▸ id))⟩
    · next htake =>
        rw [htake] at hinput
        refine ⟨_, advanced_of_running rfl (.of_eq rfl rfl (hinput ▸ id)) rfl ?_⟩
        intro _ _ hawake
        rw [Worker.Awake, hcontrol] at hawake
        cases hawake.2

/-- What every step of a stage does. -/
theorem advanced_of_step (h : c.step i = some d) :
    ∃ w w', c.workers[i]? = some w ∧ w.isFinished = false ∧ Advanced c i w w' d := by
  rw [step] at h
  split at h
  · cases h
  · next w hw =>
      split at h
      · cases h
      · have hrun : ∀ {control}, w.control = control → control ≠ .finished → w.isFinished = false := by
          intro control hcontrol hne
          rw [Worker.isFinished]
          split
          · next hfinished => exact absurd (hcontrol.symm.trans hfinished) hne
          · rfl
        split at h
        · cases h
        · next s hcontrol =>
            cases h
            obtain ⟨w', hw'⟩ := advanced_serve (c := c) (i := i) (w.body.next s) (fun hb => hb s)
            exact ⟨w, w', hw, hrun hcontrol nofun, hw'⟩
        · next hcontrol =>
            cases h
            exact ⟨w, _, hw, hrun hcontrol nofun, advanced_resume _ rfl (.refl c)⟩
        · next hcontrol =>
            obtain ⟨w', hw'⟩ := advanced_pushChar h
            exact ⟨w, w', hw, hrun hcontrol nofun, hw'⟩
        · next hcontrol =>
            obtain ⟨w', hw'⟩ := advanced_readOn hcontrol h
            exact ⟨w, w', hw, hrun hcontrol nofun, hw'⟩
        · next hcontrol =>
            cases h
            obtain ⟨w', hw'⟩ := advanced_lookForKey (c := c) (i := i) hcontrol
            exact ⟨w, w', hw, hrun hcontrol nofun, hw'⟩
        · next hcontrol =>
            cases h
            exact ⟨w, _, hw, hrun hcontrol nofun, advanced_resume _ rfl (.refl c)⟩

theorem tick_eq (h : c.tick = some d) : ∃ time, d = { c with now := time } := by
  rw [tick] at h
  simp only [Option.map_eq_some_iff] at h
  obtain ⟨time, -, rfl⟩ := h
  exact ⟨time, rfl⟩

/-- The chain after the stages named in a schedule have taken a step each, in that order; none if one
of them cannot. -/
def follow (c : Chain) : List Nat → Option Chain
  | [] => some c
  | i :: schedule => (c.step i).bind fun d => d.follow schedule

theorem follow_cons {schedule : List Nat} (h : c.follow (i :: schedule) = some e) :
    ∃ d, c.step i = some d ∧ d.follow schedule = some e := by
  simpa [follow, Option.bind_eq_some_iff] using h

theorem around_of_follow {schedule : List Nat} (h : c.follow schedule = some d) : Around c d := by
  induction schedule generalizing c with
  | nil =>
      cases h
      exact .refl _
  | cons i schedule ih =>
      obtain ⟨e, hstep, hrest⟩ := follow_cons h
      obtain ⟨_, _, _, _, hadvanced⟩ := advanced_of_step hstep
      exact hadvanced.around.trans (ih hrest)

end Chain

end CommandShell
