import CommandShell.Chain.Worker
import CommandShell.Proofs.Chain.Output
import CommandShell.Proofs.Filing

/-!
What comes of a command that turns its input into output and perhaps keeps a file of it.  A meaning of
a body says for each of its states what is still to come of what is left of the input, no matter in
which pieces that arrives.
-/

namespace CommandShell

/-- What comes of a stage: the text that it writes, and the text that it stores in its file. -/
structure Yield where
  out : List Char := []
  stored : List Char := []

namespace Yield

instance : Append Yield := ⟨fun y z => ⟨y.out ++ z.out, y.stored ++ z.stored⟩⟩

@[simp] theorem out_append (y z : Yield) : (y ++ z).out = y.out ++ z.out := rfl

@[simp] theorem stored_append (y z : Yield) : (y ++ z).stored = y.stored ++ z.stored := rfl

@[simp] theorem empty_append (y : Yield) : (⟨[], []⟩ : Yield) ++ y = y := rfl

end Yield

/-- A character that a line that is read can have in it. -/
def IsLineChar (c : Char) : Prop := c ≠ '\n' ∧ c ≠ '\r'

/-- `f s` comes of a state in which a chunk is read. -/
structure ReadsChunk {σ : Type} (f : σ → List Char → Yield) (s : σ) (next : Option String → σ) : Prop where
  ended : f s [] = f (next none) []
  chunk : ∀ text x, text ≠ [] → f s (text ++ x) = f (next (some (String.ofList text))) x

/-- `f s` comes of a state in which a line is read. -/
structure ReadsLine {σ : Type} (f : σ → List Char → Yield) (s : σ) (next : Option String → σ) : Prop where
  ended : f s [] = f (next none) []
  line : ∀ text x, (∀ c ∈ text, IsLineChar c) →
    f s (text ++ '\n' :: x) = f (next (some (String.ofList text))) x
  last : ∀ text, text ≠ [] → (∀ c ∈ text, IsLineChar c) → f s text = f (next (some (String.ofList text))) []
  dropped : ∀ text x, f s (text ++ '\r' :: x) = f s (text ++ x)

/-- `f s` comes of a state in which the request is made: what the request writes or stores, and then
`f` of the state that follows.  Nothing is asked for that the stage's file is not ready for. -/
def Request.Yields {σ : Type} (lineBreak : List Char) (use : Option FileUse)
    (fits : σ → FileUse.Phase → Prop) (f : σ → List Char → Yield) (s : σ) (phase : FileUse.Phase) :
    Request σ → Prop
  | .finish result => result = .ok () ∧ (use.isSome → ∃ id, phase = .opened id) ∧ ∀ x, f s x = {}
  | .output action next => action ≠ .clearScreen ∧ fits next phase ∧
      ∀ x, f s x = ⟨action.chars lineBreak, []⟩ ++ f next x
  | .read .chunk next => (∀ answer, fits (next answer) phase) ∧ ReadsChunk f s next
  | .read .line next => (∀ answer, fits (next answer) phase) ∧ ReadsLine f s next
  | .checkCancelled next => fits (next false) phase ∧ ∀ x, f s x = f (next false) x
  | .makeFoldersFor path next => (∃ append, use = some (path, append)) ∧ phase = .untouched ∧
      fits next .prepared ∧ ∀ x, f s x = f next x
  | .openFile path append next => use = some (path, append) ∧ phase = .prepared ∧
      ∀ id, fits (next id) (.opened id) ∧ ∀ x, f s x = f (next id) x
  | .writeFile id text next => phase = .opened id ∧ fits next phase ∧
      ∀ x, f s x = ⟨[], text.toList⟩ ++ f next x
  | .flushFile id next => phase = .opened id ∧ fits next phase ∧ ∀ x, f s x = f next x
  | _ => False

/-- What comes of the states of a body that are possible in each phase of its file. -/
structure Body.Meaning (b : Body) (lineBreak : List Char) (use : Option FileUse) where
  fits : b.State → FileUse.Phase → Prop
  yield : b.State → List Char → Yield
  start : fits b.start .untouched
  yields : ∀ s phase, fits s phase → (b.next s).Yields lineBreak use fits yield s phase

/-- What is still to come of a stage of whose input so much is left. -/
inductive Body.Meaning.Owes {b : Body} {lineBreak : List Char} {use : Option FileUse}
    (m : b.Meaning lineBreak use) (phase : FileUse.Phase) :
    Control b.State → (List Char → Yield) → Prop
  | ready {s : b.State} (hfits : m.fits s phase) : m.Owes phase (.ready s) (m.yield s)
  | writing {rest : List Char} {next : b.State} (hfits : m.fits next phase) :
      m.Owes phase (.writing rest next) fun x => ⟨rest, []⟩ ++ m.yield next x
  | chunk {s : b.State} {text : String} {next : Option String → b.State} (hfits : m.fits s phase)
      (hnext : b.next s = .read .chunk next) :
      m.Owes phase (.reading (.chunk text) next) fun x => m.yield s (text.toList ++ x)
  | line {s : b.State} {text : String} {next : Option String → b.State} (hfits : m.fits s phase)
      (hnext : b.next s = .read .line next) (htext : ∀ c ∈ text.toList, IsLineChar c) :
      m.Owes phase (.reading (.line text) next) fun x => m.yield s (text.toList ++ x)
  | finished (hclosed : phase = .closed) : m.Owes phase .finished fun _ => {}

namespace Body.Meaning

variable {b : Body} {lineBreak : List Char} {use : Option FileUse} {m : b.Meaning lineBreak use}
  {phase : FileUse.Phase} {r : Reading} {next : Option String → b.State} {g : List Char → Yield}

/-- A character that is fed to a read under way is the first of what was left. -/
theorem owes_of_feed_some (h : m.Owes phase (.reading r next) g) (c : Char) :
    (∀ r', r.feed (some c) = .more r' →
      ∃ g', m.Owes phase (.reading r' next) g' ∧ ∀ x, g (c :: x) = g' x) ∧
    ∀ answer, r.feed (some c) = .done answer →
      m.fits (next answer) phase ∧ ∀ x, g (c :: x) = m.yield (next answer) x := by
  cases h with
  | chunk hfits hnext =>
      rename_i s text
      refine ⟨fun r' hfeed => ?_, nofun⟩
      cases hfeed
      exact ⟨_, .chunk hfits hnext, fun x => by simp⟩
  | line hfits hnext htext =>
      rename_i s text
      have hyields := m.yields s phase hfits
      rw [hnext] at hyields
      obtain ⟨hnextfits, hlines⟩ := hyields
      by_cases hfeed : c = '\n'
      · subst hfeed
        refine ⟨nofun, fun answer hdone => ?_⟩
        cases hdone
        refine ⟨hnextfits _, fun x => ?_⟩
        dsimp only
        rw [hlines.line _ x htext, String.ofList_toList]
      · by_cases hreturn : c = '\r'
        · subst hreturn
          refine ⟨fun r' hmore => ?_, nofun⟩
          cases hmore
          exact ⟨_, .line hfits hnext htext, hlines.dropped _⟩
        · refine ⟨fun r' hmore => ?_, fun answer hdone => ?_⟩
          · simp only [Reading.feed, hfeed, hreturn, if_false] at hmore
            cases hmore
            refine ⟨_, .line hfits hnext ?_, fun x => by simp⟩
            intro d hd
            rw [String.toList_push, List.mem_append, List.mem_singleton] at hd
            rcases hd with hd | rfl
            · exact htext d hd
            · exact ⟨hfeed, hreturn⟩
          · simp only [Reading.feed, hfeed, hreturn, if_false] at hdone
            cases hdone

/-- A chunk may be cut anywhere. -/
theorem owes_of_cut (h : m.Owes phase (.reading r next) g) (heager : r.isEager = true) :
    ∃ answer, r.feed none = .done answer ∧ m.fits (next answer) phase ∧
      ∀ x, g x = m.yield (next answer) x := by
  cases h with
  | chunk hfits hnext =>
      rename_i s text
      have hyields := m.yields s phase hfits
      rw [hnext] at hyields
      have htext : text ≠ "" := by simpa [Reading.isEager] using heager
      refine ⟨some text, by simp [Reading.feed, htext], hyields.1 _, fun x => ?_⟩
      dsimp only
      rw [hyields.2.chunk text.toList x (by simpa using htext), String.ofList_toList]
  | line hfits hnext htext => cases heager

/-- A read that waits gets its answer at the end of the input. -/
theorem owes_of_ended (h : m.Owes phase (.reading r next) g) (heager : r.isEager = false) :
    ∃ answer, r.feed none = .done answer ∧ m.fits (next answer) phase ∧
      g [] = m.yield (next answer) [] := by
  cases h with
  | chunk hfits hnext =>
      rename_i s text
      have hyields := m.yields s phase hfits
      rw [hnext] at hyields
      have htext : text = "" := by simpa [Reading.isEager] using heager
      subst htext
      exact ⟨none, rfl, hyields.1 _, hyields.2.ended⟩
  | line hfits hnext htext =>
      rename_i s text
      have hyields := m.yields s phase hfits
      rw [hnext] at hyields
      by_cases hempty : text = ""
      · subst hempty
        exact ⟨none, rfl, hyields.1 _, hyields.2.ended⟩
      · refine ⟨some text, by simp [Reading.feed, hempty], hyields.1 _, ?_⟩
        dsimp only
        rw [List.append_nil, hyields.2.last text.toList (by simpa using hempty) htext, String.ofList_toList]

end Body.Meaning

end CommandShell
