import CommandShell.Pipeline
import CommandShell.Proofs.World

/-!
What the redirects of a line have opened.  Main statement: the output of a pipeline that has been opened
takes what is written to it.
-/

namespace CommandShell

/-- The file is as it was opened: nothing has been written to it, and one that is not appended to is
empty. -/
structure OpenFile.Fresh (f : OpenFile) (fs : FileSystem) : Prop where
  offset : f.offset = 0
  waiting : f.waiting = #[]
  node : fs.node? f.path = some .null ∨
    ∃ content, fs.node? f.path = some (.file content) ∧ (f.append = false → content = [])

theorem OpenFile.Fresh.holds {f : OpenFile} {fs : FileSystem} (h : f.Fresh fs) :
    ∃ n, f.Holds fs n ∧ fs.node? f.path = some n := by
  rcases h.node with hnull | ⟨content, hnode, hempty⟩
  · refine ⟨.null, ⟨by simp [hnull], ⟨.null, hnull, rfl⟩, ?_⟩, hnull⟩
    intro content hcontent
    cases hnull.symm.trans hcontent
  · refine ⟨.file content, ⟨by simp [hnode], ⟨_, hnode, ?_⟩, ?_⟩, hnode⟩
    · rw [h.waiting]
      exact Node.extend_nil _
    · intro content' hcontent happend
      cases hnode.symm.trans hcontent
      rw [h.offset, hempty happend]
      rfl

namespace World

variable {w v : World} {path : String} {append : Bool} {id : FileId}

/-- A file is fresh after it has been opened. -/
theorem fresh_openFile (h : w.openFile path append = .ok (id, v)) :
    ∃ f, v.openFiles[id]? = some f ∧ f.Fresh v.files := by
  obtain ⟨fs, place, hwriting, rfl, rfl⟩ := openFile_eq_ok h
  obtain ⟨-, -, -, hnode, -⟩ := FileSystem.openForWriting_eq_ok hwriting
  refine ⟨{ path := place, append }, by simp, rfl, rfl, ?_⟩
  dsimp only
  rw [hnode]
  rcases w.files.node? place with _ | content | _ | _
  · exact .inr ⟨[], rfl, fun _ => rfl⟩
  · exact .inr ⟨_, rfl, fun happend => by rw [happend]; rfl⟩
  · exact .inr ⟨[], rfl, fun _ => rfl⟩
  · exact .inl rfl

/-- It stays so if other files are opened, or the same one again. -/
theorem fresh_keep {f : OpenFile} (hf : f.Fresh w.files) (h : w.openFile path append = .ok (id, v)) :
    f.Fresh v.files := by
  obtain ⟨fs, place, hwriting, rfl, rfl⟩ := openFile_eq_ok h
  obtain ⟨-, -, -, hnode, hothers⟩ := FileSystem.openForWriting_eq_ok hwriting
  refine ⟨hf.offset, hf.waiting, ?_⟩
  by_cases hplace : f.path = place
  · rw [hplace, hnode, ← hplace]
    rcases hf.node with hnull | ⟨content, hcontent, hempty⟩
    · rw [hnull]
      exact .inl rfl
    · rw [hcontent]
      refine .inr ⟨_, rfl, fun happend => ?_⟩
      rw [hempty happend]
      split <;> rfl
  · rw [hothers _ hplace]
    exact hf.node

end World

namespace Sink

/-- The path of the sink's file. -/
def path? (w : World) : Sink → Option String
  | .file id => w.openFiles[id]?.map (·.path)
  | _ => none

/-- The sink takes what is written to it: the terminal does not fail, or the file is open and nothing
waits to be written to it. -/
def Ready (sink : Sink) (w : World) : Prop :=
  match sink with
  | .terminal => w.terminal.faults.write = false
  | .file id => ∃ f n, w.openFiles[id]? = some f ∧ f.Holds w.files n ∧ w.files.node? f.path = some n
  | .null => True

/-- A sink that has just been opened. -/
def Fresh (sink : Sink) (w : World) : Prop :=
  match sink with
  | .terminal => w.terminal.faults.write = false
  | .file id => ∃ f, w.openFiles[id]? = some f ∧ f.Fresh w.files
  | .null => True

theorem Fresh.ready {sink : Sink} {w : World} (h : sink.Fresh w) : sink.Ready w := by
  cases sink with
  | terminal | null => exact h
  | file id =>
      obtain ⟨f, hf, hfresh⟩ := h
      obtain ⟨n, hholds, hnode⟩ := hfresh.holds
      exact ⟨f, n, hf, hholds, hnode⟩

end Sink

namespace Pipeline

variable {w v : World} {sink : Sink} {target : Option Line.OutputTarget}

theorem fresh_openSink (hsound : w.terminal.faults.write = false) (h : openSink w target = .ok (sink, v)) :
    sink.Fresh v := by
  cases target with
  | none =>
      cases h
      exact hsound
  | some target =>
      cases target with
      | null =>
          cases h
          exact trivial
      | file path append =>
          rcases hopen : w.openFile path append with e | ⟨id, u⟩
          · simp [openSink, openTarget, hopen, Except.map] at h
          · simp only [openSink, openTarget, hopen, Except.map] at h
            cases h
            exact World.fresh_openFile hopen

theorem fresh_of_openSink {other : Sink} (hfresh : sink.Fresh w) (h : openSink w target = .ok (other, v)) :
    sink.Fresh v := by
  cases target with
  | none =>
      cases h
      exact hfresh
  | some target =>
      cases target with
      | null =>
          cases h
          exact hfresh
      | file path append =>
          rcases hopen : w.openFile path append with e | ⟨id, u⟩
          · simp [openSink, openTarget, hopen, Except.map] at h
          · simp only [openSink, openTarget, hopen, Except.map] at h
            cases h
            have hkeep := fun f (hf : OpenFile.Fresh f w.files) => World.fresh_keep hf hopen
            obtain ⟨fs, place, -, rfl, rfl⟩ := World.openFile_eq_ok hopen
            cases sink with
            | terminal | null => exact hfresh
            | file id =>
                obtain ⟨f, hf, hnew⟩ := hfresh
                refine ⟨f, ?_, hkeep f hnew⟩
                dsimp only
                rw [List.getElem?_append_left (List.getElem?_eq_some_iff.1 hf).1, hf]

theorem ready_assemble {invocations : List Invocation} {input : ChainInput} {errorSink : Sink}
    {setting : Setting} (h : sink.Fresh w) :
    (assemble invocations input sink errorSink setting w).1.output.Ready
      (assemble invocations input sink errorSink setting w).2 :=
  h.ready

/-- The output of a pipeline that has been opened takes what is written to it. -/
theorem ready_of_openWith {invocations : List Invocation} {redirects : List Line.Redirect}
    {setting : Setting} {p : Pipeline} (hsound : w.terminal.faults.write = false)
    (h : openWith invocations redirects setting w = (.ok p, v)) : p.output.Ready v := by
  rw [openWith] at h
  rcases hredirects : Line.resolve w.home redirects with e | r
  · rw [hredirects] at h
    cases h
  · rw [hredirects] at h
    dsimp only at h
    rw [openResolved] at h
    rcases hinput : openInput w r.input with e | input
    · rw [hinput] at h
      cases h
    · rw [hinput] at h
      rcases hsink : openSink w r.output with e | ⟨output, u⟩
      · rw [hsink] at h
        cases h
      · have hfresh := fresh_openSink hsound hsink
        rw [hsink] at h
        dsimp only at h
        split at h
        · cases h
          exact ready_assemble hfresh
        · rcases herrors : openSink u r.errorOutput with e | ⟨errors, x⟩
          · rw [herrors] at h
            cases h
          · rw [herrors] at h
            cases h
            exact ready_assemble (fresh_of_openSink hfresh herrors)

end Pipeline

end CommandShell
