import CommandShell.Pipeline
import CommandShell.Proofs.Chain.KeyTraffic
import CommandShell.Proofs.Chain.Progress

/-!
The chain of a pipeline before its first step.
-/

namespace CommandShell.Pipeline

theorem length_workers (p : Pipeline) (w : World) (n i : Nat) (invocations : List Invocation) :
    (p.workers w n i invocations).length = invocations.length := by
  induction invocations generalizing i with
  | nil => rfl
  | cons invocation rest ih => simp [workers, ih]

theorem getElem?_workers (p : Pipeline) (w : World) (n i : Nat) (invocations : List Invocation) (j : Nat) :
    (p.workers w n i invocations)[j]? =
      invocations[j]?.map fun invocation => .start (p.context w n (i + j) invocation) invocation := by
  induction invocations generalizing i j with
  | nil => rfl
  | cons invocation rest ih =>
      cases j with
      | zero => rfl
      | succ j => simp [workers, ih, Nat.add_assoc, Nat.add_comm 1]

/-- Each stage of a pipeline is a worker of its chain. -/
theorem exists_invocation {p : Pipeline} {w : World} {i : Nat} {v : Worker}
    (h : (p.start w).workers[i]? = some v) :
    ∃ context invocation, p.invocations[i]? = some invocation ∧ v = .start context invocation := by
  rw [start, getElem?_workers, Option.map_eq_some_iff] at h
  obtain ⟨invocation, hi, rfl⟩ := h
  exact ⟨_, invocation, hi, rfl⟩

/-- The chain of a pipeline with a stage is fresh, so all that is said of fresh chains holds of it. -/
theorem fresh_start (p : Pipeline) (w : World) (h : p.invocations ≠ []) : (p.start w).Fresh := by
  have hpos := List.length_pos_iff.2 h
  refine ⟨?_, ?_, ?_⟩
  · simp only [start, length_workers, List.length_replicate]
    omega
  · intro l hl
    exact ⟨_, List.eq_of_mem_replicate hl⟩
  · intro v hv
    obtain ⟨i, hi⟩ := List.mem_iff_getElem?.1 hv
    obtain ⟨context, invocation, -, rfl⟩ := exists_invocation hi
    exact ⟨rfl, rfl⟩

/-- What was typed ahead is not handed to any stage. -/
theorem fresh_ends_start (p : Pipeline) (w : World) : (p.start w).ends.Fresh := by
  refine ⟨?_, rfl⟩
  intro keys hkeys
  obtain ⟨-, -, rfl⟩ := List.mem_map.1 hkeys
  rfl

theorem dropTyped_eq {p : Pipeline} (h : p.input ≠ .terminal) (w : World) : p.dropTyped w = w := by
  rw [dropTyped]
  split
  · next hinput => exact absurd hinput h
  · rfl

/-- A pipeline that does not read the terminal starts in the world as it is but for the mark that
output begins. -/
theorem world_start {p : Pipeline} (h : p.input ≠ .terminal) (w : World) :
    (p.start w).world = { w with terminal := w.terminal.beginOutput } :=
  dropTyped_eq h _

theorem output_start {p : Pipeline} (h : p.input ≠ .terminal) (w : World) :
    (p.start w).ends.output = .new p.output w.terminal.beginOutput := by
  simp only [start, dropTyped_eq h]

end CommandShell.Pipeline
