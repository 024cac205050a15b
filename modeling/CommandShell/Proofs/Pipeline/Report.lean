import CommandShell.Proofs.Chain.Completion
import CommandShell.Proofs.Lists
import CommandShell.Proofs.Pipeline.Start
import CommandShell.Sample
import Mathlib.Data.List.Nodup

/-!
The report on a pipeline.  Main statement: whatever course a pipeline has taken, its error lines, the
text that it shows, and whether it counts as cancelled follow from what its stages have completed with.
The order of the completions matters only as far as it tells which of them came after cancellation.
-/

namespace CommandShell

namespace Completion

/-- The lines that report the stage's failure. -/
def lines (seats : List Seat) (x : Completion) : List String :=
  match x.failure? seats with
  | some e => e.render
  | none => []

end Completion

namespace Pipeline

/-- What the stages of a pipeline are set up with. -/
def seats (p : Pipeline) (w : World) : List Seat := (p.start w).workers.map Worker.seat

/-- The line that tells that a command has been cancelled. -/
def cancelLine (name : String) : String :=
  if name.isEmpty then "Command cancelled." else name ++ ": " ++ "Command cancelled."

/-- The error lines of completions that are given in the order of their stages. -/
def linesOf (seats : List Seat) (endingHard : Bool) (byStage : List Completion) : List String :=
  byStage.flatMap (·.lines seats) ++
    match byStage.find? (·.cancelled) with
    | none => []
    | some x =>
      if endingHard then [] else [cancelLine ((seats[x.stage]?).elim "" (·.context.name))]

/-- The text that goes to the error output: what the stages have queued, then the error lines. -/
def textOf (lines : List String) (byStage : List Completion) : String :=
  String.join (byStage.map fun x => endErrorText x.queued) ++ String.join (lines.map (· ++ "\n"))

/-- What is left to be done after the error text has been shown. -/
def settle (p : Pipeline) (c : Chain) (w : World) : World :=
  let w := p.endOutput c (p.errorSink.flush w)
  { w with tokens := (w.tokens.release p.guard).drop p.token, openFiles := [] }

theorem render_cancelled (name : String) :
    CommandError.cancelled.render (some name) = [cancelLine name] := by
  have hmessages : CommandError.cancelled.messages = ["Command cancelled."] := rfl
  rw [CommandError.render, cancelLine, hmessages]
  split <;> rfl

theorem drain_eq (p : Pipeline) (c : Chain) : p.drain c =
    (report c, p.settle c
      (p.errorSink.writeErrors c.world (errorText c) p.setting.settings.errorColor).2) := rfl

/-! ### In the order of the stages -/

theorem mergeSort_eq_of_pairwise {α : Type} {key : α → Nat} {l m : List α} (h : l.Perm m)
    (hm : m.Pairwise fun a b => key a < key b) : l.mergeSort (fun a b => key a ≤ key b) = m := by
  have hnodup : (l.map key).Nodup := (h.map key).nodup_iff.2 (List.pairwise_map.2 (hm.imp Nat.ne_of_lt))
  rw [mergeSort_eq_of_perm hnodup h]
  exact List.mergeSort_of_pairwise (hm.imp fun hlt => decide_eq_true (Nat.le_of_lt hlt))

variable {p : Pipeline} {w : World} {c : Chain} {seats : List Seat} {log byStage : List Completion} {n : Nat}

theorem pairwise_of_range (h : byStage.map (·.stage) = List.range n) :
    byStage.Pairwise fun x y => x.stage < y.stage := by
  have hlt := h ▸ List.pairwise_lt_range (n := n)
  exact List.pairwise_map.1 hlt

theorem exists_byStage (h : Chain.Books seats log c) (hfinished : c.isFinished = true) :
    ∃ byStage : List Completion, byStage.Perm log ∧
      byStage.map (·.stage) = List.range seats.length := by
  -- when all stages have finished each of them is in the log, and none is in it twice
  have hstages : (log.map (·.stage)).Perm (List.range seats.length) := by
    refine (List.perm_ext_iff_of_nodup h.nodup List.nodup_range).2 fun i => ?_
    rw [List.mem_range, ← h.length_workers]
    constructor
    · intro hi
      obtain ⟨x, hx, rfl⟩ := List.mem_map.1 hi
      obtain ⟨v, hv, -⟩ := h.stages x hx
      exact (List.getElem?_eq_some_iff.1 hv).1
    · intro hi
      exact h.finished (List.getElem?_eq_getElem hi) (List.all_eq_true.1 hfinished _ (List.getElem_mem hi))
  have hperm := List.mergeSort_perm log fun x y => x.stage ≤ y.stage
  refine ⟨_, hperm, ?_⟩
  exact ((hperm.map _).trans hstages).eq_of_pairwise (fun _ _ _ _ => Nat.le_antisymm)
    (List.pairwise_map.2 (pairwise_mergeSort log _)) List.pairwise_le_range

theorem find?_cancelled_eq_none (hperm : byStage.Perm log) (hlive : ∀ x ∈ log, x.cancelled = false) :
    byStage.find? (·.cancelled) = none :=
  List.find?_eq_none.2 fun x hx => by simp [hlive x (hperm.mem_iff.1 hx)]

theorem failureLines_eq (h : Chain.Books seats log c) (hperm : byStage.Perm log)
    (hrange : byStage.map (·.stage) = List.range n) :
    failureLines c.failures = byStage.flatMap (·.lines seats) := by
  have hsorted : (byStage.filterMap fun x => (x.failure? seats).map (x.stage, ·)).Pairwise
      fun a b => a.1 < b.1 := by
    refine (pairwise_of_range hrange).filterMap _ ?_
    intro x y hxy a ha b hb
    obtain ⟨e, -, rfl⟩ := Option.map_eq_some_iff.1 ha
    obtain ⟨f, -, rfl⟩ := Option.map_eq_some_iff.1 hb
    exact hxy
  have hfailures := (hperm.filterMap fun x => (x.failure? seats).map (x.stage, ·)).symm
  rw [← h.failures] at hfailures
  rw [failureLines, mergeSort_eq_of_pairwise hfailures hsorted]
  clear hsorted hfailures hrange hperm
  induction byStage with
  | nil => rfl
  | cons x rest ih =>
      rw [List.flatMap_cons, ← ih, List.filterMap_cons, Completion.lines]
      cases x.failure? seats <;> rfl

theorem cancelledAt_eq (h : Chain.Books seats log c) (hperm : byStage.Perm log)
    (hrange : byStage.map (·.stage) = List.range n) :
    c.cancelledAt = (byStage.find? (·.cancelled)).map (·.stage) := by
  rw [h.cancelledAt]
  rcases hfind : byStage.find? (·.cancelled) with _ | x
  · have hnone : log.filter (·.cancelled) = [] := by
      rw [List.filter_eq_nil_iff]
      intro x hx
      exact List.find?_eq_none.1 hfind x (hperm.mem_iff.2 hx)
    rw [hfind, hnone]
    rfl
  · obtain ⟨hx, before, after, hsplit, hbefore⟩ := List.find?_eq_some_iff_append.1 hfind
    have hsorted := pairwise_of_range hrange
    rw [hsplit] at hsorted
    rw [hfind, Option.map_some, List.min?_eq_some_iff]
    -- no stage before the first cancelled one is cancelled, and those after it are larger
    refine ⟨List.mem_map_of_mem (List.mem_filter.2 ⟨hperm.mem_iff.1 (by simp [hsplit]), hx⟩), ?_⟩
    intro i hi
    obtain ⟨y, hy, rfl⟩ := List.mem_map.1 hi
    obtain ⟨hy, hyc⟩ := List.mem_filter.1 hy
    rw [← hperm.mem_iff, hsplit, List.mem_append, List.mem_cons] at hy
    rcases hy with hy | rfl | hy
    · simpa [hyc] using hbefore y hy
    · exact Nat.le_refl _
    · exact Nat.le_of_lt (List.rel_of_pairwise_cons (List.pairwise_append.1 hsorted).2.1 hy)

theorem errorTexts_eq (h : Chain.Books seats log c) (hperm : byStage.Perm log)
    (hrange : byStage.map (·.stage) = List.range seats.length) :
    c.workers.map (·.errorText) = byStage.map fun x => endErrorText x.queued := by
  have hworkers : c.workers.map (·.errorText) =
      (List.range c.workers.length).map fun i => (c.workers[i]?).elim "" (·.errorText) := by
    refine List.ext_getElem (by simp) fun i hi _ => ?_
    rw [List.length_map] at hi
    simp [hi]
  rw [hworkers, h.length_workers, ← hrange, List.map_map]
  refine List.map_congr_left fun x hx => ?_
  obtain ⟨v, hv, -, htext⟩ := h.stages x (hperm.mem_iff.1 hx)
  simp [hv, htext]

theorem report_eq (h : Chain.Books seats log c) (hperm : byStage.Perm log)
    (hrange : byStage.map (·.stage) = List.range seats.length) :
    report c = { errors := linesOf seats c.world.isEndingHard byStage, cancelled := log.any (·.cancelled) } ∧
      errorText c = textOf (linesOf seats c.world.isEndingHard byStage) byStage := by
  have hcancelledAt := cancelledAt_eq h hperm hrange
  have hcancelLines : cancelLines c = match byStage.find? (·.cancelled) with
      | none => []
      | some x =>
        if c.world.isEndingHard then [] else [cancelLine ((seats[x.stage]?).elim "" (·.context.name))] := by
    rw [cancelLines, hcancelledAt]
    cases hfind : byStage.find? (·.cancelled) with
    | none => rfl
    | some x =>
        obtain ⟨v, hv, -⟩ := h.stages x (hperm.mem_iff.1 (List.mem_of_find?_eq_some hfind))
        have hseat : seats[x.stage]? = some v.seat := by
          rw [← h.workers, List.getElem?_map, hv]
          rfl
        simp only [Option.map_some, hv, hseat, Option.elim_some]
        rw [render_cancelled]
        rfl
  have hreport : report c =
      { errors := linesOf seats c.world.isEndingHard byStage, cancelled := log.any (·.cancelled) } := by
    rw [report, failureLines_eq h hperm hrange, hcancelLines, linesOf, hcancelledAt, Option.isSome_map,
      List.isSome_find?, hperm.any_eq]
  refine ⟨hreport, ?_⟩
  rw [errorText, errorTexts_eq h hperm hrange, hreport]
  rfl

/-! ### From the start -/

theorem books_start (p : Pipeline) (w : World) : Chain.Books (p.seats w) [] (p.start w) := by
  refine Chain.books_of_running ?_ rfl rfl
  intro v hv
  obtain ⟨i, hi⟩ := List.mem_iff_getElem?.1 hv
  obtain ⟨context, invocation, -, rfl⟩ := exists_invocation hi
  rfl

theorem length_seats (p : Pipeline) (w : World) : (p.seats w).length = p.invocations.length := by
  rw [seats, List.length_map]
  exact length_workers p _ _ _ _

/-- What is shown and reported after a pipeline.  The stages that completed before cancellation come
first in every course; in the order of the stages, the failures of these are reported as the later
stages leave them, and then the first of the others as cancelled.  Without cancellation all courses
with the same completions are reported on in the same way, whatever their order. -/
theorem drain_of_course (h : (p.start w).Course log c) (hfinished : c.isFinished = true) :
    (log.Pairwise fun x y => x.cancelled = true → y.cancelled = true) ∧
      (∃ byStage : List Completion, byStage.Perm log ∧
        byStage.map (·.stage) = List.range p.invocations.length ∧
        let lines := linesOf (p.seats w) c.world.isEndingHard byStage
        p.drain c = ({ errors := lines, cancelled := log.any (·.cancelled) },
          p.settle c (p.errorSink.writeErrors c.world (textOf lines byStage)
            p.setting.settings.errorColor).2)) ∧
      ∀ {log' : List Completion} {c' : Chain}, (p.start w).Course log' c' → c'.isFinished = true →
        log'.Perm log → (∀ x ∈ log, x.cancelled = false) →
        report c' = report c ∧ errorText c' = errorText c := by
  have hbooks := (books_start p w).of_course h
  obtain ⟨byStage, hperm, hrange⟩ := exists_byStage hbooks hfinished
  obtain ⟨hreport, htext⟩ := report_eq hbooks hperm hrange
  refine ⟨hbooks.order, ⟨byStage, hperm, ?_, ?_⟩, ?_⟩
  · rw [hrange, length_seats]
  · rw [drain_eq, hreport, htext]
  · intro log' c' h' hfinished' hperm' hlive
    obtain ⟨hreport', htext'⟩ := report_eq ((books_start p w).of_course h') (hperm.trans hperm'.symm) hrange
    rw [hreport', htext', hreport, htext, hperm'.any_eq]
    simp only [linesOf, find?_cancelled_eq_none hperm hlive, and_self]

/-- A stage that calls a command under a name. -/
def stageOf (name : String) (command : Command) : Invocation where
  stage := .command ⟨command, { qualifier := "", name := "" }⟩ ⟨none, {}, {}⟩
  name
  rawText := name

/-- A world with nothing in it but a session. -/
def bare : World := .detached ⟨.empty, ""⟩ none {}

/-- Two stages that fail. -/
def failingTwice : Pipeline where
  invocations := [stageOf "one" Sample.fail, stageOf "two" Sample.fail]
  input := .null
  output := .null
  errorSink := .null
  token := 1
  guard := ⟨0, 0⟩
  setting := { registry := {} }

/-- The second stage fails, the pipeline is cancelled from outside, and then the first stage fails. -/
theorem drain_of_course_of_late_cancel :
    ∃ log c, (failingTwice.start bare).Course log c ∧ c.isFinished = true ∧
      log.map (fun x => (x.stage, x.cancelled)) = [(1, false), (0, true)] ∧
      ∃ byStage : List Completion, byStage.Perm log ∧ byStage.map (·.stage) = [0, 1] ∧
        (failingTwice.drain c).1 = { errors := ["two: boom", "one: Command cancelled."], cancelled := true } := by
  let v : World := { bare with tokens := { tokens := [{ id := 0 }, { id := 1, cancelled := true }], next := 2 } }
  have hfirst := Chain.Course.step (i := 1) (.refl (c := failingTwice.start bare)) rfl
  have hsecond := Chain.Course.step (i := 0) (.outside (w := v) hfirst fun _ => rfl) rfl
  obtain ⟨-, ⟨byStage, hperm, hrange, hdrain⟩, -⟩ := drain_of_course hsecond rfl
  obtain ⟨hreport, -⟩ := report_eq ((books_start _ _).of_course hsecond) (List.reverse_perm _) rfl
  refine ⟨_, _, hsecond, rfl, rfl, byStage, hperm, hrange, ?_⟩
  rw [drain_eq, hreport]
  rfl

end Pipeline

end CommandShell
