import CommandShell.Proofs.Pipeline.Report

/-!
When a pipeline counts as successful.  Success is read off the error lines, so a failure shows only if
it has a line.  Main statement: a pipeline succeeds exactly if no stage has been cancelled and all that
the later stages have left of failures are aggregates with no message in them.
-/

namespace CommandShell

namespace CommandError

/-- An aggregate of nothing but such aggregates. -/
inductive Leafless : CommandError → Prop
  | aggregate {inner : List CommandError} (h : ∀ e ∈ inner, e.Leafless) : Leafless (.aggregate inner)

theorem messagesOfAll_eq (es : List CommandError) : messagesOfAll es = es.flatMap messages := by
  induction es with
  | nil => rfl
  | cons e es ih => rw [messagesOfAll, ih, List.flatMap_cons]

theorem leafless_aggregate_iff {inner : List CommandError} :
    Leafless (.aggregate inner) ↔ ∀ e ∈ inner, e.Leafless := by
  constructor
  · rintro ⟨h⟩
    exact h
  · exact .aggregate

theorem messages_eq_nil_iff : ∀ e : CommandError, e.messages = [] ↔ e.Leafless
  | .aggregate inner => by
      rw [messages, messagesOfAll_eq, List.flatMap_eq_nil_iff, leafless_aggregate_iff]
      exact forall₂_congr fun e _ => messages_eq_nil_iff e
  | .message _ | .io _ | .setup _ | .cancelled | .panicked _ => ⟨nofun, nofun⟩

theorem render_eq_nil_iff {e : CommandError} (command : Option String) :
    e.render command = [] ↔ e.Leafless := by
  rw [← messages_eq_nil_iff]
  cases command with
  | none => rw [render]
  | some name =>
      rw [render]
      split
      · rfl
      · exact List.map_eq_nil_iff

end CommandError

theorem Completion.lines_eq_nil_iff {seats : List Seat} {x : Completion} :
    x.lines seats = [] ↔ ∀ e, x.failure? seats = some e → e.error.Leafless := by
  rw [lines]
  split
  · next e he =>
      rw [StageError.render, CommandError.render_eq_nil_iff]
      constructor
      · rintro h f hf
        cases he.symm.trans hf
        exact h
      · exact fun h => h e he
  · next hnone => simp [hnone]

namespace Pipeline

variable {p : Pipeline} {w : World} {c : Chain} {log : List Completion}

/-- A pipeline succeeds exactly if no stage completed after cancellation and every failure that the
later stages have let through is without a message. -/
theorem succeeded_iff_of_course (h : (p.start w).Course log c) (hfinished : c.isFinished = true) :
    (p.drain c).1.succeeded = true ↔ ∀ x ∈ log, x.cancelled = false ∧
      ∀ e, x.failure? (p.seats w) = some e → e.error.Leafless := by
  have hbooks := (books_start p w).of_course h
  obtain ⟨byStage, hperm, hrange⟩ := exists_byStage hbooks hfinished
  obtain ⟨hreport, -⟩ := report_eq hbooks hperm hrange
  rw [drain_eq, hreport, Report.succeeded, Bool.and_eq_true, Bool.not_eq_true', List.any_eq_false,
    List.isEmpty_iff, linesOf, List.append_eq_nil_iff, List.flatMap_eq_nil_iff]
  constructor
  · rintro ⟨⟨hlines, -⟩, hlive⟩ x hx
    exact ⟨by simpa using hlive x hx, Completion.lines_eq_nil_iff.1 (hlines x (hperm.mem_iff.2 hx))⟩
  · intro hall
    refine ⟨⟨fun x hx => Completion.lines_eq_nil_iff.2 (hall x (hperm.mem_iff.1 hx)).2, ?_⟩, ?_⟩
    · rw [find?_cancelled_eq_none hperm fun x hx => (hall x hx).1]
    · exact fun x hx => by simp [(hall x hx).1]

/-- A failure with a message is not passed over. -/
theorem succeeded_iff_of_course_of_messages :
    ((failingTwice.start bare).run 2).isFinished = true ∧
      (failingTwice.run 2 bare).1.succeeded = false := by
  have hcourse : (failingTwice.start bare).Course _ ((failingTwice.start bare).run 2) :=
    .step (i := 1) (.step (i := 0) .refl rfl) rfl
  refine ⟨rfl, Bool.eq_false_iff.2 fun hsucceeded => ?_⟩
  obtain ⟨-, hleafless⟩ := (succeeded_iff_of_course hcourse rfl).1 hsucceeded _ (List.mem_cons_self ..)
  nomatch hleafless _ rfl

/-- A stage that fails without a message. -/
def failingSilently : Pipeline where
  invocations := [stageOf "silent"
    { name := "silent", description := "", body := fun _ _ => .failing (.aggregate []) }]
  input := .null
  output := .null
  errorSink := .null
  token := 1
  guard := ⟨0, 0⟩
  setting := { registry := {} }

/-- The failure is an empty aggregate, no later stage swallows it, and yet the pipeline succeeds. -/
theorem succeeded_of_empty_aggregate :
    ∃ log x, (failingSilently.start bare).Course log ((failingSilently.start bare).run 1) ∧
      ((failingSilently.start bare).run 1).isFinished = true ∧
      x ∈ log ∧ x.result = .error (.aggregate []) ∧
      (x.failure? (failingSilently.seats bare)).isSome = true ∧
      (failingSilently.run 1 bare).1.succeeded = true := by
  have hcourse : (failingSilently.start bare).Course _ ((failingSilently.start bare).run 1) :=
    .step (i := 0) .refl rfl
  obtain ⟨hreport, -⟩ := report_eq ((books_start _ _).of_course hcourse) (.refl _) rfl
  refine ⟨_, _, hcourse, rfl, List.mem_singleton_self _, rfl, rfl, ?_⟩
  rw [run, drain_eq, hreport]
  rfl

end Pipeline

end CommandShell
