import CommandShell.Proofs.Line.Spelling
import Mathlib.Order.WellFounded

/-!
Scanning a line one step of the lexer at a time.  A step consumes the first character that is not consumed yet,
rejects it, or leaves it to the next step.  Main statement: the scan ends with what the line is read as, and takes
at most three steps for each character, as each step that leaves one is to a state of lower rank.
-/

namespace CommandShell.Line

open Text

/-- Where the scan of a line is: so many characters are consumed, or one has been rejected. -/
inductive Scan where
  | reading (lexer : Lexer) (consumed : Nat)
  | rejected (mistake : ParseError)

namespace Scan

def start : Scan := reading {} 0

/-- One step on the first character that is not consumed, if there is one. -/
def next (chars : List Char) : Scan → Option Scan
  | reading l i =>
    match chars[i]? with
    | none => none
    | some c =>
      match l.step c (i + 1) with
      | .error e => some (rejected e)
      | .ok (.consumed m) => some (reading m (i + 1))
      | .ok (.again m) => some (reading m i)
  | rejected _ => none

/-- So many steps lead from the one place to the other. -/
inductive Steps (chars : List Char) : Nat → Scan → Scan → Prop
  | refl (s : Scan) : Steps chars 0 s s
  | head {k : Nat} {s t u : Scan} (h : s.next chars = some t) (hs : Steps chars k t u) : Steps chars (k + 1) s u

/-- What the line is read as if the scan ends here. -/
def result : Scan → Except ParseError (List Token)
  | reading l _ => l.finish
  | rejected e => .error e

/-- What the line is read as from here on, each character until it is consumed or rejected. -/
def outcome (chars : List Char) : Scan → Except ParseError (List Token)
  | reading l i => l.run (i + 1) (chars.drop i)
  | rejected e => .error e

/-- Of the characters, counted from 0, number `i` is the last one that has been consumed, or one has been
rejected. -/
def Settled (i : Nat) : Scan → Prop
  | reading _ consumed => consumed = i + 1
  | rejected _ => True

/-- A bound on the steps from here on. -/
def stepsLeft (chars : List Char) : Scan → Nat
  | reading l i => 3 * (chars.length - i) + l.state.rank
  | rejected _ => 0

variable {chars : List Char} {s t : Scan} {c : Char} {i k : Nat}

/-! ### One step -/

/-- There is a step on every character that is not consumed. -/
theorem exists_next (hc : chars[i]? = some c) (l : Lexer) : ∃ t, (reading l i).next chars = some t := by
  simp only [next, hc]
  split
  · exact ⟨_, rfl⟩
  · exact ⟨_, rfl⟩
  · exact ⟨_, rfl⟩

/-- What a step can be. -/
theorem next_cases (h : s.next chars = some t) : ∃ l i c, s = reading l i ∧ chars[i]? = some c ∧
    ((∃ e, l.step c (i + 1) = .error e ∧ t = rejected e) ∨
      (∃ m, l.step c (i + 1) = .ok (.consumed m) ∧ t = reading m (i + 1)) ∨
      ∃ m, l.step c (i + 1) = .ok (.again m) ∧ t = reading m i) := by
  cases s with
  | rejected e => cases h
  | reading l i =>
      cases hc : chars[i]? with
      | none =>
          simp only [next, hc] at h
          cases h
      | some c =>
          refine ⟨l, i, c, rfl, hc, ?_⟩
          simp only [next, hc] at h
          split at h
          · next e hstep => exact .inl ⟨e, hstep, (Option.some.inj h).symm⟩
          · next m hstep => exact .inr (.inl ⟨m, hstep, (Option.some.inj h).symm⟩)
          · next m hstep => exact .inr (.inr ⟨m, hstep, (Option.some.inj h).symm⟩)

/-- Each step leaves fewer to come. -/
theorem stepsLeft_lt_of_next (h : s.next chars = some t) : t.stepsLeft chars < s.stepsLeft chars := by
  obtain ⟨l, i, c, rfl, hc, hstep⟩ := next_cases h
  obtain ⟨hi, -⟩ := List.getElem?_eq_some_iff.1 hc
  rcases hstep with ⟨e, -, rfl⟩ | ⟨m, -, rfl⟩ | ⟨m, hagain, rfl⟩
  · simp only [stepsLeft]
    omega
  · -- the rank may go up, by less than what one more character consumed takes away
    have hrank := Lexer.rank_le_two m.state
    simp only [stepsLeft]
    omega
  · have hrank := Lexer.rank_lt_of_step hagain
    simp only [stepsLeft]
    omega

theorem outcome_of_next (h : s.next chars = some t) : s.outcome chars = t.outcome chars := by
  obtain ⟨l, i, c, rfl, hc, hstep⟩ := next_cases h
  obtain ⟨hi, rfl⟩ := List.getElem?_eq_some_iff.1 hc
  have hdrop := List.drop_eq_getElem_cons hi
  rcases hstep with ⟨e, herror, rfl⟩ | ⟨m, hconsumed, rfl⟩ | ⟨m, hagain, rfl⟩
  · simp only [outcome]
    rw [hdrop, Lexer.run_of_error herror]
  · simp only [outcome]
    rw [hdrop, Lexer.run_of_consumed hconsumed]
  · simp only [outcome]
    rw [hdrop, Lexer.run_of_again hagain]

theorem outcome_of_end (h : s.next chars = none) : s.outcome chars = s.result := by
  cases s with
  | rejected e => rfl
  | reading l i =>
      cases hc : chars[i]? with
      | none => rw [outcome, List.drop_eq_nil_of_le (List.getElem?_eq_none_iff.1 hc), Lexer.run, result]
      | some c =>
          obtain ⟨t, ht⟩ := exists_next hc l
          rw [ht] at h
          cases h

/-! ### Several steps -/

theorem Steps.add_stepsLeft_le (h : Steps chars k s t) : k + t.stepsLeft chars ≤ s.stepsLeft chars := by
  induction h with
  | refl s => exact (Nat.zero_add _).le
  | head h _ ih =>
      have hlt := stepsLeft_lt_of_next h
      omega

theorem Steps.outcome_eq (h : Steps chars k s t) : s.outcome chars = t.outcome chars := by
  induction h with
  | refl s => rfl
  | head h _ ih => exact (outcome_of_next h).trans ih

theorem exists_end (chars : List Char) (s : Scan) : ∃ k t, Steps chars k s t ∧ t.next chars = none := by
  induction hn : s.stepsLeft chars using Nat.strongRecOn generalizing s with
  | _ n ih =>
      cases h : s.next chars with
      | none => exact ⟨0, s, .refl s, h⟩
      | some t =>
          obtain ⟨k, u, hsteps, hend⟩ := ih _ (hn ▸ stepsLeft_lt_of_next h) t rfl
          exact ⟨k + 1, u, .head h hsteps, hend⟩

/-- A character is consumed or rejected after at most one step more than the rank of the state it is met in. -/
theorem exists_settled (hc : chars[i]? = some c) (l : Lexer) :
    ∃ k t, k ≤ l.state.rank + 1 ∧ Steps chars k (reading l i) t ∧ t.Settled i := by
  induction hn : l.state.rank using Nat.strongRecOn generalizing l with
  | _ n ih =>
      obtain ⟨s, hs⟩ := exists_next hc l
      obtain ⟨_, _, _, hl, -, hstep⟩ := next_cases hs
      cases hl
      rcases hstep with ⟨e, -, rfl⟩ | ⟨m, -, rfl⟩ | ⟨m, hagain, rfl⟩
      · exact ⟨1, rejected e, by omega, .head hs (.refl _), trivial⟩
      · exact ⟨1, reading m (i + 1), by omega, .head hs (.refl _), rfl⟩
      · have hrank := hn ▸ Lexer.rank_lt_of_step hagain
        obtain ⟨k, t, hk, hsteps, hsettled⟩ := ih _ hrank m rfl
        exact ⟨k + 1, t, by omega, .head hs hsteps, hsettled⟩

/-! ### Whole lines -/

/-- The scan of a line ends with what the line is read as, unless it is blank and not scanned at all, and no scan
takes more than three steps for each character of its line.  A character that a step leaves, whatever the lexer has
come to, is consumed or rejected after at most two more, and no scan goes on forever. -/
theorem ends_within_three_steps_each (line : String) :
    (∃ k t, Steps line.toList k start t ∧ t.next line.toList = none ∧
      tokenize line = if isAllBlank line then .error .emptyLine else t.result) ∧
    (∀ k t, Steps line.toList k start t → k ≤ 3 * line.length) ∧
    (∀ l m i, (reading l i).next line.toList = some (reading m i) →
      ∃ k t, k ≤ 2 ∧ Steps line.toList k (reading m i) t ∧ t.Settled i) ∧
    ¬∃ f : Nat → Scan, ∀ k, (f k).next line.toList = some (f (k + 1)) := by
  refine ⟨?_, ?_, ?_, ?_⟩
  · obtain ⟨k, t, hsteps, hend⟩ := exists_end line.toList start
    refine ⟨k, t, hsteps, hend, ?_⟩
    rw [← outcome_of_end hend, ← hsteps.outcome_eq]
    rfl
  · intro k t hsteps
    have hle := hsteps.add_stepsLeft_le
    simp only [start, stepsLeft, Lexer.State.rank, String.length_toList] at hle
    omega
  · intro l m i h
    obtain ⟨_, _, c, hs, hc, -⟩ := next_cases h
    cases hs
    obtain ⟨k, t, hk, hsteps, hsettled⟩ := exists_settled hc m
    have hrank : m.state.rank < l.state.rank := Nat.lt_of_add_lt_add_left (stepsLeft_lt_of_next h)
    have hl := Lexer.rank_le_two l.state
    exact ⟨k, t, by omega, hsteps, hsettled⟩
  · rintro ⟨f, hf⟩
    obtain ⟨k, hk⟩ := WellFounded.not_rel_apply_succ (r := (· < ·)) fun k => (f k).stepsLeft line.toList
    exact hk (stepsLeft_lt_of_next (hf k))

/-- The `=` after a digit is left twice before it is consumed. -/
theorem ends_within_three_steps_each_of_digit :
    (reading { state := .digit, text := "1", start := 1 } 1).next "1=".toList =
      some (reading { state := .word, text := "1", start := 1 } 1) ∧
    ∃ k t, k ≤ 2 ∧ Steps "1=".toList k (reading { state := .word, text := "1", start := 1 } 1) t ∧ t.Settled 1 := by
  have hagain : (reading { state := .digit, text := "1", start := 1 } 1).next "1=".toList =
      some (reading { state := .word, text := "1", start := 1 } 1) := rfl
  exact ⟨hagain, (ends_within_three_steps_each "1=").2.2.1 _ _ _ hagain⟩

end Scan

end CommandShell.Line
