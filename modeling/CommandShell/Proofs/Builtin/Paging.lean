import CommandShell.Builtin.Paging
import CommandShell.Proofs.Command.Dialogue
import Mathlib.Data.List.Induction

/-!
What `more` shows on a terminal.  Main statement: the rows that it writes are those of its lines in their order,
without one left out or written twice; a page of them comes before the first prompt, and after a prompt as many as
the answer grants.
-/

namespace CommandShell.Builtin.Paging

open Text

/-! ### Rows -/

/-- The rows of a line. -/
def rowsOf (width : Nat) (line : String) : List String := (wrap width line).1 :: (wrap width line).2

section Rows

variable {α : Type} {width fuel : Nat}

theorem flatten_chunks (hwidth : 0 < width) {xs : List α} (hfuel : xs.length ≤ fuel) :
    (chunks width fuel xs).flatten = xs := by
  induction fuel generalizing xs with
  | zero =>
      obtain rfl := List.eq_nil_of_length_eq_zero (Nat.le_zero.1 hfuel)
      rfl
  | succ fuel ih =>
      cases xs with
      | nil => rfl
      | cons x xs =>
          have hrest : ((x :: xs).drop width).length ≤ fuel := by
            rw [List.length_drop]
            rw [List.length_cons] at hfuel ⊢
            omega
          rw [chunks, List.flatten_cons, ih hrest, List.take_append_drop]

theorem length_le_of_mem_chunks {xs part : List α} (h : part ∈ chunks width fuel xs) : part.length ≤ width := by
  induction fuel generalizing xs with
  | zero => cases h
  | succ fuel ih =>
      cases xs with
      | nil => cases h
      | cons x xs =>
          rcases List.mem_cons.1 h with rfl | h
          · exact List.length_take_le _ _
          · exact ih h

/-- The rows of a line fit, and they are the characters of the line that are shown. -/
theorem rowsOf_exact (hwidth : 0 < width) (line : String) :
    (∀ row ∈ rowsOf width line, row.length ≤ width) ∧ (rowsOf width line).flatMap (·.toList) = shown line := by
  have hflatten := flatten_chunks hwidth (Nat.le_refl (shown line).length)
  rw [rowsOf, wrap]
  rcases hparts : chunks width (shown line).length (shown line) with _ | ⟨first, rest⟩
  · rw [hparts] at hflatten
    exact ⟨List.forall_mem_singleton.2 (Nat.zero_le _), by simpa using hflatten⟩
  · rw [hparts] at hflatten
    refine ⟨fun row hrow => ?_, ?_⟩
    · obtain ⟨part, hpart, rfl⟩ := List.mem_map.1 (show row ∈ (first :: rest).map String.ofList from hrow)
      rw [String.length_ofList]
      exact length_le_of_mem_chunks (hparts ▸ hpart)
    · rw [← List.map_cons (f := String.ofList), List.flatMap_map]
      simpa [List.flatMap_def] using hflatten

end Rows

/-! ### What has passed -/

/-- The rows that have been written. -/
def written (log : List Exchange) : List String :=
  log.filterMap fun
    | .said (.writeLine row) => some row
    | _ => none

/-- The lines that have come: those of a file, or those of the input one by one. -/
def given (log : List Exchange) : List String :=
  log.flatMap fun
    | .loaded text => lines text
    | .heard (some line) => [line]
    | _ => []

/-- All lines have come: those of the file, or those before the input has ended. -/
def Supplied (log : List Exchange) : Prop :=
  (∃ text, .loaded text ∈ log ∧ given log = lines text) ∨ .heard none ∈ log

/-- The prompt has been answered with the key to leave. -/
def Left (log : List Exchange) : Prop :=
  .pressed (some (.char 'q')) ∈ log ∨ .pressed (some (.char 'Q')) ∈ log

/-- The pipeline was found to be cancelled, at a prompt or after the last line. -/
def Cancelled (log : List Exchange) : Prop := .pressed none ∈ log ∨ .told true ∈ log

def IsPrompt (e : Exchange) : Prop := e = .said (.write prompt)

/-- How many rows an answer grants: a page, one, or none before the end.  Other keys are no answers. -/
def grant? (page : Nat) : Option Key → Option Nat
  | some (.char ' ') => some page
  | some (.char '\r') | some (.char '\n') => some 1
  | none | some (.char 'q') | some (.char 'Q') => some 0
  | some _ => none

/-- How many rows have been granted last, how many of them have been written, and whether a prompt waits for its
answer. -/
structure Tally where
  granted : Nat
  rows : Nat := 0
  prompted : Bool := false

namespace Tally

def add (page : Nat) (t : Tally) : Exchange → Tally
  | .said (.writeLine _) => { t with rows := t.rows + 1 }
  | .said (.write text) => if text = prompt then { t with prompted := true } else t
  | .pressed key =>
    match grant? page key with
    | some n => { granted := n }
    | none => t
  | _ => t

/-- What may pass next: a row if it is granted, the prompt if none is, and a key if there is a prompt. -/
def Allows (t : Tally) : Exchange → Prop
  | .said (.writeLine _) => t.prompted = false ∧ t.rows < t.granted
  | .said (.write text) => text = prompt → t.prompted = false ∧ t.rows = t.granted
  | .pressed _ => t.prompted = true
  | _ => True

end Tally

def tally (page : Nat) (log : List Exchange) : Tally := log.foldl (Tally.add page) { granted := page }

/-- Rows, prompts and keys have each come where they may, and a prompt only while rows were left. -/
def Orderly (width page : Nat) (log : List Exchange) : Prop :=
  ∀ before e after, log = before ++ e :: after → (tally page before).Allows e ∧
    (IsPrompt e → written before ≠ (given before).flatMap (rowsOf width))

section Log

variable {width page n : Nat} {log before between after : List Exchange} {e : Exchange} {key : Option Key}

theorem tally_concat : tally page (log ++ [e]) = (tally page log).add page e := by
  rw [tally, List.foldl_append]
  rfl

theorem tally_answer (hkey : grant? page key = some n) :
    tally page (log ++ [.pressed key]) = { granted := n } := by
  rw [tally_concat, Tally.add, hkey]

theorem orderly_nil : Orderly width page [] := fun before e after h => absurd h (by simp)

theorem Orderly.concat (h : Orderly width page log) (he : (tally page log).Allows e)
    (hpending : IsPrompt e → written log ≠ (given log).flatMap (rowsOf width)) : Orderly width page (log ++ [e]) := by
  intro before e' after heq
  rcases List.eq_nil_or_concat after with rfl | ⟨after, last, rfl⟩
  · obtain ⟨rfl, hlast⟩ := List.append_inj' heq rfl
    cases hlast
    exact ⟨he, hpending⟩
  · have hsplit : log ++ [e] = (before ++ e' :: after) ++ [last] := by simpa using heq
    exact h before e' after (List.append_inj' hsplit rfl).1

theorem Orderly.left (h : Orderly width page (log ++ after)) : Orderly width page log := by
  rintro before e rest rfl
  exact h before e (rest ++ after) (by simp)

/-- Without a prompt there is no answer, and the rows are all that is counted. -/
theorem tally_of_no_prompt (h : Orderly width page (before ++ between))
    (hprompted : (tally page before).prompted = false) (hquiet : ∀ e ∈ between, ¬IsPrompt e) :
    tally page (before ++ between) =
      { tally page before with rows := (tally page before).rows + (written between).length } := by
  induction between using List.reverseRecOn with
  | nil => simp [written]
  | append_singleton between e ih =>
      rw [← List.append_assoc] at h ⊢
      obtain ⟨hquiet, he⟩ := List.forall_mem_append.1 hquiet
      have ih := ih h.left hquiet
      have hallowed := (h _ e [] rfl).1
      rw [tally_concat, ih]
      cases e with
      | said action =>
          cases action with
          | write text =>
              have htext : text ≠ prompt := fun heq => he _ (List.mem_singleton_self _) (by rw [heq]; rfl)
              simp [Tally.add, htext, written]
          | writeLine row => simp [Tally.add, written, Nat.add_assoc]
          | newLine | clearScreen => simp [Tally.add, written]
      | pressed key =>
          -- a key comes only if a prompt waits for it
          rw [ih] at hallowed
          cases hprompted.symm.trans hallowed
      | heard text | loaded text | told cancelled => simp [Tally.add, written]

theorem rows_le_granted (h : Orderly width page log) : (tally page log).rows ≤ (tally page log).granted := by
  induction log using List.reverseRecOn with
  | nil => exact Nat.zero_le _
  | append_singleton log e ih =>
      have ih := ih h.left
      have hallowed := (h log e [] rfl).1
      rw [tally_concat]
      cases e with
      | said action =>
          cases action with
          | write text =>
              rw [Tally.add]
              split <;> exact ih
          | writeLine row => exact hallowed.2
          | newLine | clearScreen => exact ih
      | pressed key =>
          rw [Tally.add]
          split
          · exact Nat.zero_le _
          · exact ih
      | heard text | loaded text | told cancelled => exact ih

end Log

/-! ### What is still to come -/

namespace State

/-- The rows still to come of the lines that have come; none is shown any more at the end. -/
def ahead? (width : Nat) : State → Option (List String)
  | .load _ => some []
  | .nextLine source _ => some ((source.getD []).flatMap (rowsOf width))
  | .row source first rest _ | .prompt source first rest | .key source first rest | .erase source first rest _ =>
    some (first :: rest ++ (source.getD []).flatMap (rowsOf width))
  | .quit | .finish _ => none

/-- The lines of a file, or what is known of them after the input has ended. -/
def source? : State → Source
  | .nextLine source _ | .row source _ _ _ | .prompt source _ _ | .key source _ _ | .erase source _ _ _ => source
  | .load _ | .quit | .finish _ => none

/-- The budget is what is granted and has not been used. -/
def Agrees (page : Nat) : State → Tally → Prop
  | .load _, t => t.prompted = false ∧ t.rows + page = t.granted
  | .nextLine _ budget, t | .row _ _ _ budget, t | .erase _ _ _ budget, t =>
    t.prompted = false ∧ t.rows + budget = t.granted
  | .prompt .., t => t.prompted = false ∧ t.rows = t.granted
  | .key .., t => t.prompted = true ∧ t.rows = t.granted
  | .quit, _ | .finish _, _ => True

/-- Why there is nothing more to show. -/
def Accounts (width : Nat) (log : List Exchange) : State → Prop
  | .quit => Left log
  | .finish false => Left log ∨ (Supplied log ∧ written log = (given log).flatMap (rowsOf width))
  | .finish true => Cancelled log
  | .load _ => given log = []
  | _ => True

end State

/-- What holds when `more` comes to a state. -/
structure Stands (width page : Nat) (log : List Exchange) (s : State) : Prop where
  orderly : Orderly width page log
  agrees : s.Agrees page (tally page log)
  rows : ∃ rows, written log ++ rows = (given log).flatMap (rowsOf width) ∧ ∀ ahead ∈ s.ahead? width, rows = ahead
  supplied : s.source?.isSome → Supplied log
  accounts : s.Accounts width log

section Run

variable {width page : Nat} {log : List Exchange} {e : Exchange} {exchange : Option Exchange} {s t : State}

theorem written_concat : written (log ++ [e]) = written log ++ written [e] := List.filterMap_append

theorem given_concat : given (log ++ [e]) = given log ++ given [e] := List.flatMap_append

theorem Supplied.concat (h : Supplied log) (he : given [e] = []) : Supplied (log ++ [e]) := by
  refine h.imp ?_ (List.mem_append_left _)
  rintro ⟨text, htext, hlines⟩
  exact ⟨text, List.mem_append_left _ htext, by rw [given_concat, hlines, he, List.append_nil]⟩

theorem Left.concat (h : Left log) : Left (log ++ [e]) :=
  h.imp (List.mem_append_left _) (List.mem_append_left _)

/-- What passes keeps the account if it is allowed and what is still to come changes with it. -/
theorem Stands.concat {ahead rows : List String} (hs : Stands width page log s)
    (hahead : s.ahead? width = some ahead) (hallowed : (tally page log).Allows e) (hpending : IsPrompt e → ahead ≠ [])
    (hagrees : t.Agrees page ((tally page log).add page e))
    (hnext : t.ahead? width = some rows ∨ t.ahead? width = none)
    (hrows : ahead ++ (given [e]).flatMap (rowsOf width) = written [e] ++ rows)
    (hsupplied : t.source?.isSome → Supplied (log ++ [e])) (haccounts : t.Accounts width (log ++ [e])) :
    Stands width page (log ++ [e]) t := by
  obtain ⟨before, hbefore, hsame⟩ := hs.rows
  obtain rfl := hsame ahead hahead
  have hleft (hprompt : IsPrompt e) : written log ≠ (given log).flatMap (rowsOf width) := by
    rw [← hbefore]
    exact fun heq => hpending hprompt (List.self_eq_append_right.1 heq)
  refine ⟨hs.orderly.concat hallowed hleft, tally_concat ▸ hagrees, ⟨rows, ?_, fun next hrest => ?_⟩, hsupplied,
    haccounts⟩
  · rw [written_concat, given_concat, List.flatMap_append, ← hbefore, List.append_assoc, List.append_assoc, hrows]
  · rcases hnext with hnext | hnext <;> cases hnext.symm.trans hrest
    rfl

/-- A row is written if the page is not full, and then there is one less to come. -/
theorem stands_showRow {source : Source} {first : String} {rest : List String} {budget : Nat}
    (hs : Stands width page log s) (hprompted : (tally page log).prompted = false)
    (hbudget : (tally page log).rows + budget = (tally page log).granted)
    (hahead : s.ahead? width = some (first :: rest ++ (source.getD []).flatMap (rowsOf width)))
    (hsupplied : source.isSome → Supplied log) (h : (showRow source first rest budget).Meets exchange t) :
    Stands width page (log ++ exchange.toList) t := by
  cases budget with
  | zero =>
      cases h
      rw [Option.toList_none, List.append_nil]
      obtain ⟨before, hbefore, hsame⟩ := hs.rows
      obtain rfl := hsame _ hahead
      exact ⟨hs.orderly, ⟨hprompted, hbudget⟩, ⟨_, hbefore, fun _ h => Option.some.inj h⟩, hsupplied, trivial⟩
  | succ budget =>
      cases h
      have hallowed : (tally page log).Allows (.said (.writeLine first)) := ⟨hprompted, by omega⟩
      have hagrees : (tally page log).rows + 1 + budget = (tally page log).granted := by omega
      have hsupplied := fun h => (hsupplied h).concat (show given [.said (.writeLine first)] = [] from rfl)
      cases rest with
      | nil =>
          exact hs.concat hahead hallowed nofun ⟨hprompted, hagrees⟩ (.inl rfl) (by simp [given, written]) hsupplied
            trivial
      | cons second rest =>
          exact hs.concat hahead hallowed nofun ⟨hprompted, hagrees⟩ (.inl rfl) (by simp [given, written]) hsupplied
            trivial

theorem erasePrompt_ne_prompt : erasePrompt ≠ prompt := by decide +kernel

theorem not_isPrompt_erasePrompt : ¬IsPrompt (.said (.write erasePrompt)) := fun h =>
  erasePrompt_ne_prompt (OutputAction.write.inj (Exchange.said.inj h))

/-- What a key does is what it grants. -/
theorem answer_cases (page : Nat) (source : Source) (first : String) (rest : List String) (key : Option Key) :
    (grant? page key = none ∧ answer page source first rest key = .key source first rest) ∨
    (∃ n, grant? page key = some n ∧ answer page source first rest key = .erase source first rest n) ∨
    (grant? page key = some 0 ∧ answer page source first rest key = .quit ∧
      (key = some (.char 'q') ∨ key = some (.char 'Q'))) ∨
    (key = none ∧ grant? page key = some 0 ∧ answer page source first rest key = .finish true) := by
  unfold answer
  split
  · exact .inr (.inr (.inr ⟨rfl, rfl, rfl⟩))
  · exact .inr (.inl ⟨page, rfl, rfl⟩)
  · exact .inr (.inl ⟨1, rfl, rfl⟩)
  · exact .inr (.inl ⟨1, rfl, rfl⟩)
  · exact .inr (.inr (.inl ⟨rfl, rfl, .inl rfl⟩))
  · exact .inr (.inr (.inl ⟨rfl, rfl, .inr rfl⟩))
  · refine .inl ⟨?_, rfl⟩
    unfold grant?
    split
    all_goals simp_all

theorem stands_meets (hs : Stands width page log s) (h : (next width page s).Meets exchange t) :
    Stands width page (log ++ exchange.toList) t := by
  have hagrees := hs.agrees
  cases s with
  | load path =>
      cases h with
      | load path next text =>
          have hnone : given log = [] := hs.accounts
          have hsupplied : Supplied (log ++ [.loaded text]) :=
            .inl ⟨text, by simp, by rw [given_concat, hnone]; simp [given]⟩
          exact hs.concat rfl trivial nofun hagrees (.inl rfl) (by simp [given, written]) (fun _ => hsupplied) trivial
  | nextLine source budget =>
      obtain ⟨hprompted, hbudget⟩ := hagrees
      match source with
      | none =>
          cases h with
          | read extent next text =>
              cases text with
              | none =>
                  have hsupplied : Supplied (log ++ [.heard none]) := .inr (by simp)
                  exact hs.concat rfl trivial nofun ⟨hprompted, hbudget⟩ (.inl rfl) (by simp [given, written])
                    (fun _ => hsupplied) trivial
              | some line =>
                  exact hs.concat rfl trivial nofun ⟨hprompted, hbudget⟩ (.inl rfl) (by simp [given, written, rowsOf])
                    nofun trivial
      | some [] =>
          cases h with
          | checkCancelled next cancelled =>
              have haccounts : (State.finish cancelled).Accounts width (log ++ [.told cancelled]) := by
                cases cancelled with
                | true => exact .inr (by simp)
                | false =>
                    -- no line is left, and so no row
                    obtain ⟨rows, hrows, hnone⟩ := hs.rows
                    obtain rfl := hnone [] rfl
                    rw [List.append_nil] at hrows
                    refine .inr ⟨(hs.supplied rfl).concat rfl, ?_⟩
                    rw [written_concat, given_concat, List.flatMap_append, ← hrows]
                    simp [written, given]
              exact hs.concat rfl trivial nofun trivial (.inr rfl) rfl nofun haccounts
      | some (line :: source) =>
          exact stands_showRow hs hprompted hbudget (by simp [State.ahead?, rowsOf]) (fun _ => hs.supplied rfl) h
  | row source first rest budget => exact stands_showRow hs hagrees.1 hagrees.2 rfl hs.supplied h
  | prompt source first rest =>
      cases h
      exact hs.concat rfl (fun _ => hagrees) nofun ⟨rfl, hagrees.2⟩ (.inl rfl) (by simp [given, written])
        (fun h => (hs.supplied h).concat rfl) trivial
  | key source first rest =>
      cases h with
      | readKey next key =>
          have hallowed : (tally page log).Allows (.pressed key) := hagrees.1
          have htally {n : Nat} (hgrant : grant? page key = some n) :
              (tally page log).add page (.pressed key) = { granted := n } := by
            rw [Tally.add, hgrant]
          rcases answer_cases page source first rest key with
            ⟨hgrant, hnext⟩ | ⟨n, hgrant, hnext⟩ | ⟨hgrant, hnext, hkey⟩ | ⟨hkey, hgrant, hnext⟩
          · rw [hnext]
            have hsame : (tally page log).add page (.pressed key) = tally page log := by rw [Tally.add, hgrant]
            exact hs.concat rfl hallowed nofun (by rw [hsame]; exact hagrees) (.inl rfl) (by simp [given, written])
              (fun h => (hs.supplied h).concat rfl) trivial
          · rw [hnext]
            exact hs.concat rfl hallowed nofun (htally hgrant ▸ ⟨rfl, Nat.zero_add n⟩) (.inl rfl)
              (by simp [given, written]) (fun h => (hs.supplied h).concat rfl) trivial
          · rw [hnext]
            have hleft : Left (log ++ [.pressed key]) := by
              rcases hkey with rfl | rfl
              · exact .inl (by simp)
              · exact .inr (by simp)
            exact hs.concat rfl hallowed nofun trivial (.inr rfl) rfl nofun hleft
          · rw [hnext]
            have hcancelled : Cancelled (log ++ [.pressed key]) := .inl (by simp [hkey])
            exact hs.concat rfl hallowed nofun trivial (.inr rfl) rfl nofun hcancelled
  | erase source first rest budget =>
      cases h
      have hsame : (tally page log).add page (.said (.write erasePrompt)) = tally page log := by
        rw [Tally.add, if_neg erasePrompt_ne_prompt]
      exact hs.concat rfl (fun h => absurd h erasePrompt_ne_prompt) (fun h => absurd h not_isPrompt_erasePrompt)
        (by rw [hsame]; exact hagrees) (.inl rfl) (by simp [given, written]) (fun h => (hs.supplied h).concat rfl) trivial
  | quit =>
      cases h
      obtain ⟨rows, hrows, -⟩ := hs.rows
      refine ⟨hs.orderly.concat (fun h => absurd h erasePrompt_ne_prompt)
        (fun h => absurd h not_isPrompt_erasePrompt), trivial, ⟨rows, ?_, nofun⟩, nofun, ?_⟩
      · rw [Option.toList_some, written_concat, given_concat, List.flatMap_append, ← hrows]
        simp [given, written]
      · exact .inl hs.accounts.concat
  | finish cancelled => cases h

theorem stands_of_dialogue {height : Nat} {start s : State}
    (hstart : Stands (max (width - 1) 1) (max (height - 1) 1) [] start)
    (h : (paged width height start).Dialogue log s) : Stands (max (width - 1) 1) (max (height - 1) 1) log s :=
  h.holds hstart stands_meets

end Run

/-! ### Blocks of rows -/

/-- After what has passed, `n` rows may be written before the next prompt: the first page, or what has just been
answered. -/
inductive Grants (page : Nat) : List Exchange → Nat → Prop
  | first : Grants page [] page
  | answer {log : List Exchange} {key : Option Key} {n : Nat} (hkey : grant? page key = some n) :
      Grants page (log ++ [.pressed key]) n

section Blocks

variable {width page n : Nat} {log before between after : List Exchange}

theorem tally_of_grants (h : Grants page before n) : tally page before = { granted := n } := by
  cases h with
  | first => rfl
  | answer hkey => exact tally_answer hkey

/-- Between a grant and the next prompt come no more rows than were granted, and as many if the prompt comes. -/
theorem Orderly.length_written (h : Orderly width page log) (hlog : log = before ++ between ++ after)
    (hgrants : Grants page before n) (hquiet : ∀ e ∈ between, ¬IsPrompt e) :
    (written between).length ≤ n ∧ (after.head? = some (.said (.write prompt)) → (written between).length = n) := by
  subst hlog
  have hfirst := tally_of_grants hgrants
  have htally := tally_of_no_prompt h.left (by rw [hfirst]) hquiet
  rw [hfirst, Nat.zero_add] at htally
  have hle := rows_le_granted h.left
  rw [htally] at hle
  refine ⟨hle, fun hprompt => ?_⟩
  obtain ⟨rest, rfl⟩ := List.head?_eq_some_iff.1 hprompt
  have hallowed := (h (before ++ between) _ rest rfl).1
  rw [htally] at hallowed
  exact (hallowed rfl).2

end Blocks

/-! ### The command -/

/-- How many characters fit in a row: one less than the window is wide, and at least one. -/
def rowWidth (context : Context) : Nat := max (context.window.1.getD defaultWidth - 1) 1

/-- How many rows are shown at once: one less than the window is high, and at least one. -/
def pageHeight (context : Context) : Nat := max (context.window.2.getD defaultHeight - 1) 1

/-- How many rows may still be written. -/
def State.budget? : State → Option Nat
  | .nextLine _ budget | .row _ _ _ budget | .erase _ _ _ budget => some budget
  | .prompt .. | .key .. => some 0
  | .load _ | .quit | .finish _ => none

theorem budget_of_showRow {source : Source} {first row : String} {rest : List String} {budget : Nat} {t : State}
    (h : showRow source first rest budget = .output (.writeLine row) t) :
    ∃ left, budget = left + 1 ∧ t.budget? = some left := by
  cases budget with
  | zero => cases h
  | succ left =>
      cases h
      cases rest with
      | nil | cons second rest => exact ⟨left, rfl, rfl⟩

/-- A row takes one of the budget, which is not used up. -/
theorem budget_of_row {width page : Nat} {s t : State} {row : String}
    (h : next width page s = .output (.writeLine row) t) :
    ∃ left, s.budget? = some (left + 1) ∧ t.budget? = some left := by
  cases s with
  | nextLine source budget =>
      match source with
      | none | some [] => cases h
      | some (line :: source) =>
          obtain ⟨left, rfl, hleft⟩ := budget_of_showRow h
          exact ⟨left, rfl, hleft⟩
  | row source first rest budget =>
      obtain ⟨left, rfl, hleft⟩ := budget_of_showRow h
      exact ⟨left, rfl, hleft⟩
  | load | prompt | key | erase | quit => cases h
  | finish cancelled => cases h

theorem stands_start (width page : Nat) (path? : Option String) :
    Stands width page [] (match path? with
      | some path => .load path
      | none => .nextLine none page) := by
  cases path? with
  | some path => exact ⟨orderly_nil, ⟨rfl, Nat.zero_add page⟩, ⟨[], rfl, fun _ h => Option.some.inj h⟩, nofun, rfl⟩
  | none => exact ⟨orderly_nil, ⟨rfl, Nat.zero_add page⟩, ⟨[], rfl, fun _ h => Option.some.inj h⟩, nofun, trivial⟩

/-- On a terminal `more` shows its lines in pages. -/
theorem body_more {context : Context} {call : Call} (houtput : context.outputPiped = false)
    (hsource : (call.argument? "file").isSome ∨ context.inputPiped = true) :
    ∃ start, more.body context call =
        paged (context.window.1.getD defaultWidth) (context.window.2.getD defaultHeight) start ∧
      Stands (rowWidth context) (pageHeight context) [] start := by
  rcases hfile : call.argument? "file" with _ | path
  · have hinput : context.inputPiped = true := hsource.resolve_left (by simp [hfile])
    exact ⟨_, by simp [more, hfile, hinput, houtput, pageHeight], stands_start _ _ none⟩
  · exact ⟨_, by simp [more, hfile, houtput], stands_start _ _ (some path)⟩

theorem eq_finish_of_next {width page : Nat} {s : State} {result : Except CommandError Unit}
    (h : next width page s = .finish result) :
    ∃ cancelled, s = .finish cancelled ∧ result = if cancelled then .error .cancelled else .ok () := by
  cases s with
  | finish cancelled =>
      cases h
      exact ⟨cancelled, rfl, rfl⟩
  | nextLine source budget =>
      match source with
      | none | some [] => cases h
      | some (line :: source) => cases budget <;> cases h
  | row source first rest budget => cases budget <;> cases h
  | load | prompt | key | erase | quit => cases h

/-- Why a paged body ends. -/
theorem outcome_of_stands {width page : Nat} {log : List Exchange} {s : State} {result : Except CommandError Unit}
    (hs : Stands width page log s) (h : next width page s = .finish result) :
    (result = .ok () ∧ (Left log ∨ Supplied log ∧ written log = (given log).flatMap (rowsOf width))) ∨
      (result = .error .cancelled ∧ Cancelled log) := by
  obtain ⟨cancelled, rfl, rfl⟩ := eq_finish_of_next h
  cases cancelled with
  | true => exact .inr ⟨rfl, hs.accounts⟩
  | false => exact .inl ⟨rfl, hs.accounts⟩

/-- Whatever `more` shows on a terminal, however large its window is and whatever is answered at its prompts: the rows
of a line fit and hold what of it can be shown; the rows that have been written are the first ones of those of the
lines that have come; before the first prompt there is exactly a page of them, and between an answer and the next
prompt exactly as many as it grants, fewer only if no prompt follows; there is a prompt only while rows are left; in
the end all rows have been written unless it was left at a prompt or the pipeline was cancelled; and each row takes
one of a budget that was not used up. -/
theorem rows_shown_once {context : Context} {call : Call} {log : List Exchange}
    (houtput : context.outputPiped = false)
    (hsource : (call.argument? "file").isSome ∨ context.inputPiped = true)
    (h : ∃ s, (more.body context call).Dialogue log s) :
    let width := rowWidth context
    let page := pageHeight context
    let rows := (given log).flatMap (rowsOf width)
    (∀ line, (∀ row ∈ rowsOf width line, row.length ≤ width) ∧
      (rowsOf width line).flatMap (·.toList) = shown line) ∧
    written log <+: rows ∧
    (∀ before between after n, log = before ++ between ++ after → Grants page before n →
      (∀ e ∈ between, ¬IsPrompt e) →
      (written between).length ≤ n ∧ (after.head? = some (.said (.write prompt)) → (written between).length = n)) ∧
    (∀ before after, log = before ++ .said (.write prompt) :: after →
      written before ≠ (given before).flatMap (rowsOf width)) ∧
    (∀ result, (more.body context call).Ends log result →
      (result = .ok () ∧ (Left log ∨ Supplied log ∧ written log = rows)) ∨
        (result = .error .cancelled ∧ Cancelled log)) ∧
    ∀ s row t, next width page s = .output (.writeLine row) t →
      ∃ left, s.budget? = some (left + 1) ∧ t.budget? = some left := by
  intro width page rows
  obtain ⟨start, hbody, hstart⟩ := body_more houtput hsource
  rw [hbody] at h ⊢
  obtain ⟨s, hs⟩ := h
  obtain ⟨horderly, -, ⟨rest, hrows, -⟩, -, -⟩ := stands_of_dialogue hstart hs
  refine ⟨rowsOf_exact (Nat.le_max_right _ 1), ⟨rest, hrows⟩, ?_, ?_, ?_, fun _ _ _ => budget_of_row⟩
  · intro before between after n hlog hgrants hquiet
    exact horderly.length_written hlog hgrants hquiet
  · intro before after hlog
    exact (horderly before _ after hlog).2 rfl
  · rintro result ⟨t, ht, hfinish⟩
    exact outcome_of_stands (stands_of_dialogue hstart ht) hfinish

/-- A window that is three rows high. -/
def lowWindow : Context := { outputPiped := false, window := (none, some 3) }

/-- The first page of two rows up to its prompt, which is answered with Enter. -/
def firstPage : List Exchange :=
  [.heard (some "1"), .said (.writeLine "1"), .heard (some "2"), .said (.writeLine "2"), .heard (some "3"),
    .said (.write prompt), .pressed (some (.char '\r'))]

/-- One more row up to the next prompt. -/
def oneRow : List Exchange := [.said (.write erasePrompt), .said (.writeLine "3"), .heard (some "4")]

theorem rows_shown_once_of_four_lines :
    let log := firstPage ++ oneRow ++ [.said (.write prompt)]
    (∃ s, (more.body lowWindow {}).Dialogue log s) ∧ pageHeight lowWindow = 2 ∧
      written log = ["1", "2", "3"] ∧ written log <+: (given log).flatMap (rowsOf 79) ∧
      (written (firstPage.take 5)).length = 2 ∧ (written oneRow).length = 1 := by
  intro log
  let b := paged 80 3 (.nextLine none 2)
  have hread {log : List Exchange} {budget : Nat} (line : String) (hline : wrap 79 line = (line, []))
      (h : b.Dialogue log (.nextLine none budget)) :
      b.Dialogue (log ++ [.heard (some line)]) (.row none line [] budget) := by
    have hgoes : b.Dialogue _ (.row none (wrap 79 line).1 (wrap 79 line).2 budget) :=
      h.goOn (.read .line _ (some line))
    rw [hline] at hgoes
    exact hgoes
  have h : ∃ s, (more.body lowWindow {}).Dialogue log s := by
    have h := hread "1" (by decide +kernel) .start
    have h := hread "2" (by decide +kernel) (h.goOn (.output _ _))
    have h := hread "3" (by decide +kernel) (h.goOn (.output _ _))
    have h := (h.goOn (.flushKeys _)).goOn (.output _ _)
    have h := (h.goOn (.readKey _ (some (.char '\r')))).goOn (.output _ _)
    have h := hread "4" (by decide +kernel) (h.goOn (.output _ _))
    exact ⟨_, (h.goOn (.flushKeys _)).goOn (.output _ _)⟩
  obtain ⟨-, hprefix, hblocks, -⟩ := rows_shown_once rfl (.inr rfl) h
  have hquiet : ∀ e ∈ firstPage.take 5 ++ oneRow, ¬IsPrompt e := by
    intro e he
    simp only [firstPage, oneRow, List.take, List.cons_append, List.nil_append, List.mem_cons, List.not_mem_nil,
      or_false] at he
    rcases he with rfl | rfl | rfl | rfl | rfl | rfl | rfl | rfl
    all_goals first | exact not_isPrompt_erasePrompt | nofun
  obtain ⟨hpage, hrow⟩ := List.forall_mem_append.1 hquiet
  have hanswer : Grants 2 (firstPage.take 6 ++ [.pressed (some (.char '\r'))]) 1 := .answer rfl
  exact ⟨h, rfl, rfl, hprefix,
    (hblocks [] _ (firstPage.drop 5 ++ oneRow ++ [.said (.write prompt)]) _ rfl .first hpage).2 rfl,
    (hblocks firstPage oneRow _ 1 rfl hanswer hrow).2 rfl⟩

end CommandShell.Builtin.Paging
