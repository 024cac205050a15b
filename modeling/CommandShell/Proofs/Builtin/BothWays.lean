import CommandShell.Pipeline
import CommandShell.Proofs.Builtin.Paging
import CommandShell.Proofs.Text.Lines

/-!
`more` on a file that is named and on one that its input is redirected from.  Main statement: with the same keys both
show the same, unless there are carriage returns that no line feed follows; if the output is piped these make the
lines differ, and on a terminal they make at most an empty row at the end.
-/

namespace CommandShell.Builtin.Paging

open Text

/-! ### What is shown -/

/-- What has been done to the output. -/
def said (log : List Exchange) : List OutputAction :=
  log.filterMap fun
    | .said action => some action
    | _ => none

/-- The keys that have been pressed at the prompts. -/
def pressed (log : List Exchange) : List (Option Key) :=
  log.filterMap fun
    | .pressed key => some key
    | _ => none

/-- At most so many rows, and the prompt if there are more of them. -/
def block (budget : Nat) (rows : List String) (later : List String → List OutputAction) : List OutputAction :=
  (rows.take budget).map .writeLine ++
    if rows.length ≤ budget then [] else .write prompt :: later (rows.drop budget)

/-- What is shown of the rows that are left, with the keys that are pressed at a prompt and those after it. -/
def afterPrompt (page : Nat) : List (Option Key) → List String → List OutputAction
  | [], _ | none :: _, _ => []
  | some (.char ' ') :: keys, rows => .write erasePrompt :: block page rows (afterPrompt page keys)
  | some (.char '\r') :: keys, rows | some (.char '\n') :: keys, rows =>
    .write erasePrompt :: block 1 rows (afterPrompt page keys)
  | some (.char 'q') :: _, _ | some (.char 'Q') :: _, _ => [.write erasePrompt]
  | some _ :: keys, rows => afterPrompt page keys rows

/-- What is shown of some rows. -/
def display (page : Nat) (keys : List (Option Key)) (rows : List String) : List OutputAction :=
  block page rows (afterPrompt page keys)

namespace State

/-- What is still to be shown of some rows. -/
def todo (page : Nat) (keys : List (Option Key)) (rows : List String) : State → List OutputAction
  | .load _ => display page keys rows
  | .nextLine _ budget | .row _ _ _ budget => block budget rows (afterPrompt page keys)
  | .prompt .. => .write Paging.prompt :: afterPrompt page keys rows
  | .key .. => afterPrompt page keys rows
  | .erase _ _ _ budget => .write erasePrompt :: block budget rows (afterPrompt page keys)
  | .quit => [.write erasePrompt]
  | .finish _ => []

/-- These lines can still come: none if the lines are those of a file or the input has ended. -/
def Awaits (log : List Exchange) (later : List String) : State → Prop
  | .quit | .finish _ => Supplied log → later = []
  | s => s.source?.isSome → later = []

end State

/-- What has been shown and what is still to be shown are what is shown of all lines. -/
def Shows (width page : Nat) (log : List Exchange) (s : State) : Prop :=
  ∀ later keys, s.Awaits log later →
    said log ++ s.todo page keys ((s.ahead? width).getD [] ++ later.flatMap (rowsOf width)) =
      display page (pressed log ++ keys) ((given log ++ later).flatMap (rowsOf width))

section Run

variable {width page : Nat} {log : List Exchange} {e : Exchange} {exchange : Option Exchange} {s t : State}

theorem said_concat : said (log ++ [e]) = said log ++ said [e] := List.filterMap_append

theorem pressed_concat : pressed (log ++ [e]) = pressed log ++ pressed [e] := List.filterMap_append

theorem block_nil (budget : Nat) (later : List String → List OutputAction) : block budget [] later = [] := by
  simp [block]

theorem block_zero (row : String) (rows : List String) (later : List String → List OutputAction) :
    block 0 (row :: rows) later = .write prompt :: later (row :: rows) := by
  simp [block]

theorem block_succ (budget : Nat) (row : String) (rows : List String) (later : List String → List OutputAction) :
    block (budget + 1) (row :: rows) later = .writeLine row :: block budget rows later := by
  simp [block]

/-- What is shown after a key is what its answer has still to show. -/
theorem afterPrompt_cons (source : Source) (first : String) (rest : List String) (key : Option Key)
    (keys : List (Option Key)) (rows : List String) :
    afterPrompt page (key :: keys) rows = (answer page source first rest key).todo page keys rows := by
  unfold answer
  split
  · rfl
  · rfl
  · rfl
  · rfl
  · rfl
  · rfl
  · rw [afterPrompt] <;> first | rfl | assumption

/-- What passes is shown next of what was still to be shown. -/
theorem Shows.concat (hs : Shows width page log s)
    (hawaits : ∀ later, t.Awaits (log ++ [e]) later → s.Awaits log (given [e] ++ later))
    (htodo : ∀ later keys, t.Awaits (log ++ [e]) later →
      s.todo page (pressed [e] ++ keys) ((s.ahead? width).getD [] ++ (given [e] ++ later).flatMap (rowsOf width)) =
        said [e] ++ t.todo page keys ((t.ahead? width).getD [] ++ later.flatMap (rowsOf width))) :
    Shows width page (log ++ [e]) t := by
  intro later keys hlater
  have hshown := hs (given [e] ++ later) (pressed [e] ++ keys) (hawaits later hlater)
  rw [htodo later keys hlater] at hshown
  rw [said_concat, pressed_concat, given_concat, List.append_assoc, List.append_assoc, List.append_assoc, hshown]

theorem shows_showRow {source : Source} {first : String} {rest : List String} {budget : Nat}
    (hs : Shows width page log s) (h : (showRow source first rest budget).Meets exchange t)
    (hahead : s.ahead? width = some (first :: rest ++ (source.getD []).flatMap (rowsOf width)))
    (htodo : ∀ keys rows, s.todo page keys rows = block budget rows (afterPrompt page keys))
    (hawaits : ∀ later, s.Awaits log later ↔ (source.isSome → later = [])) :
    Shows width page (log ++ exchange.toList) t := by
  cases budget with
  | zero =>
      cases h
      rw [Option.toList_none, List.append_nil]
      intro later keys hlater
      rw [← hs later keys ((hawaits later).2 hlater), htodo, hahead, Option.getD_some, List.cons_append,
        List.cons_append, block_zero]
      rfl
  | succ budget =>
      cases h
      cases rest with
      | nil | cons second rest =>
          refine hs.concat (fun later hlater => (hawaits later).2 hlater) fun later keys _ => ?_
          rw [htodo, hahead, Option.getD_some, List.cons_append, List.cons_append, block_succ]
          rfl

theorem shows_meets (hsupplied : s.source?.isSome → Supplied log) (hs : Shows width page log s)
    (h : (next width page s).Meets exchange t) : Shows width page (log ++ exchange.toList) t := by
  cases s with
  | load path =>
      cases h with
      | load path next text =>
          refine hs.concat (fun _ _ h => absurd h Bool.false_ne_true) fun later keys hlater => ?_
          obtain rfl := hlater rfl
          simp [said, pressed, given, State.todo, State.ahead?, display]
  | nextLine source budget =>
      rcases source with _ | _ | ⟨line, source⟩
      · cases h with
        | read extent next text =>
            cases text with
            | none =>
                refine hs.concat (fun _ _ h => absurd h Bool.false_ne_true) fun later keys hlater => ?_
                obtain rfl := hlater rfl
                rfl
            | some line =>
                refine hs.concat (fun _ _ h => absurd h Bool.false_ne_true) fun later keys hlater => ?_
                simp [said, pressed, given, State.todo, State.ahead?, rowsOf]
      · cases h with
        | checkCancelled next cancelled =>
            -- no more lines can come, and none is left to show
            have hclosed := (hsupplied rfl).concat (show given [.told cancelled] = [] from rfl)
            refine hs.concat (fun later hlater _ => hlater hclosed) fun later keys hlater => ?_
            obtain rfl := hlater hclosed
            simp [said, pressed, given, State.todo, State.ahead?, block_nil]
      · have hrow : (showRow (some source) (wrap width line).1 (wrap width line).2 budget).Meets exchange t := h
        exact shows_showRow hs hrow (by simp [State.ahead?, rowsOf]) (fun _ _ => rfl) fun _ => Iff.rfl
  | row source first rest budget => exact shows_showRow hs h rfl (fun _ _ => rfl) fun _ => Iff.rfl
  | prompt source first rest =>
      cases h
      exact hs.concat (fun _ h => h) fun _ _ _ => rfl
  | key source first rest =>
      cases h with
      | readKey next key =>
          have hclosed (h : source.isSome) : Supplied (log ++ [.pressed key]) := (hsupplied h).concat rfl
          refine hs.concat (fun later hlater => ?_) fun later keys _ =>
            (afterPrompt_cons source first rest key keys _).trans ?_
          · rcases answer_cases page source first rest key with
              ⟨-, hnext⟩ | ⟨n, -, hnext⟩ | ⟨-, hnext, -⟩ | ⟨-, -, hnext⟩
            all_goals rw [hnext] at hlater
            · exact hlater
            · exact hlater
            · exact fun h => hlater (hclosed h)
            · exact fun h => hlater (hclosed h)
          · rcases answer_cases page source first rest key with
              ⟨-, hnext⟩ | ⟨n, -, hnext⟩ | ⟨-, hnext, -⟩ | ⟨-, -, hnext⟩
            all_goals
              rw [hnext]
              rfl
  | erase source first rest budget =>
      cases h
      exact hs.concat (fun _ h => h) fun _ _ _ => rfl
  | quit =>
      cases h
      exact hs.concat (fun _ hlater h => hlater (h.concat rfl)) fun _ _ _ => rfl
  | finish cancelled => cases h

theorem shows_start (width page : Nat) (path? : Option String) :
    Shows width page [] (match path? with
      | some path => .load path
      | none => .nextLine none page) := by
  cases path? with
  | some path | none => exact fun _ _ _ => rfl

end Run

/-! ### What is read -/

/-- What reading lines from a redirected input has been answered until there is none, whatever else happens in the
meantime as long as the pipeline is not cancelled. -/
inductive Hears : List Char → List (Option String) → Prop
  | start (rest) : Hears rest []
  | last {e f : Ends} {fuel : Nat} {rest} (hinput : e.input = .redirected rest) (hlive : e.isCancelled = false)
      (hfuel : rest.length < fuel) (hread : e.read fuel .line = some (none, f)) : Hears rest [none]
  | line {e f : Ends} {fuel : Nat} {rest rest' text answers} (hinput : e.input = .redirected rest)
      (hlive : e.isCancelled = false) (hfuel : rest.length < fuel)
      (hread : e.read fuel .line = some (some text, f)) (hrest : f.input = .redirected rest')
      (h : Hears rest' answers) : Hears rest (some text :: answers)

/-- What has been answered is the first lines of the text, and all of them if there was no answer at last. -/
theorem Hears.exists_later {rest : List Char} {answers : List (Option String)} (h : Hears rest answers) :
    ∃ later, (answers.filterMap id).map String.toList ++ later = readLines [] rest ∧
      (none ∈ answers → later = []) := by
  induction h with
  | start rest => exact ⟨_, rfl, nofun⟩
  | @last e f fuel rest hinput hlive hfuel hread =>
      obtain ⟨waits, rfl⟩ : ∃ n, fuel = n + 1 := ⟨fuel - 1, by omega⟩
      obtain ⟨answer, rest', hrun, -, hanswer⟩ := Ends.run_line_of_redirected hinput hlive hfuel waits ""
      obtain ⟨rfl, -⟩ := Prod.mk.inj (Option.some.inj (hrun.symm.trans hread))
      exact ⟨[], hanswer.symm, fun _ => rfl⟩
  | @line e f fuel rest rest' text answers hinput hlive hfuel hread hrest _ ih =>
      obtain ⟨waits, rfl⟩ : ∃ n, fuel = n + 1 := ⟨fuel - 1, by omega⟩
      obtain ⟨answer, left, hrun, -, hanswer⟩ := Ends.run_line_of_redirected hinput hlive hfuel waits ""
      obtain ⟨rfl, rfl⟩ := Prod.mk.inj (Option.some.inj (hrun.symm.trans hread))
      cases hrest
      obtain ⟨later, hlater, hall⟩ := ih
      refine ⟨later, ?_, fun h => hall ((List.mem_cons.1 h).resolve_left nofun)⟩
      exact (congrArg (text.toList :: ·) hlater).trans hanswer.symm

/-- A redirected input with nothing around it. -/
def inputOf (rest : List Char) : Ends :=
  ⟨.detached ⟨.empty, ""⟩ none {}, 0, 20, true, ⟨[], none⟩, .redirected rest, .new .null {}⟩

/-- A text that is read to its end is answered with its lines. -/
theorem hears_lines {rest : List Char} {texts : List String} (h : readLines [] rest = texts.map String.toList) :
    Hears rest (texts.map some ++ [none]) := by
  have hlive : (inputOf rest).isCancelled = false := rfl
  have hfuel := Nat.lt_succ_self rest.length
  obtain ⟨answer, rest', hrun, -, hanswer⟩ :=
    Ends.run_line_of_redirected (e := inputOf rest) rfl hlive hfuel rest.length ""
  induction texts generalizing rest answer rest' with
  | nil =>
      cases answer with
      | none => exact .last rfl hlive hfuel hrun
      | some text => cases h.symm.trans hanswer
  | cons text texts ih =>
      cases answer with
      | none => cases h.symm.trans hanswer
      | some line =>
          obtain ⟨hline, hlines⟩ := List.cons.inj (h.symm.trans hanswer)
          obtain rfl := String.toList_inj.1 hline
          obtain ⟨next, left, hnext, -, hrest⟩ :=
            Ends.run_line_of_redirected (e := inputOf rest') rfl rfl (Nat.lt_succ_self _) rest'.length ""
          exact .line rfl hlive hfuel hrun rfl (ih hlines.symm rfl (Nat.lt_succ_self _) next left hnext hrest)

/-- What has been heard. -/
def heard (log : List Exchange) : List (Option String) :=
  log.filterMap fun
    | .heard text => some text
    | _ => none

theorem given_of_not_loaded {log : List Exchange} (h : ∀ text, .loaded text ∉ log) :
    given log = (heard log).filterMap id := by
  induction log with
  | nil => rfl
  | cons e log ih =>
      have hrest := ih fun text hmem => h text (List.mem_cons_of_mem _ hmem)
      rw [← List.singleton_append, given, List.flatMap_append, heard, List.filterMap_append, List.filterMap_append]
      refine congrArg₂ _ ?_ hrest
      cases e with
      | loaded text => exact absurd List.mem_cons_self (h text)
      | heard text => cases text <;> rfl
      | said | pressed | told => rfl

theorem none_mem_heard {log : List Exchange} : none ∈ heard log ↔ .heard none ∈ log := by
  simp only [heard, List.mem_filterMap]
  constructor
  · rintro ⟨e, he, hnone⟩
    cases e with
    | heard text => cases hnone; exact he
    | said | pressed | loaded | told => cases hnone
  · exact fun h => ⟨_, h, rfl⟩

/-- The lines that have come are the first ones of a redirected text. -/
theorem Hears.given {text : String} {log : List Exchange} (h : Hears text.toList (heard log))
    (hload : ∀ text, .loaded text ∉ log) :
    ∃ later, given log ++ later = lineTexts text ∧ (.heard none ∈ log → later = []) := by
  obtain ⟨later, hlater, hall⟩ := h.exists_later
  refine ⟨later.map String.ofList, eq_lineTexts ?_, fun hnone => ?_⟩
  · rw [given_of_not_loaded hload, List.map_append, List.map_map, ← hlater]
    simp [Function.comp_def]
  · rw [hall (none_mem_heard.2 hnone), List.map_nil]

/-! ### What is loaded -/

section Loading

variable {b : Body} {P : b.State → Prop} {path : String} {next : String → b.State} {log : List Exchange} {s : b.State}

/-- A body that asks for a text at once and for none after it has been given the lines of that text. -/
theorem given_of_load (hstart : b.next b.start = .load path next) (hnext : ∀ text, P (next text))
    (hkeeps : ∀ {s t exchange}, P s → (b.next s).Meets exchange t →
      P t ∧ (∀ text, exchange ≠ some (.loaded text)) ∧ given exchange.toList = []) (h : b.Dialogue log s) :
    (log = [] ∧ s = b.start) ∨ (P s ∧ ∃ text, (∀ other, .loaded other ∈ log → other = text) ∧
      given log = lines text) := by
  induction h with
  | start => exact .inl ⟨rfl, rfl⟩
  | goOn _ hmeets ih =>
      rename_i log exchange s t _
      rcases ih with ⟨rfl, rfl⟩ | ⟨hs, text, hsame, hlines⟩
      · rw [hstart] at hmeets
        cases hmeets with
        | load path next text => exact .inr ⟨hnext text, text, by simp, by simp [given]⟩
      · obtain ⟨ht, hload, hnone⟩ := hkeeps hs hmeets
        refine .inr ⟨ht, text, fun other hother => ?_, ?_⟩
        · rcases List.mem_append.1 hother with hother | hother
          · exact hsame other hother
          · exact absurd (Option.mem_toList.1 hother) (hload other)
        · rw [given, List.flatMap_append]
          exact (congrArg₂ _ hlines hnone).trans (List.append_nil _)

end Loading

/-! ### In pages -/

namespace State

/-- No lines are asked for any more. -/
def Settled : State → Prop
  | .load _ => False
  | .quit | .finish _ => True
  | s => s.source?.isSome

/-- A file is asked for. -/
def Loads : State → Prop
  | .load _ => True
  | _ => False

end State

section Paged

variable {width page : Nat} {log : List Exchange} {exchange : Option Exchange} {s t : State} {path : String}

theorem meets_showRow {source : Source} {first : String} {rest : List String} {budget : Nat}
    (h : (showRow source first rest budget).Meets exchange t) :
    ¬t.Loads ∧ (∀ text, exchange ≠ some (.loaded text)) ∧
      (source.isSome → t.Settled ∧ given exchange.toList = []) := by
  cases budget with
  | zero =>
      cases h
      exact ⟨id, fun _ => nofun, fun h => ⟨h, rfl⟩⟩
  | succ budget =>
      cases h
      cases rest with
      | nil | cons second rest => exact ⟨id, fun _ => nofun, fun h => ⟨h, rfl⟩⟩

/-- A file is asked for at the start only, and lines only until there is none. -/
theorem meets_of_not_loads (hs : ¬s.Loads) (h : (next width page s).Meets exchange t) :
    ¬t.Loads ∧ (∀ text, exchange ≠ some (.loaded text)) ∧ (s.Settled → t.Settled ∧ given exchange.toList = []) := by
  cases s with
  | load path => exact absurd trivial hs
  | nextLine source budget =>
      match source with
      | none =>
          cases h with
          | read extent next text => cases text <;> exact ⟨id, fun _ => nofun, nofun⟩
      | some [] =>
          cases h
          exact ⟨id, fun _ => nofun, fun _ => ⟨trivial, rfl⟩⟩
      | some (line :: source) =>
          have hrow : (showRow (some source) (wrap width line).1 (wrap width line).2 budget).Meets exchange t := h
          exact (meets_showRow hrow :)
  | row source first rest budget => exact meets_showRow h
  | prompt source first rest | erase source first rest budget =>
      cases h
      exact ⟨id, fun _ => nofun, fun h => ⟨h, rfl⟩⟩
  | key source first rest =>
      cases h with
      | readKey next key =>
          rcases answer_cases page source first rest key with
            ⟨-, hnext⟩ | ⟨n, -, hnext⟩ | ⟨-, hnext, -⟩ | ⟨-, -, hnext⟩
          all_goals rw [hnext]
          · exact ⟨id, fun _ => nofun, fun h => ⟨h, rfl⟩⟩
          · exact ⟨id, fun _ => nofun, fun h => ⟨h, rfl⟩⟩
          · exact ⟨id, fun _ => nofun, fun _ => ⟨trivial, rfl⟩⟩
          · exact ⟨id, fun _ => nofun, fun _ => ⟨trivial, rfl⟩⟩
  | quit =>
      cases h
      exact ⟨id, fun _ => nofun, fun _ => ⟨trivial, rfl⟩⟩
  | finish cancelled => cases h

theorem not_loads_of_settled (h : s.Settled) : ¬s.Loads := by
  cases s with
  | load path => exact h.elim
  | nextLine | row | prompt | key | erase | quit | finish => exact id

theorem given_of_paged {height : Nat} {text : String} (h : (paged width height (.load path)).Dialogue log s)
    (hloaded : .loaded text ∈ log) : given log = lines text := by
  have hkeeps {s t : State} {exchange : Option Exchange} (hs : s.Settled)
      (hmeets : (next (max (width - 1) 1) (max (height - 1) 1) s).Meets exchange t) :
      t.Settled ∧ (∀ text, exchange ≠ some (.loaded text)) ∧ given exchange.toList = [] := by
    obtain ⟨-, hload, hsettled⟩ := meets_of_not_loads (not_loads_of_settled hs) hmeets
    exact ⟨(hsettled hs).1, hload, (hsettled hs).2⟩
  rcases given_of_load (P := State.Settled) rfl (fun _ => rfl) hkeeps h with ⟨rfl, -⟩ | ⟨-, other, hsame, hlines⟩
  · cases hloaded
  · rw [hsame text hloaded, hlines]

theorem not_loaded_of_paged {height budget : Nat} (h : (paged width height (.nextLine none budget)).Dialogue log s) :
    ¬s.Loads ∧ ∀ text, .loaded text ∉ log := by
  refine h.holds (I := fun log (s : State) => ¬s.Loads ∧ ∀ text, .loaded text ∉ log) ⟨id, fun _ => nofun⟩ ?_
  rintro log exchange s t ⟨hs, hnone⟩ hmeets
  obtain ⟨ht, hload, -⟩ := meets_of_not_loads hs hmeets
  refine ⟨ht, fun text hmem => ?_⟩
  rcases List.mem_append.1 hmem with hmem | hmem
  · exact hnone text hmem
  · exact hload text (Option.mem_toList.1 hmem)

/-- In the end what is shown is what the lines and the keys make of the rows, if nothing follows the lines. -/
theorem said_of_ends {height : Nat} {start : State} {result : Except CommandError Unit}
    (hstands : Stands (max (width - 1) 1) (max (height - 1) 1) [] start)
    (hshows : Shows (max (width - 1) 1) (max (height - 1) 1) [] start)
    (h : (paged width height start).Ends log result) {keys : List (Option Key)} (hkeys : pressed log <+: keys)
    {later : List String} (hlater : Supplied log → later = []) :
    said log = display (max (height - 1) 1) keys ((given log ++ later).flatMap (rowsOf (max (width - 1) 1))) := by
  obtain ⟨s, hs, hfinish⟩ := h
  have hboth := hs.holds (I := fun log s => Stands (max (width - 1) 1) (max (height - 1) 1) log s ∧
    Shows (max (width - 1) 1) (max (height - 1) 1) log s) ⟨hstands, hshows⟩ fun hs hmeets =>
      ⟨stands_meets hs.1 hmeets, shows_meets hs.1.supplied hs.2 hmeets⟩
  obtain ⟨cancelled, rfl, -⟩ := eq_finish_of_next hfinish
  obtain ⟨more, rfl⟩ := hkeys
  have hshown := hboth.2 later more hlater
  rwa [State.todo, List.append_nil] at hshown

end Paged

/-! ### Without pages -/

/-- The lines still to be written of those that have come. -/
def Unpaged.pending : Unpaged → List String
  | .load _ => []
  | .copy source => source.getD []
  | .write line => [line]

/-- The input has ended when no more of it is copied. -/
def Unpaged.Accounts (log : List Exchange) : Unpaged → Prop
  | .load _ => False
  | .copy none | .write _ => True
  | .copy (some _) => .heard none ∈ log

section Unpaged

variable {log : List Exchange} {exchange : Option Exchange} {start s t : Unpaged} {path text : String}

/-- A line that comes is still to be written, and is written next. -/
theorem meets_unpaged (h : ((unpaged start).next s).Meets exchange t) :
    said exchange.toList ++ t.pending.map .writeLine = (s.pending ++ given exchange.toList).map .writeLine := by
  match s with
  | .load path =>
      cases h with
      | load path next text => simp [said, given, Unpaged.pending]
  | .copy none =>
      cases h with
      | read extent next text => cases text <;> rfl
  | .copy (some []) => cases h
  | .copy (some (line :: rest)) =>
      cases h
      simp [said, given, Unpaged.pending]
  | .write line =>
      cases h
      rfl

theorem said_unpaged (hstart : start.pending = []) (h : (unpaged start).Dialogue log s) :
    said log ++ s.pending.map .writeLine = (given log).map .writeLine := by
  refine h.holds (I := fun log (s : Unpaged) => said log ++ s.pending.map .writeLine = (given log).map .writeLine)
    (congrArg (List.map _) hstart) fun {log exchange s t} hs hmeets => ?_
  rw [said, List.filterMap_append, List.append_assoc]
  refine (congrArg (said log ++ ·) (meets_unpaged hmeets)).trans ?_
  rw [List.map_append, ← List.append_assoc, hs, ← List.map_append, given, given, given, List.flatMap_append]

/-- When it ends it has written all lines that have come. -/
theorem said_of_ends_unpaged {result : Except CommandError Unit} (hstart : start.pending = [])
    (h : (unpaged start).Ends log result) :
    said log = (given log).map .writeLine ∧ (unpaged start).Dialogue log (.copy (some [])) := by
  obtain ⟨s, hs, hfinish⟩ := h
  match s with
  | .copy (some []) => exact ⟨by simpa [Unpaged.pending] using said_unpaged hstart hs, hs⟩
  | .load path | .copy none | .copy (some (line :: rest)) | .write line => cases hfinish

theorem given_of_unpaged (h : (unpaged (.load path)).Dialogue log s) (hloaded : .loaded text ∈ log) :
    given log = lines text := by
  have hkeeps {s t : Unpaged} {exchange : Option Exchange} (hs : ∃ rest, s = .copy (some rest))
      (hmeets : ((unpaged (.load path)).next s).Meets exchange t) :
      (∃ rest, t = .copy (some rest)) ∧ (∀ text, exchange ≠ some (.loaded text)) ∧ given exchange.toList = [] := by
    obtain ⟨rest, rfl⟩ := hs
    cases rest with
    | nil => cases hmeets
    | cons line rest =>
        cases hmeets
        exact ⟨⟨rest, rfl⟩, fun _ => nofun, rfl⟩
  rcases given_of_load (P := fun s : Unpaged => ∃ rest, s = .copy (some rest)) rfl (fun _ => ⟨_, rfl⟩) hkeeps h with
    ⟨rfl, -⟩ | ⟨-, other, hsame, hlines⟩
  · cases hloaded
  · rw [hsame text hloaded, hlines]

/-- It loads nothing when it copies its input, and the input has ended when nothing is left to copy. -/
theorem accounts_of_unpaged (h : (unpaged (.copy none)).Dialogue log s) :
    (∀ text, .loaded text ∉ log) ∧ s.Accounts log := by
  refine h.holds (I := fun log (s : Unpaged) => (∀ text, .loaded text ∉ log) ∧ s.Accounts log)
    ⟨fun _ => nofun, trivial⟩ ?_
  rintro log exchange s t ⟨hload, hs⟩ hmeets
  match s with
  | .load path => exact hs.elim
  | .copy none =>
      cases hmeets with
      | read extent next text =>
          cases text with
          | none => exact ⟨by simp [hload], List.mem_append_right _ List.mem_cons_self⟩
          | some line => exact ⟨by simp [hload], trivial⟩
  | .copy (some []) => cases hmeets
  | .copy (some (line :: rest)) =>
      cases hmeets
      exact ⟨by simp [hload], List.mem_append_left _ hs⟩
  | .write line =>
      cases hmeets
      exact ⟨by simp [hload], trivial⟩

end Unpaged

/-! ### The rows of a text -/

/-- Carriage returns are not shown. -/
theorem rowsOf_filter (width : Nat) (line : List Char) :
    rowsOf width (String.ofList (line.filter (· != '\r'))) = rowsOf width (String.ofList line) := by
  have hshown : shown (String.ofList (line.filter (· != '\r'))) = shown (String.ofList line) := by
    rw [shown, shown, String.toList_ofList, String.toList_ofList, List.filter_filter]
    refine congrArg _ (List.filter_congr fun c _ => ?_)
    by_cases hreturn : c = '\r'
    · subst hreturn
      decide
    · simp [hreturn]
  rw [rowsOf, rowsOf, wrap, wrap, hshown]

/-- The two kinds of lines differ in one empty row at most. -/
theorem rows_lines (width : Nat) (text : String) : (lines text).flatMap (rowsOf width) =
    (lineTexts text).flatMap (rowsOf width) ++ if EndsInReturns text.toList then [""] else [] := by
  have h := congrArg List.flatten
    (map_lines (f := fun line => rowsOf width (String.ofList line)) (rowsOf_filter width) text)
  simp only [String.ofList_toList, List.flatten_append] at h
  rw [List.flatMap_def, List.flatMap_def, h]
  split_ifs <;> rfl

/-! ### The command -/

/-- `more` on a file of the world that is named, and on the same file as a redirected input: the same output, and
the same keys for the prompts. -/
structure BothWays (w : World) (path text : String) (context context' : Context) (call call' : Call)
    (keys : List (Option Key)) (log log' : List Exchange) : Prop where
  named : call.argument? "file" = some path
  unnamed : call'.argument? "file" = none
  input : context'.inputPiped = true
  output : context'.outputPiped = context.outputPiped
  window : context'.window = context.window
  ends : ∃ result, (more.body context call).Ends log result
  ends' : ∃ result, (more.body context' call').Ends log' result
  decoded : w.load path = .ok text
  loaded : .loaded text ∈ log
  hears : ∃ rest, Pipeline.openInput w (some (.file path)) = .ok (.redirected rest) ∧ Hears rest (heard log')
  typed : pressed log <+: keys
  typed' : pressed log' <+: keys

section Command

variable {w : World} {path text : String} {context context' : Context} {call call' : Call} {keys : List (Option Key)}
  {log log' : List Exchange}

theorem BothWays.exists_later (h : BothWays w path text context context' call call' keys log log')
    (hload : ∀ text, .loaded text ∉ log') :
    ∃ later, given log' ++ later = lineTexts text ∧ (.heard none ∈ log' → later = []) := by
  obtain ⟨rest, hopen, hheard⟩ := h.hears
  rw [Pipeline.openInput, h.decoded] at hopen
  cases hopen
  exact hheard.given hload

theorem BothWays.said_of_piped (h : BothWays w path text context context' call call' keys log log')
    (houtput : context.outputPiped = true) :
    said log = (lines text).map .writeLine ∧ said log' = (lineTexts text).map .writeLine := by
  have hbody : more.body context call = Paging.unpaged (.load path) := by simp [more, h.named, houtput]
  have hbody' : more.body context' call' = Paging.unpaged (.copy none) := by
    simp [more, h.unnamed, h.input, h.output, houtput]
  obtain ⟨result, hends⟩ := h.ends
  obtain ⟨result', hends'⟩ := h.ends'
  rw [hbody] at hends
  rw [hbody'] at hends'
  obtain ⟨hsaid, hlog⟩ := said_of_ends_unpaged rfl hends
  obtain ⟨hsaid', hlog'⟩ := said_of_ends_unpaged rfl hends'
  obtain ⟨hload, hnone⟩ := accounts_of_unpaged hlog'
  obtain ⟨later, hlater, hall⟩ := h.exists_later hload
  rw [hall hnone, List.append_nil] at hlater
  rw [hsaid, hsaid', given_of_unpaged hlog h.loaded, hlater]
  exact ⟨rfl, rfl⟩

theorem BothWays.said_of_terminal (h : BothWays w path text context context' call call' keys log log')
    (houtput : context.outputPiped = false) :
    said log = display (pageHeight context) keys ((lines text).flatMap (rowsOf (rowWidth context))) ∧
      said log' = display (pageHeight context) keys
        ((lineTexts text).flatMap (rowsOf (rowWidth context))) := by
  let width := context.window.1.getD defaultWidth
  let height := context.window.2.getD defaultHeight
  have hbody : more.body context call = Paging.paged width height (.load path) := by
    simp [more, h.named, houtput, width, height]
  have hbody' : more.body context' call' = Paging.paged width height (.nextLine none (pageHeight context)) := by
    simp [more, h.unnamed, h.input, h.output, h.window, houtput, pageHeight, width, height]
  obtain ⟨result, hends⟩ := h.ends
  obtain ⟨result', hends'⟩ := h.ends'
  rw [hbody] at hends
  rw [hbody'] at hends'
  constructor
  · obtain ⟨s, hs, -⟩ := id hends
    have hsaid := said_of_ends (stands_start _ _ (some path)) (shows_start _ _ (some path)) hends h.typed fun _ => rfl
    rwa [List.append_nil, given_of_paged hs h.loaded] at hsaid
  · obtain ⟨s, hs, -⟩ := id hends'
    have hload := (not_loaded_of_paged hs).2
    obtain ⟨later, hlater, hall⟩ := h.exists_later hload
    -- without a file that has been loaded, all lines have come only if the input has ended
    have hsupplied (h : Supplied log') : later = [] := by
      refine hall (h.resolve_left ?_)
      rintro ⟨text, htext, -⟩
      exact hload text htext
    have hsaid := said_of_ends (stands_start _ _ none) (shows_start _ _ none) hends' h.typed' hsupplied
    rwa [hlater] at hsaid

/-- Whatever is in a file, however large the window is and whatever is answered at the prompts: where output is
piped, `more` writes the lines of a file that is named, and the lines as they are read of one that is redirected,
which are the same exactly if a line feed follows every carriage return; on a terminal it shows the same rows, apart
from an empty one that comes last if the file is named and ends in a line of nothing but carriage returns. -/
theorem shown_both_ways (h : BothWays w path text context context' call call' keys log log') :
    (context.outputPiped = true → said log = (lines text).map .writeLine ∧
      said log' = (lineTexts text).map .writeLine ∧ (said log = said log' ↔ ReturnsEndLines text.toList)) ∧
    (context.outputPiped = false →
      let rows := (lineTexts text).flatMap (rowsOf (rowWidth context))
      let last := if EndsInReturns text.toList then [""] else []
      said log = display (pageHeight context) keys (rows ++ last) ∧
      said log' = display (pageHeight context) keys rows ∧
      (¬EndsInReturns text.toList → said log = said log')) := by
  constructor
  · intro houtput
    obtain ⟨hsaid, hsaid'⟩ := h.said_of_piped houtput
    refine ⟨hsaid, hsaid', ?_⟩
    rw [hsaid, hsaid', List.map_inj_right fun _ _ => OutputAction.writeLine.inj, lines_eq_lineTexts_iff]
  · intro houtput rows last
    obtain ⟨hsaid, hsaid'⟩ := h.said_of_terminal houtput
    rw [rows_lines] at hsaid
    refine ⟨hsaid, hsaid', fun hends => ?_⟩
    rw [hsaid, hsaid', if_neg hends, List.append_nil]

/-- A file with the text. -/
def fileWith (text : String) : World := .detached ⟨.ofList [("/f", .file text.toUTF8.data.toList)], "/"⟩ none {}

/-- The argument that names the file. -/
def namingFile : Call := { arguments := ⟨[("file", .text "/f")]⟩ }

/-- A window that is two rows high. -/
def twoRows : Context := { outputPiped := false, window := (none, some 2) }

/-- A last line of one carriage return, which comes after the prompt if the file is named. -/
theorem shown_both_ways_of_last_return : ∃ log log',
    BothWays (fileWith "a\n\r") "/f" "a\n\r" twoRows twoRows namingFile {} [some (.char ' ')] log log' ∧
      said log = [.writeLine "a", .write prompt, .write erasePrompt, .writeLine ""] ∧
      said log' = [.writeLine "a"] := by
  have hlines : lines "a\n\r" = ["a", "\r"] := by decide +kernel
  have hread : readLines [] "a\n\r".toList = ["a"].map String.toList := by decide +kernel
  have hfirst : wrap 79 "a" = ("a", []) := by decide +kernel
  have hlast : wrap 79 "\r" = ("", []) := by decide +kernel
  let b := paged 80 2 (.load "/f")
  have h : b.Dialogue [] (.load "/f") := .start
  have h : b.Dialogue _ (.nextLine (some (lines "a\n\r")) 1) := h.goOn (.load _ _ _)
  rw [hlines] at h
  have h : b.Dialogue _ (afterRow (some ["\r"]) (wrap 79 "a").2 0) := h.goOn (.output _ _)
  rw [hfirst] at h
  have h : b.Dialogue _ (.prompt (some []) (wrap 79 "\r").1 (wrap 79 "\r").2) := h.goOn (.flushKeys _)
  rw [hlast] at h
  have h := (h.goOn (.output _ _)).goOn (.readKey _ (some (.char ' ')))
  have h := ((h.goOn (.output _ _)).goOn (.output _ _)).goOn (.checkCancelled _ false)
  let b' := paged 80 2 (.nextLine none 1)
  have h' : b'.Dialogue [] (.nextLine none 1) := .start
  have h' : b'.Dialogue _ (.row none (wrap 79 "a").1 (wrap 79 "a").2 1) := h'.goOn (.read .line _ (some "a"))
  rw [hfirst] at h'
  have h' := ((h'.goOn (.output _ _)).goOn (.read .line _ none)).goOn (.checkCancelled _ false)
  have hboth : BothWays (fileWith "a\n\r") "/f" "a\n\r" twoRows twoRows namingFile {} [some (.char ' ')] _ _ :=
    { named := by decide +kernel
      unnamed := rfl
      input := rfl
      output := rfl
      window := rfl
      ends := ⟨_, _, h, rfl⟩
      ends' := ⟨_, _, h', rfl⟩
      decoded := by rfl
      loaded := by simp
      hears := ⟨_, rfl, hears_lines hread⟩
      typed := List.prefix_rfl
      typed' := List.nil_prefix }
  obtain ⟨hsaid, hsaid', -⟩ := (shown_both_ways hboth).2 rfl
  have hrows : (lineTexts "a\n\r").flatMap (rowsOf (rowWidth twoRows)) = ["a"] := by decide +kernel
  rw [hrows] at hsaid hsaid'
  exact ⟨_, _, hboth, hsaid.trans (by decide +kernel), hsaid'⟩

/-- A carriage return within a line is written if the file is named. -/
theorem returns_within_line : ∃ log log',
    BothWays (fileWith "a\rb\n") "/f" "a\rb\n" {} {} namingFile {} [] log log' ∧
      said log = [.writeLine "a\rb"] ∧ said log' = [.writeLine "ab"] := by
  have hlines : lines "a\rb\n" = ["a\rb"] := by decide +kernel
  have hread : readLines [] "a\rb\n".toList = ["ab"].map String.toList := by decide +kernel
  have h : (unpaged (.load "/f")).Dialogue [] (.load "/f") := .start
  have h : (unpaged (.load "/f")).Dialogue _ (.copy (some (lines "a\rb\n"))) := h.goOn (.load _ _ _)
  rw [hlines] at h
  have h := h.goOn (.output _ _)
  have h' : (unpaged (.copy none)).Dialogue [] (.copy none) := .start
  have h' := (h'.goOn (.read .line _ (some "ab"))).goOn (.output _ _)
  have h' := h'.goOn (.read .line _ none)
  exact ⟨_, _,
    { named := by decide +kernel
      unnamed := rfl
      input := rfl
      output := rfl
      window := rfl
      ends := ⟨_, _, h, rfl⟩
      ends' := ⟨_, _, h', rfl⟩
      decoded := by rfl
      loaded := by simp
      hears := ⟨_, rfl, hears_lines hread⟩
      typed := List.nil_prefix
      typed' := List.nil_prefix }, rfl, rfl⟩

end Command

end CommandShell.Builtin.Paging
