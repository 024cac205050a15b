import CommandShell.Proofs.Lists
import CommandShell.Proofs.Pipeline.InTurn
import Mathlib.Algebra.Ring.Parity

/-!
Lines reversed an even number of times.  Main statement: a pipeline that ends in pairs of `reverse` gives out the
text that comes to the first pair, without its carriage returns and with its last line ended, whatever the links
hold, in whatever order the stages take their steps, and however many pairs there are.
-/

namespace CommandShell

open Builtin Text

namespace Text

/-- The text without carriage returns and with its last line ended. -/
def tidied (cs : List Char) : List Char := endLine ['\n'] (cs.filter (· != '\r'))

theorem endLine_append_feed (line cs : List Char) :
    endLine ['\n'] (line ++ '\n' :: cs) = line ++ '\n' :: endLine ['\n'] cs := by
  cases cs with
  | nil => simp [endLine]
  | cons c cs =>
      have hlast : (line ++ '\n' :: c :: cs).getLast? = (c :: cs).getLast? := by
        rw [List.getLast?_append_cons, List.getLast?_cons_cons]
      by_cases hended : (c :: cs).getLast? = some '\n'
      · rw [endLine, if_pos (.inr (hlast.trans hended)), endLine, if_pos (.inr hended)]
      · rw [endLine, if_neg (by simp [hlast, hended]), endLine, if_neg (by simp [hended])]
        simp

/-- Characters of lines are shown as they are. -/
theorem shownAs_of_isLineChar {line : List Char} (h : ∀ c ∈ line, IsLineChar c) (lineBreak : List Char) :
    shownAs lineBreak line = line := by
  induction line with
  | nil => rfl
  | cons c line ih =>
      obtain ⟨⟨hfeed, hreturn⟩, hline⟩ := List.forall_mem_cons.1 h
      have hone : shownAs lineBreak [c] = [c] := by simp [shownAs, hfeed, hreturn]
      rw [← List.singleton_append, shownAs_append, hone, ih hline]

/-- A line break that may have carriage returns in front is shown as itself. -/
theorem shownAs_break {lineBreak : List Char} (h : lineBreak.filter (· != '\r') = ['\n']) (other : List Char) :
    shownAs other lineBreak = other := by
  simp [shownAs, h]

theorem shownAs_feed (cs : List Char) : shownAs ['\n'] cs = cs.filter (· != '\r') := by
  have hone (c : Char) : (if c = '\n' then ['\n'] else [c]) = [c] := by
    split_ifs with hfeed
    · rw [hfeed]
    · rfl
  simp only [shownAs, hone, List.flatMap_singleton']

/-- What has been shown is shown as it is. -/
theorem shownAs_shownAs {lineBreak : List Char} (h : lineBreak.filter (· != '\r') = ['\n']) (cs : List Char) :
    shownAs lineBreak (shownAs lineBreak cs) = shownAs lineBreak cs := by
  induction cs with
  | nil => rfl
  | cons c cs ih =>
      have hone : shownAs lineBreak (shownAs lineBreak [c]) = shownAs lineBreak [c] := by
        by_cases hreturn : c = '\r'
        · simp [shownAs, hreturn]
        · by_cases hfeed : c = '\n'
          · subst hfeed
            have hbreak : shownAs lineBreak ['\n'] = lineBreak := shownAs_break rfl lineBreak
            rw [hbreak, shownAs_break h]
          · simp [shownAs, hreturn, hfeed]
      rw [← List.singleton_append, shownAs_append, shownAs_append, hone, ih]

/-- Either there is no text or it ends with a line feed. -/
theorem tidied_cases (cs : List Char) : tidied cs = [] ∨ ∃ text, tidied cs = text ++ ['\n'] := by
  rw [tidied, endLine]
  split_ifs with hended
  · rcases hended with hempty | hlast
    · exact .inl hempty
    · exact .inr (List.getLast?_eq_some_iff.1 hlast)
  · exact .inr ⟨_, rfl⟩

theorem filter_tidied (cs : List Char) : (tidied cs).filter (· != '\r') = tidied cs := by
  rw [tidied, endLine]
  split_ifs <;> simp

/-- The last line is ended already. -/
theorem endLine_shownAs_tidied {lineBreak : List Char} (h : lineBreak.getLast? = some '\n') (cs : List Char) :
    endLine lineBreak (shownAs lineBreak (tidied cs)) = shownAs lineBreak (tidied cs) := by
  rcases tidied_cases cs with hempty | ⟨text, htext⟩
  · rw [hempty]
    rfl
  · have hbreak : shownAs lineBreak ['\n'] = lineBreak := shownAs_break rfl lineBreak
    rw [htext, shownAs_append, hbreak, endLine, if_pos]
    rw [List.getLast?_append, h]
    exact .inr rfl

end Text

namespace Builtin

variable {lineBreak s : List Char} {lines : List (List Char)}

theorem isLineChar_readLines {line : List Char} (hline : ∀ c ∈ line, IsLineChar c) (cs : List Char) :
    ∀ l ∈ readLines line cs, ∀ c ∈ l, IsLineChar c := by
  induction cs generalizing line with
  | nil =>
      rw [readLines]
      split
      · exact List.forall_mem_nil _
      · exact List.forall_mem_singleton.2 hline
  | cons c cs ih =>
      rw [readLines]
      split_ifs with hfeed hreturn
      · exact List.forall_mem_cons.2 ⟨hline, ih (List.forall_mem_nil _)⟩
      · exact ih hline
      · exact ih (List.forall_mem_append.2 ⟨hline, List.forall_mem_singleton.2 ⟨hfeed, hreturn⟩⟩)

/-- Lines that have been written are read as they are. -/
theorem readLines_flatMap (h : ∀ l ∈ lines, ∀ c ∈ l, IsLineChar c) :
    readLines [] (lines.flatMap (· ++ ['\n'])) = lines := by
  induction lines with
  | nil => rfl
  | cons line lines ih =>
      obtain ⟨hline, hlines⟩ := List.forall_mem_cons.1 h
      rw [List.flatMap_cons, List.append_assoc, readLines_append hline, List.nil_append, List.singleton_append,
        readLines, if_pos rfl, ih hlines]

/-- The lines of a text, each with a line break, are the text without carriage returns and with its last line
ended. -/
theorem flatMap_readLines {line : List Char} (hline : ∀ c ∈ line, IsLineChar c) (cs : List Char) :
    (readLines line cs).flatMap (· ++ ['\n']) = endLine ['\n'] (line ++ cs.filter (· != '\r')) := by
  induction cs generalizing line with
  | nil =>
      rw [readLines, List.filter_nil, List.append_nil]
      rcases line.eq_nil_or_concat with rfl | ⟨pre, c, rfl⟩
      · rfl
      · have hc : c ≠ '\n' := (hline c (by simp)).1
        simp [endLine, hc]
  | cons c cs ih =>
      rw [readLines]
      split_ifs with hfeed hreturn
      · subst hfeed
        rw [List.flatMap_cons, ih (List.forall_mem_nil _), List.filter_cons_of_pos (by decide), endLine_append_feed]
        simp
      · subst hreturn
        rw [ih hline, List.filter_cons_of_neg (by decide)]
      · have hlong : ∀ d ∈ line ++ [c], IsLineChar d :=
          List.forall_mem_append.2 ⟨hline, List.forall_mem_singleton.2 ⟨hfeed, hreturn⟩⟩
        rw [ih hlong, List.filter_cons_of_pos (by simpa using hreturn), List.append_assoc, List.singleton_append]

/-- Lines with other line breaks are what a terminal with these line breaks shows of them. -/
theorem flatMap_lineBreak (h : ∀ l ∈ lines, ∀ c ∈ l, IsLineChar c) :
    lines.flatMap (· ++ lineBreak) = shownAs lineBreak (lines.flatMap (· ++ ['\n'])) := by
  induction lines with
  | nil => rfl
  | cons line lines ih =>
      obtain ⟨hline, hlines⟩ := List.forall_mem_cons.1 h
      have hbreak : shownAs lineBreak ['\n'] = lineBreak := shownAs_break rfl lineBreak
      rw [List.flatMap_cons, List.flatMap_cons, shownAs_append, shownAs_append, ih hlines,
        shownAs_of_isLineChar hline, hbreak]

/-! ### Stages one after another -/

/-- What comes to a stage from those before it. -/
def arriving : List TextStage → List Char → List Char
  | [], s => s
  | t :: stages, s => arriving stages (t.yield ['\n'] s).out

theorem arriving_append (before stages : List TextStage) (s : List Char) :
    arriving (before ++ stages) s = arriving stages (arriving before s) := by
  induction before generalizing s with
  | nil => rfl
  | cons t before ih => exact ih _

/-- The last stage is run on what comes to it. -/
theorem outputInTurn_concat (before : List TextStage) (t : TextStage) (s : List Char) :
    outputInTurn lineBreak (before ++ [t]) s = endLine lineBreak (t.yield lineBreak (arriving before s)).out := by
  have hlast : (inTurn lineBreak (before ++ [t]) s).getLast? = some (t.yield lineBreak (arriving before s)) := by
    induction before generalizing s with
    | nil => rfl
    | cons u before ih =>
        obtain ⟨v, stages, hcons⟩ := List.exists_cons_of_ne_nil (show before ++ [t] ≠ [] by simp)
        have hrest := ih (u.yield ['\n'] s).out
        rw [hcons] at hrest
        rw [List.cons_append, hcons, inTurn, List.getLast?_cons, hrest]
        rfl
  rw [outputInTurn, hlast]
  rfl

theorem out_reverse : (TextStage.reverse.yield lineBreak s).out =
    ((readLines [] s).map List.reverse).flatMap (· ++ lineBreak) := by
  rw [List.flatMap_map]
  rfl

theorem readLines_out_reverse :
    readLines [] (TextStage.reverse.yield ['\n'] s).out = (readLines [] s).map List.reverse := by
  rw [out_reverse]
  refine readLines_flatMap (List.forall_mem_map.2 fun l hl c hc => ?_)
  exact isLineChar_readLines (List.forall_mem_nil _) s l hl c (List.mem_reverse.1 hc)

/-- Each `reverse` reverses the lines. -/
theorem readLines_arriving_reverse (n : Nat) (s : List Char) :
    readLines [] (arriving (List.replicate n .reverse) s) = (List.map List.reverse)^[n] (readLines [] s) := by
  induction n generalizing s with
  | zero => rfl
  | succ n ih => rw [List.replicate_succ, arriving, ih, readLines_out_reverse, Function.iterate_succ_apply]

theorem involutive_map_reverse : Function.Involutive (List.map (List.reverse (α := Char))) := fun lines => by
  simp

/-- After an even number of times each line is as it was. -/
theorem outputInTurn_reverse (before : List TextStage) (n : Nat) (s : List Char) :
    outputInTurn lineBreak (before ++ List.replicate (2 * (n + 1)) .reverse) s =
      endLine lineBreak (shownAs lineBreak (tidied (arriving before s))) := by
  -- the last stage writes the line breaks of the output, all others write line feeds
  have hline := isLineChar_readLines (List.forall_mem_nil _) (arriving before s)
  rw [show 2 * (n + 1) = 2 * n + 1 + 1 from rfl, List.replicate_succ', ← List.append_assoc, outputInTurn_concat,
    arriving_append, out_reverse, readLines_arriving_reverse, involutive_map_reverse.iterate_two_mul_add_one,
    involutive_map_reverse, flatMap_lineBreak hline, flatMap_readLines (List.forall_mem_nil _), List.nil_append,
    tidied]

end Builtin

namespace Sink

variable {sink : Sink} {w v : World} {s : List Char}

/-- Where lines are ended in one of the usual ways, the line breaks that are received are those of the text. -/
theorem Received.tidied {lineBreak : List Char}
    (hbreak : (ChainOutput.new sink w.terminal).lineTermination.toList = lineBreak)
    (husual : lineBreak = ['\n'] ∨ lineBreak = ['\r', '\n'])
    (h : sink.Received w v (endLine lineBreak (shownAs lineBreak (Text.tidied s)))) :
    sink.Received w v (Text.tidied s) := by
  have hfilter : lineBreak.filter (· != '\r') = ['\n'] := by rcases husual with rfl | rfl <;> rfl
  have hlast : lineBreak.getLast? = some '\n' := by rcases husual with rfl | rfl <;> rfl
  rw [endLine_shownAs_tidied hlast] at h
  cases sink with
  | terminal =>
      have hterminal : w.terminal.lineTermination.toList = lineBreak := hbreak
      rw [Received, hterminal] at h ⊢
      rwa [shownAs_shownAs hfilter] at h
  | file id =>
      obtain rfl : lineBreak = ['\n'] := by simp [← hbreak, ChainOutput.new]
      rwa [shownAs_feed, filter_tidied] at h
  | null => trivial

end Sink

namespace Builtin

theorem steady_transformingLines (f : String → Option String) : (transformingLines f).Steady := by
  intro s
  match s with
  | .read | .write line | .check | .finish cancelled => rfl

theorem steady_teeing (path : String) (append : Bool) : (teeing path append).Steady := by
  intro s
  match s with
  | .makeFolders | .openFile | .read file | .store file text | .write file text | .flush file | .check
  | .finish cancelled => rfl

theorem steady_writingLines (lines : List String) : (Body.writingLines lines).Steady := by
  intro s
  match s with
  | none | some ⟨[], result⟩ | some ⟨action :: rest, result⟩ => rfl

theorem TextStage.steady (t : TextStage) : t.body.Steady := by
  cases t with
  | echo text => exact steady_writingLines [text]
  | passthrough => exact steady_copying
  | reverse => exact steady_transformingLines reverseLine
  | grep inverted automata => exact steady_transformingLines (keepLine inverted automata)
  | tee path append => exact steady_teeing path append

end Builtin

namespace Pipeline

variable {p : Pipeline} {w : World} {stages before : List TextStage} {n : Nat}

/-- As long as such a pipeline is unfinished, one of its stages can take a step. -/
theorem exists_step_of_ofText (h : p.OfText w stages) (hne : stages ≠ []) {schedule : List Nat} {c : Chain}
    (hrun : (p.start w).follow schedule = some c) (hunfinished : c.isFinished = false) :
    ∃ i d, c.step i = some d := by
  have hinvocations : p.invocations ≠ [] := fun hnil =>
    hne (List.forall₂_nil_right_iff.1 (hnil ▸ h.commands))
  have hfresh := fresh_start p w hinvocations
  have hreach := Chain.reach_of_follow hrun
  refine Chain.exists_step (Chain.joined_of_reach hfresh hreach) ?_ hunfinished
  refine Chain.steady_of_reach (Chain.steady_of_fresh hfresh h.input fun v hv => ?_) hreach
  obtain ⟨i, hi⟩ := List.mem_iff_getElem?.1 hv
  obtain ⟨context, invocation, hinvocation, rfl⟩ := exists_invocation hi
  obtain ⟨t, -, ht⟩ := exists_of_mem_forall₂ h.commands (List.mem_of_getElem? hinvocation)
  rw [Worker.start, TextStage.body_eq ht]
  exact t.steady

/-- Whatever text comes to pairs of `reverse`, from a redirected input or from the stages before: as long as a
stage is unfinished one can take a step, and once all have finished the output has received that text without its
carriage returns and with its last line ended, in the output's own line breaks.  It is the same text after one pair
and after more of them. -/
theorem restored_of_pairs (h : p.OfText w (before ++ List.replicate (2 * (n + 1)) .reverse))
    (hcancelled : w.isCancelled p.token = false) {schedule : List Nat} {c : Chain}
    (hrun : (p.start w).follow schedule = some c) :
    let text := tidied (arriving before p.input.rest)
    (c.isFinished = false → ∃ i d, c.step i = some d) ∧
    (c.isFinished = true → c.failures = [] ∧
      p.output.Received w c.world (endLine (p.lineBreak w) (shownAs (p.lineBreak w) text)) ∧
      (p.lineBreak w = ['\n'] ∨ p.lineBreak w = ['\r', '\n'] → p.output.Received w c.world text)) := by
  intro text
  have hne : before ++ List.replicate (2 * (n + 1)) TextStage.reverse ≠ [] := by simp
  refine ⟨exists_step_of_ofText h hne hrun, fun hfinished => ?_⟩
  obtain ⟨phase, g, stored, written, hc⟩ := Chain.onTrack_follow (onTrack_start h hne hcancelled) hrun
  have hreceived := received_inTurn h (length_links h hne hrun) hc hfinished
  rw [outputInTurn_reverse] at hreceived
  exact ⟨hc.failures, hreceived, fun husual => .tidied rfl husual hreceived⟩

/-- `reverse | reverse` on a text whose last line is not ended, over a link that holds one character. -/
def reverseTwice : Pipeline where
  invocations := [calling Builtin.reverse {}, calling Builtin.reverse {}]
  input := .redirected ['\r', '\n', 'a', 'b']
  output := .terminal
  errorSink := .terminal
  token := 1
  guard := ⟨0, 0⟩
  setting := { registry := {}, settings := { linkCapacity := 0 } }

theorem ofText_reverseTwice : reverseTwice.OfText empty ([] ++ List.replicate (2 * (0 + 1)) .reverse) where
  commands := .cons ⟨_, _, rfl, rfl⟩ (.cons ⟨_, _, rfl, rfl⟩ .nil)
  input := nofun
  output := rfl
  opens t ht path append huse := by
    rw [List.nil_append] at ht
    rw [List.eq_of_mem_replicate ht] at huse
    cases huse
  distinct := List.nodup_nil
  folders t ht u hu place hplace := by
    rw [List.nil_append] at ht
    rw [List.eq_of_mem_replicate ht] at hplace
    cases hplace

theorem restored_of_pairs_of_blank_line : ∃ c,
    (reverseTwice.start empty).follow
      ([1, 0, 0, 0, 0, 0, 1, 1, 1, 0, 0, 0, 0, 0, 0, 0] ++ [1, 0, 1, 0, 1, 1, 1, 0, 0, 0, 0, 0, 1, 1, 1]) = some c ∧
    c.isFinished = true ∧ c.failures = [] ∧ reverseTwice.output.Received empty c.world ['\n', 'a', 'b', '\n'] := by
  have hrun : ((reverseTwice.start empty).follow
      ([1, 0, 0, 0, 0, 0, 1, 1, 1, 0, 0, 0, 0, 0, 0, 0] ++
        [1, 0, 1, 0, 1, 1, 1, 0, 0, 0, 0, 0, 1, 1, 1])).map (·.isFinished) = some true := by
    rfl
  obtain ⟨c, hc, hfinished⟩ := Option.map_eq_some_iff.1 hrun
  obtain ⟨hfailures, -, hreceived⟩ := (restored_of_pairs ofText_reverseTwice rfl hc).2 hfinished
  exact ⟨c, hc, hfinished, hfailures, hreceived (.inr rfl)⟩

end Pipeline

end CommandShell
