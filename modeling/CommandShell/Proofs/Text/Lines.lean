import CommandShell.Proofs.Link.Lines
import CommandShell.Text.Lines

/-!
Lines with carriage returns.  Main statements: the lines of a text, of which each loses one carriage return at its
end, are the lines as they are read, which lose all of them, exactly if a line feed follows every carriage return;
without what cannot be shown the two differ at most in a last line of nothing but carriage returns.
-/

namespace CommandShell.Text

open Builtin

/-- A line feed follows every carriage return. -/
def ReturnsEndLines (cs : List Char) : Prop := ∀ before after, cs = before ++ '\r' :: after → after.head? = some '\n'

section Returns

variable {line cs : List Char} {c : Char}

theorem returnsEndLines_cons :
    ReturnsEndLines (c :: cs) ↔ (c = '\r' → cs.head? = some '\n') ∧ ReturnsEndLines cs := by
  constructor
  · intro h
    refine ⟨?_, fun before after heq => h (c :: before) after (by rw [heq]; rfl)⟩
    rintro rfl
    exact h [] cs rfl
  · rintro ⟨hc, hcs⟩ (_ | ⟨d, before⟩) after heq
    · cases heq
      exact hc rfl
    · cases heq
      exact hcs before after rfl

theorem returnsEndLines_iff_notMem (hline : '\n' ∉ line) : ReturnsEndLines line ↔ '\r' ∉ line := by
  constructor
  · intro h hmem
    obtain ⟨before, after, rfl⟩ := List.append_of_mem hmem
    obtain ⟨rest, rfl⟩ := List.head?_eq_some_iff.1 (h before after rfl)
    exact hline (by simp)
  · rintro h before after rfl
    exact absurd (by simp) h

theorem returnsEndLines_append_feed (hline : '\n' ∉ line) :
    ReturnsEndLines (line ++ '\n' :: cs) ↔ '\r' ∉ line.dropLast ∧ ReturnsEndLines cs := by
  induction line with
  | nil => simp [returnsEndLines_cons]
  | cons c line ih =>
      rw [List.mem_cons, not_or] at hline
      rw [List.cons_append, returnsEndLines_cons, ih hline.2, ← and_assoc]
      refine and_congr_left fun _ => ?_
      cases line with
      | nil => simp
      | cons d line =>
          have hd : d ≠ '\n' := fun heq => hline.2 (by simp [heq])
          simp [hd, eq_comm (a := c)]

/-- A line without the carriage return that it ends with. -/
def chomp (line : List Char) : List Char := if line.getLast? = some '\r' then line.dropLast else line

theorem linesFrom_cons (line cs : List Char) (c : Char) : lines.linesFrom line.reverse (c :: cs) =
    if c = '\n' then String.ofList (chomp line) :: lines.linesFrom [] cs
    else lines.linesFrom (line ++ [c]).reverse cs := by
  rcases line.eq_nil_or_concat with rfl | ⟨init, d, rfl⟩
  · rfl
  · by_cases hd : d = '\r' <;> simp [lines.linesFrom, chomp, hd]

theorem filter_eq_self_iff : line.filter (· != '\r') = line ↔ '\r' ∉ line := by
  rw [List.filter_eq_self, ← List.forall_mem_ne']
  simp only [bne_iff_ne]

/-- A line loses the same in both ways if there is a carriage return at its end at most. -/
theorem chomp_eq_filter_iff : chomp line = line.filter (· != '\r') ↔ '\r' ∉ line.dropLast := by
  rcases line.eq_nil_or_concat with rfl | ⟨init, d, rfl⟩
  · simp [chomp]
  · rw [List.concat_eq_append, List.dropLast_concat, ← filter_eq_self_iff, eq_comm (b := init),
      List.filter_append, chomp, List.getLast?_concat]
    by_cases hd : d = '\r' <;> simp [hd]

end Returns

/-- What has been read of a line and what follows it give the same lines in both ways. -/
theorem linesFrom_eq_readLines_iff {line : List Char} (hline : '\n' ∉ line) (cs : List Char) :
    (lines.linesFrom line.reverse cs).map String.toList = readLines (line.filter (· != '\r')) cs ↔
      ReturnsEndLines (line ++ cs) := by
  -- one way has kept the carriage returns of the line under way, the other has dropped them
  induction cs generalizing line with
  | nil =>
      rw [List.append_nil, returnsEndLines_iff_notMem hline, ← filter_eq_self_iff, lines.linesFrom, readLines]
      by_cases hempty : line = []
      · simp [hempty]
      · by_cases hreturns : line.filter (· != '\r') = []
        · simp [hempty, hreturns, Ne.symm hempty]
        · simp [hempty, hreturns, eq_comm (a := line)]
  | cons c cs ih =>
      rw [linesFrom_cons, readLines]
      by_cases hfeed : c = '\n'
      · subst hfeed
        rw [if_pos rfl, if_pos rfl, returnsEndLines_append_feed hline, List.map_cons, String.toList_ofList,
          List.cons_eq_cons, chomp_eq_filter_iff]
        exact and_congr_right fun _ => ih List.not_mem_nil
      · have hlong : '\n' ∉ line ++ [c] := by simp [hline, Ne.symm hfeed]
        rw [if_neg hfeed, if_neg hfeed, List.append_cons line c cs, ← ih hlong, List.filter_append]
        by_cases hreturn : c = '\r'
        · simp [hreturn]
        · simp [hreturn]

theorem lines_eq_lineTexts_iff (s : String) : lines s = lineTexts s ↔ ReturnsEndLines s.toList := by
  rw [← List.map_inj_right (f := String.toList) (fun _ _ => String.toList_inj.1), map_toList_lineTexts]
  exact @linesFrom_eq_readLines_iff [] List.not_mem_nil s.toList

/-! ### Lines of nothing but carriage returns -/

/-- What follows the last line feed, after what has been read of a line. -/
def lastLine (line : List Char) : List Char → List Char
  | [] => line
  | c :: cs => if c = '\n' then lastLine [] cs else lastLine (line ++ [c]) cs

/-- The last line is not ended, and there is nothing but carriage returns in it. -/
def EndsInReturns (cs : List Char) : Prop := lastLine [] cs ≠ [] ∧ (lastLine [] cs).filter (· != '\r') = []

instance (cs : List Char) : Decidable (EndsInReturns cs) := inferInstanceAs (Decidable (_ ∧ _))

section Returns

variable {β : Type} {f : List Char → β} (hf : ∀ line, f (line.filter (· != '\r')) = f line)

theorem filter_chomp (line : List Char) : (chomp line).filter (· != '\r') = line.filter (· != '\r') := by
  rcases line.eq_nil_or_concat with rfl | ⟨init, d, rfl⟩
  · rfl
  · by_cases hd : d = '\r' <;> simp [chomp, hd]

include hf

theorem map_linesFrom (line cs : List Char) :
    (lines.linesFrom line.reverse cs).map (f ·.toList) =
      (readLines (line.filter (· != '\r')) cs).map f ++
        if lastLine line cs ≠ [] ∧ (lastLine line cs).filter (· != '\r') = [] then [f []] else [] := by
  induction cs generalizing line with
  | nil =>
      rw [lines.linesFrom, readLines, lastLine]
      by_cases hempty : line = []
      · simp [hempty]
      · by_cases hreturns : line.filter (· != '\r') = []
        · simp [hempty, hreturns, ← hf line]
        · simp [hempty, hreturns, hf]
  | cons c cs ih =>
      rw [linesFrom_cons, readLines, lastLine]
      by_cases hfeed : c = '\n'
      · have hline : f (chomp line) = f (line.filter (· != '\r')) := by rw [← hf, filter_chomp]
        rw [if_pos hfeed, if_pos hfeed, if_pos hfeed, List.map_cons, String.toList_ofList, List.map_cons,
          List.cons_append, hline]
        exact congrArg _ (ih [])
      · rw [if_neg hfeed, if_neg hfeed, if_neg hfeed, ih, List.filter_append]
        by_cases hreturn : c = '\r'
        · simp [hreturn]
        · simp [hreturn]

/-- Where carriage returns make no difference, the two ways differ at most in an empty last line. -/
theorem map_lines (s : String) : (lines s).map (f ·.toList) =
    (lineTexts s).map (f ·.toList) ++ if EndsInReturns s.toList then [f []] else [] := by
  have h := map_linesFrom hf [] s.toList
  rw [show [].filter (· != '\r') = [] from rfl, ← map_toList_lineTexts, List.map_map] at h
  exact h

end Returns

end CommandShell.Text
