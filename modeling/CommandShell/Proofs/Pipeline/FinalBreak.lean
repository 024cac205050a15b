import CommandShell.Proofs.Chain.Actions
import CommandShell.Proofs.Pipeline.Redirecting

/-!
The last line of a file that output is redirected to.  Main statement: the file takes the text of all actions,
and then a line break if the text since the screen was last cleared does not end with one; so a line that is
unfinished when the screen is cleared is ended only if more is written.
-/

namespace CommandShell

open Text OutputAction ChainOutput

namespace OutputAction

/-- What has been written since the screen was last cleared is the end of all that has been written. -/
theorem sinceClear_suffix (actions : List OutputAction) : sinceClear actions <:+ textOf actions := by
  induction actions using List.reverseRecOn with
  | nil => exact List.nil_suffix
  | append_singleton actions action ih =>
      rw [sinceClear_concat, textOf_concat]
      split
      · exact List.nil_suffix
      · obtain ⟨front, hfront⟩ := ih
        exact ⟨front, by rw [← hfront, List.append_assoc]⟩

theorem getLast?_sinceClear {actions : List OutputAction} (h : sinceClear actions ≠ []) :
    (sinceClear actions).getLast? = (textOf actions).getLast? := by
  obtain ⟨front, hfront⟩ := sinceClear_suffix actions
  rw [← hfront, List.getLast?_append, List.getLast?_eq_some_getLast h, Option.some_or]

/-- The last line is ended unless it was unfinished when the screen was cleared and nothing came after. -/
theorem textOf_append_finalBreak_eq_iff (actions : List OutputAction) :
    textOf actions ++ finalBreak actions = endLine ['\n'] (textOf actions) ↔
      textOf actions = [] ∨ (textOf actions).getLast? = some '\n' ∨ sinceClear actions ≠ [] := by
  by_cases hclear : sinceClear actions = []
  · rw [finalBreak, if_pos (.inl hclear), endLine]
    by_cases hended : textOf actions = [] ∨ (textOf actions).getLast? = some '\n'
    · rw [if_pos hended]
      simpa [hclear] using hended
    · rw [if_neg hended]
      simpa [hclear] using hended
  · have htext : textOf actions ≠ [] := fun hnil => hclear (List.suffix_nil.1 (hnil ▸ sinceClear_suffix actions))
    have hsame : textOf actions ++ finalBreak actions = endLine ['\n'] (textOf actions) := by
      simp only [finalBreak, endLine, hclear, htext, false_or, getLast?_sinceClear hclear]
      split <;> simp
    simp [hsame, hclear]

end OutputAction

namespace Pipeline

variable {w v : World} {path : String} {append : Bool} {sink : Sink}

/-- Whatever is done to an output that is redirected to a file succeeds.  Once the command has ended, the file
has all text that was written, and then a line break exactly if the text since the last clearing of the screen
is not empty and does not end with one.  So the last line is ended, and clearing the screen has changed
nothing, unless an unfinished line was followed by clearing the screen and no more text. -/
theorem added_of_performAll (hopen : openSink w (some (.file path append)) = .ok (sink, v)) (t : Terminal)
    (actions : List OutputAction) :
    ∃ o u p x, (ChainOutput.new sink t).performAll v actions = (.ok (), o, u) ∧
      o.endOfCommand u = (.ok (), p, x) ∧ w.Added x path append (OutputAction.textOf actions ++ finalBreak actions) ∧
      (OutputAction.textOf actions ++ finalBreak actions = endLine ['\n'] (OutputAction.textOf actions) ↔
        OutputAction.textOf actions = [] ∨ (OutputAction.textOf actions).getLast? = some '\n' ∨
          sinceClear actions ≠ []) := by
  obtain ⟨id, rfl, htakes, -, -⟩ := takes_openSink hopen
  have hnew : Poured (w.destination path append id) (ChainOutput.new (.file id) t) v (OutputAction.textOf [])
      (sinceClear []) :=
    ⟨rfl, rfl, by simp [ChainOutput.new, sinceClear], htakes⟩
  obtain ⟨o, u, hall, ho⟩ := poured_performAll hnew actions
  obtain ⟨p, x, hend, hholds, -⟩ := poured_endOfCommand ho
  exact ⟨o, u, p, x, hall, hend, World.added_of_holds hholds, textOf_append_finalBreak_eq_iff actions⟩

/-- A line that is ended although the screen was cleared in it. -/
theorem added_of_performAll_of_resumed :
    ∃ sink v o u p x, openSink oneFile (some (.file "/f" true)) = .ok (sink, v) ∧
      (ChainOutput.new sink {}).performAll v [.write "a", .clearScreen, .write "b"] = (.ok (), o, u) ∧
      o.endOfCommand u = (.ok (), p, x) ∧
      x.files.node? "/f" = some (.file (bytesOf "old\nab\n".toList)) := by
  obtain ⟨sink, v, hopen⟩ : ∃ sink v, openSink oneFile (some (.file "/f" true)) = .ok (sink, v) := ⟨_, _, rfl⟩
  obtain ⟨o, u, p, x, hall, hend, hadded, -⟩ :=
    added_of_performAll hopen {} [.write "a", .clearScreen, .write "b"]
  refine ⟨sink, v, o, u, p, x, hopen, hall, hend, hadded.trans ?_⟩
  decide +kernel

/-- A line that is not ended because the screen was cleared after it. -/
theorem unended_of_cleared :
    ∃ sink v o u p x, openSink oneFile (some (.file "/f" true)) = .ok (sink, v) ∧
      (ChainOutput.new sink {}).performAll v [.write "a", .clearScreen] = (.ok (), o, u) ∧
      o.endOfCommand u = (.ok (), p, x) ∧
      x.files.node? "/f" = some (.file (bytesOf "old\na".toList)) ∧
      ¬oneFile.Added x "/f" true (endLine ['\n'] (OutputAction.textOf [.write "a", .clearScreen])) := by
  refine ⟨_, _, _, _, _, _, rfl, rfl, rfl, ?_, ?_⟩
  · decide +kernel
  · rw [World.Added]
    decide +kernel

end Pipeline

end CommandShell
