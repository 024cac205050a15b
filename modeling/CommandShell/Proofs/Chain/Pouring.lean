import CommandShell.Proofs.Leaving

/-!
Output that goes to a file.  Main statements: an action succeeds and adds its text to the file, where clearing
the screen adds nothing, and the end of the command ends the line that has been begun since the screen was
last cleared.
-/

namespace CommandShell

open Text OutputAction

namespace OutputAction

/-- The text that a file takes of some actions, which is also what error text takes of them. -/
def textOf (actions : List OutputAction) : List Char := actions.flatMap (·.errorText.toList)

/-- What of that has been written since the screen was last cleared. -/
def sinceClear (actions : List OutputAction) : List Char :=
  actions.foldl (fun text action => if action = .clearScreen then [] else text ++ action.errorText.toList) []

/-- The line break that ends the output after some actions, if it has begun a line. -/
def finalBreak (actions : List OutputAction) : List Char :=
  if sinceClear actions = [] ∨ (sinceClear actions).getLast? = some '\n' then [] else ['\n']

theorem textOf_concat (actions : List OutputAction) (action : OutputAction) :
    textOf (actions ++ [action]) = textOf actions ++ action.errorText.toList := by
  simp [textOf]

theorem sinceClear_concat (actions : List OutputAction) (action : OutputAction) :
    sinceClear (actions ++ [action]) =
      if action = .clearScreen then [] else sinceClear actions ++ action.errorText.toList := by
  simp [sinceClear]

end OutputAction

/-- An open file that is written to: its number, its place, and what was there at first. -/
structure Destination where
  id : FileId
  place : String
  node : Node

namespace Destination

/-- What is there once the text has been added. -/
def after (t : Destination) (text : List Char) : Node := t.node.extend (bytesOf text)

/-- The text has been written to the file, and more can be. -/
def Takes (t : Destination) (w : World) (text : List Char) : Prop := w.Filed t.id t.place (t.after text)

/-- The text has been written to the file, of which nothing waits. -/
structure Holds (t : Destination) (w : World) (text : List Char) : Prop where
  takes : t.Takes w text
  node : w.files.node? t.place = some (t.after text)

variable {P : String → Prop} {t : Destination} {w v : World} {text : List Char}

theorem Takes.keep (h : t.Takes w text) (hkeep : w.KeepsAt v t.place) : t.Takes v text := World.Filed.keep h hkeep

theorem Holds.keep (h : t.Holds w text) (hkeep : w.KeepsAt v t.place) : t.Holds v text :=
  ⟨h.takes.keep hkeep, hkeep.files.node h.node⟩

theorem Takes.write (h : t.Takes w text) (s : String) :
    t.Takes (w.writeFile t.id s) (text ++ s.toList) ∧ w.Leaves (· ≠ t.place) (w.writeFile t.id s) := by
  obtain ⟨hfiled, -, -⟩ := World.filed_writeFile h s
  obtain ⟨f, hf, hplace, -⟩ := h
  refine ⟨?_, World.leaves_writeFile hf (fun hne => hne hplace) s⟩
  rw [Takes, after, bytesOf_append, ← Node.extend_extend]
  exact hfiled

theorem Takes.flush (h : t.Takes w text) :
    t.Holds (w.flushFile t.id) text ∧ w.Leaves (· ≠ t.place) (w.flushFile t.id) := by
  obtain ⟨hfiled, hnode, -, -⟩ := World.filed_flushFile h
  obtain ⟨f, hf, hplace, -⟩ := h
  exact ⟨⟨hfiled, hnode⟩, World.leaves_flushFile hf fun hne => hne hplace⟩

end Destination

namespace ChainOutput

/-- The text has gone to the file, `begun` of it since the screen was last cleared, and more can. -/
structure Poured (t : Destination) (o : ChainOutput) (w : World) (text begun : List Char) : Prop where
  sink : o.sink = .file t.id
  lineBreak : o.lineTermination = "\n"
  unfinished : (o.wrote && !o.lineTerminated) = true ↔ ¬(begun = [] ∨ begun.getLast? = some '\n')
  takes : t.Takes w text

variable {t : Destination} {o : ChainOutput} {w v : World} {text begun : List Char} {actions : List OutputAction}

theorem Poured.keep (h : Poured t o w text begun) (hkeep : w.KeepsAt v t.place) : Poured t o v text begun :=
  ⟨h.sink, h.lineBreak, h.unfinished, h.takes.keep hkeep⟩

theorem poured_write (h : Poured t o w text begun) (s : String) :
    ∃ p v, o.write w s = (.ok (), p, v) ∧ Poured t p v (text ++ s.toList) (begun ++ s.toList) ∧
      w.Leaves (· ≠ t.place) v := by
  rw [write]
  split
  · next hempty =>
    have hs : s.toList = [] := by simpa using hempty
    rw [hs, List.append_nil, List.append_nil]
    exact ⟨o, w, rfl, h, .refl _ w⟩
  · next hne =>
    have hs : s.toList ≠ [] := by simpa using hne
    obtain ⟨htakes, hleaves⟩ := h.takes.write s
    have hlast : (begun ++ s.toList).getLast? = s.toList.getLast? := by
      rw [List.getLast?_append, List.getLast?_eq_some_getLast hs, Option.some_or]
    simp only [h.sink]
    refine ⟨_, _, rfl, ⟨rfl, h.lineBreak, ?_, htakes⟩, hleaves⟩
    simp [endsLine, hlast, hs]

theorem poured_newLine (h : Poured t o w text begun) :
    ∃ p v, o.newLine w = (.ok (), p, v) ∧ Poured t p v (text ++ ['\n']) (begun ++ ['\n']) ∧
      w.Leaves (· ≠ t.place) v := by
  have hwrite := poured_write h o.lineTermination
  rw [h.lineBreak] at hwrite
  rw [newLine, h.lineBreak]
  exact hwrite

theorem poured_perform (h : Poured t o w (textOf actions) (sinceClear actions)) (action : OutputAction) :
    ∃ p v, o.perform w action = (.ok (), p, v) ∧
      Poured t p v (textOf (actions ++ [action])) (sinceClear (actions ++ [action])) ∧
      w.Leaves (· ≠ t.place) v := by
  rw [textOf_concat, sinceClear_concat]
  cases action with
  | write s => exact poured_write h s
  | newLine => exact poured_newLine h
  | writeLine s =>
      obtain ⟨q, u, hwrite, hq, hleaves⟩ := poured_write h s
      obtain ⟨p, v, hline, hp, hleaves'⟩ := poured_newLine hq
      rw [perform, writeLine, hwrite]
      refine ⟨p, v, hline, ?_, hleaves.trans hleaves'⟩
      simpa [errorText] using hp
  | clearScreen =>
      rw [perform, clearScreen, h.sink]
      refine ⟨_, w, rfl, ⟨rfl, h.lineBreak, by simp, ?_⟩, .refl _ w⟩
      simpa [errorText] using h.takes

theorem poured_endOfCommand (h : Poured t o w (textOf actions) (sinceClear actions)) :
    ∃ p v, o.endOfCommand w = (.ok (), p, v) ∧ t.Holds v (textOf actions ++ finalBreak actions) ∧
      w.Leaves (· ≠ t.place) v := by
  rw [endOfCommand, finalBreak]
  by_cases hopen : (o.wrote && !o.lineTerminated) = true
  · obtain ⟨q, u, hline, hq, hleaves⟩ := poured_newLine h
    obtain ⟨hholds, hleaves'⟩ := hq.takes.flush
    rw [if_pos hopen, if_neg (h.unfinished.1 hopen), hline]
    refine ⟨q, q.sink.flush u, rfl, ?_, hleaves.trans ?_⟩ <;> rwa [hq.sink]
  · obtain ⟨hholds, hleaves⟩ := h.takes.flush
    rw [if_neg hopen, if_pos (Classical.not_not.1 fun hnot => hopen (h.unfinished.2 hnot)), List.append_nil]
    refine ⟨o, o.sink.flush w, rfl, ?_, ?_⟩ <;> rwa [h.sink]

end ChainOutput

end CommandShell
