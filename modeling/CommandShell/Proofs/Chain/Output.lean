import CommandShell.Chain.Output
import CommandShell.Proofs.World

/-!
The output of the last stage.  What it has delivered is one text, however many actions have written it;
main statements: an action succeeds and adds its characters to that text, and the end of the command
adds its last line break.
-/

namespace CommandShell

open Text

/-- The characters as a terminal shows them that ends a line with `lineBreak`. -/
def Text.shownAs (lineBreak cs : List Char) : List Char :=
  (cs.filter (· != '\r')).flatMap fun c => if c = '\n' then lineBreak else [c]

theorem Text.shownAs_append (lineBreak cs ds : List Char) :
    shownAs lineBreak (cs ++ ds) = shownAs lineBreak cs ++ shownAs lineBreak ds := by
  simp [shownAs]

theorem Text.toList_withLineTermination (s t : String) :
    (withLineTermination s t).toList = shownAs t.toList s.toList := by
  simp [withLineTermination, shownAs]

/-- The text with its last line ended. -/
def Text.endLine (lineBreak cs : List Char) : List Char :=
  if cs = [] ∨ cs.getLast? = some '\n' then cs else cs ++ lineBreak

/-- The characters that the action writes where lines end with `lineBreak`. -/
def OutputAction.chars (lineBreak : List Char) : OutputAction → List Char
  | .write text => text.toList
  | .writeLine text => text.toList ++ lineBreak
  | .newLine | .clearScreen => lineBreak

theorem OutputAction.toList_linkText (action : OutputAction) :
    action.linkText.toList = action.chars ['\n'] := by
  cases action <;> simp [linkText, chars]

/-- All text that has been shown on the terminal. -/
def Terminal.shown (t : Terminal) : List Char :=
  t.events.reverse.flatMap fun
    | .write text => text.toList
    | _ => []

theorem Terminal.shown_record_write (t : Terminal) (text : String) :
    (t.record (.write text)).shown = t.shown ++ text.toList := by
  unfold record
  split
  next before rest heq hevents => cases heq; simp [shown, hevents]
  next => simp [shown]

theorem Terminal.record_of_mark (t : Terminal) {event : TerminalEvent} (h : ∀ text, event ≠ .write text) :
    t.record event = { t with events := event :: t.events } := by
  unfold record
  split
  next => exact absurd rfl (h _)
  next => rfl

/-- All but writing shows nothing. -/
theorem Terminal.shown_record (t : Terminal) {event : TerminalEvent} (h : ∀ text, event ≠ .write text) :
    (t.record event).shown = t.shown := by
  rw [record_of_mark t h, shown, shown, List.reverse_cons, List.flatMap_append]
  cases event with
  | write text => exact absurd rfl (h text)
  | clear | color | beginOutput | endOutput | read => simp

theorem Terminal.shown_beginOutput (t : Terminal) : t.beginOutput.shown = t.shown := by
  rw [beginOutput, shown_record]
  nofun

theorem Terminal.shown_endOutput (t : Terminal) : t.endOutput.shown = t.shown := by
  rw [endOutput, shown_record]
  nofun

theorem Terminal.faults_beginOutput (t : Terminal) : t.beginOutput.faults = t.faults := by
  simp [beginOutput, record_of_mark]

theorem Terminal.write_ok {t : Terminal} (h : t.faults.write = false) (text : String) :
    ∃ u, t.write text = (.ok (), u) ∧ u.shown = t.shown ++ text.toList ∧ u.faults.write = false := by
  rw [write, h]
  refine ⟨_, rfl, shown_record_write _ text, ?_⟩
  unfold record
  split <;> exact h

/-- The place that the sink's file is at. -/
def Sink.place? (place : String) : Sink → Option String
  | .file _ => some place
  | _ => none

namespace ChainOutput

/-- The text has gone to the output, and more can.  Before that the terminal had `shown`, and the file
at `place` held `n`. -/
structure Delivered (shown : List Char) (place : String) (n : Node) (o : ChainOutput) (w : World)
    (text : List Char) : Prop where
  wrote : o.wrote = !text.isEmpty
  lineTerminated : text ≠ [] → o.lineTerminated = (text.getLast? == some '\n')
  terminal : o.sink = .terminal → w.terminal.shown = shown ++ shownAs o.lineTermination.toList text
  sound : o.sink = .terminal → w.terminal.faults.write = false
  file : ∀ id, o.sink = .file id → w.Filed id place (n.extend (bytesOf text))

/-- An output as it was at first, except for what has been written to it. -/
structure Same (o p : ChainOutput) : Prop where
  sink : p.sink = o.sink
  lineTermination : p.lineTermination = o.lineTermination

variable {shown text : List Char} {place : String} {n : Node} {o p : ChainOutput} {w v : World}

theorem Same.refl (o : ChainOutput) : o.Same o := ⟨rfl, rfl⟩

theorem Same.trans {q : ChainOutput} (h : o.Same p) (h' : p.Same q) : o.Same q :=
  ⟨h'.sink.trans h.sink, h'.lineTermination.trans h.lineTermination⟩

theorem Delivered.keep (h : Delivered shown place n o w text) (hterminal : v.terminal = w.terminal)
    (hkeep : o.sink.place? place = some place → w.KeepsAt v place) : Delivered shown place n o v text := by
  refine ⟨h.wrote, h.lineTerminated, ?_, ?_, fun id hid => (h.file id hid).keep (hkeep (by rw [hid]; rfl))⟩
  · rw [hterminal]
    exact h.terminal
  · rw [hterminal]
    exact h.sound

theorem delivered_write (h : Delivered shown place n o w text) (s : String) :
    ∃ p v, o.write w s = (.ok (), p, v) ∧ Delivered shown place n p v (text ++ s.toList) ∧ o.Same p ∧
      w.Apart (o.sink.place? place) v := by
  rw [write]
  split
  next hempty =>
    have hs : s.toList = [] := by simpa using hempty
    rw [hs, List.append_nil]
    exact ⟨o, w, rfl, h, .refl o, .refl _ w⟩
  next hne =>
    have hs : s.toList ≠ [] := by simpa using hne
    have hwrote : true = (!(text ++ s.toList).isEmpty) := by simp [hs]
    have hends : endsLine s = ((text ++ s.toList).getLast? == some '\n') := by
      rw [List.getLast?_append, List.getLast?_eq_some_getLast hs, Option.some_or, endsLine,
        List.getLast?_eq_some_getLast hs]
    rcases hsink : o.sink with _ | id | _
    · obtain ⟨t, ht, hshown, hfault⟩ :=
        Terminal.write_ok (h.sound hsink) (withLineTermination s o.lineTermination)
      simp only [ht]
      refine ⟨_, _, rfl, ⟨hwrote, fun _ => hends, fun _ => ?_, fun _ => hfault, nofun⟩, ⟨hsink.symm, rfl⟩,
        .of_eq rfl rfl rfl rfl⟩
      simp only [hshown, h.terminal hsink, toList_withLineTermination, shownAs_append, List.append_assoc]
    · obtain ⟨hfiled, hapart, -⟩ := World.filed_writeFile (h.file id hsink) s
      refine ⟨_, _, rfl, ⟨hwrote, fun _ => hends, nofun, nofun, ?_⟩, ⟨hsink.symm, rfl⟩, hapart⟩
      intro id' hid'
      cases hid'
      rw [bytesOf_append, ← Node.extend_extend]
      exact hfiled
    · exact ⟨_, _, rfl, ⟨hwrote, fun _ => hends, nofun, nofun, nofun⟩, ⟨hsink.symm, rfl⟩, .refl _ w⟩

theorem delivered_newLine (h : Delivered shown place n o w text) :
    ∃ p v, o.newLine w = (.ok (), p, v) ∧ Delivered shown place n p v (text ++ o.lineTermination.toList) ∧
      o.Same p ∧ w.Apart (o.sink.place? place) v :=
  delivered_write h o.lineTermination

/-- An action of a command that does not clear the screen. -/
theorem delivered_perform (h : Delivered shown place n o w text) {action : OutputAction}
    (hclear : action ≠ .clearScreen) :
    ∃ p v, o.perform w action = (.ok (), p, v) ∧
      Delivered shown place n p v (text ++ action.chars o.lineTermination.toList) ∧ o.Same p ∧
      w.Apart (o.sink.place? place) v := by
  cases action with
  | write s => exact delivered_write h s
  | newLine => exact delivered_newLine h
  | clearScreen => exact absurd rfl hclear
  | writeLine s =>
      obtain ⟨q, u, hwrite, hq, hsame, hapart⟩ := delivered_write h s
      obtain ⟨p, v, hline, hp, hsame', hapart'⟩ := delivered_newLine hq
      rw [hsame.lineTermination, List.append_assoc] at hp
      rw [hsame.sink] at hapart'
      refine ⟨p, v, ?_, hp, hsame.trans hsame', hapart.trans hapart'⟩
      rw [perform, writeLine, hwrite]
      exact hline

/-- The text has gone to the output, and nothing waits to be written. -/
structure Received (shown : List Char) (place : String) (n : Node) (o : ChainOutput) (w : World)
    (text : List Char) : Prop where
  terminal : o.sink = .terminal → w.terminal.shown = shown ++ shownAs o.lineTermination.toList text
  file : ∀ id, o.sink = .file id → w.files.node? place = some (n.extend (bytesOf text))

theorem Received.keep (h : Received shown place n o w text) (hterminal : v.terminal = w.terminal)
    (hkeep : o.sink.place? place = some place → w.KeepsAt v place) : Received shown place n o v text := by
  refine ⟨?_, fun id hid => (hkeep (by rw [hid]; rfl)).files.node (h.file id hid)⟩
  rw [hterminal]
  exact h.terminal

theorem received_flush (h : Delivered shown place n o w text) :
    Received shown place n o (o.sink.flush w) text ∧ w.Apart (o.sink.place? place) (o.sink.flush w) := by
  rcases hsink : o.sink with _ | id | _
  · exact ⟨⟨h.terminal, by simp [hsink]⟩, .refl _ w⟩
  · obtain ⟨-, hnode, hapart, -⟩ := World.filed_flushFile (h.file id hsink)
    exact ⟨⟨by simp [hsink], fun _ _ => hnode⟩, hapart⟩
  · exact ⟨⟨by simp [hsink], by simp [hsink]⟩, .refl _ w⟩

theorem received_endOfCommand (h : Delivered shown place n o w text) :
    ∃ p v, o.endOfCommand w = (.ok (), p, v) ∧
      Received shown place n p v (endLine o.lineTermination.toList text) ∧ o.Same p ∧
      w.Apart (o.sink.place? place) v := by
  have hfinal : (o.wrote && !o.lineTerminated) = true ↔ ¬(text = [] ∨ text.getLast? = some '\n') := by
    rw [h.wrote]
    by_cases htext : text = []
    · simp [htext]
    · simp [htext, h.lineTerminated htext]
  rw [endOfCommand, endLine]
  by_cases hopen : (o.wrote && !o.lineTerminated) = true
  · obtain ⟨q, u, hnew, hq, hsame, hapart⟩ := delivered_newLine h
    obtain ⟨hreceived, hflush⟩ := received_flush hq
    rw [if_pos hopen, if_neg (hfinal.1 hopen), hnew]
    refine ⟨q, q.sink.flush u, rfl, hreceived, hsame, hapart.trans ?_⟩
    rwa [← hsame.sink]
  · obtain ⟨hreceived, hapart⟩ := received_flush h
    rw [if_neg hopen, if_pos (Classical.not_not.1 fun hnot => hopen (hfinal.2 hnot))]
    exact ⟨o, o.sink.flush w, rfl, hreceived, .refl o, hapart⟩

end ChainOutput

end CommandShell
