import CommandShell.Proofs.Chain.Actions
import CommandShell.Proofs.Command.Conversation
import CommandShell.Proofs.Files.Buffering

/-!
Texts that are written in pieces.  Main statement: in whatever pieces a text is written to an output, what its
terminal shows, what its file holds once it is flushed, and what the output knows are the same; so a command
that passes on what it reads has the same output however its input arrives.
-/

namespace CommandShell

open Text

theorem Text.withLineTermination_append (s t lineBreak : String) :
    withLineTermination (s ++ t) lineBreak = withLineTermination s lineBreak ++ withLineTermination t lineBreak := by
  apply String.ext
  rw [toList_withLineTermination, String.toList_append, shownAs_append, String.toList_append,
    toList_withLineTermination, toList_withLineTermination]

namespace Terminal

/-- The events with a text after them, which joins the text before it. -/
def withText (text : String) : List TerminalEvent → List TerminalEvent
  | .write before :: rest => .write (before ++ text) :: rest
  | events => .write text :: events

theorem withText_withText (s text : String) (events : List TerminalEvent) :
    withText text (withText s events) = withText (s ++ text) events := by
  match events with
  | [] => rfl
  | .write before :: rest => simp [withText, String.append_assoc]
  | .clear :: _ | .color _ :: _ | .beginOutput :: _ | .endOutput :: _ | .read _ :: _ => rfl

theorem events_record_write (t : Terminal) (text : String) :
    (t.record (.write text)).events = withText text t.events := by
  unfold record
  split
  next before rest heq hevents =>
    cases heq
    rw [hevents, withText]
  next hother =>
    exact (withText.eq_2 text t.events fun before rest hevents => hother text before rest rfl hevents).symm

theorem write_of_sound {t : Terminal} (h : t.faults.write = false) (text : String) :
    ∃ u, t.write text = (.ok (), u) ∧ u.events = withText text t.events ∧ u.faults.write = false := by
  obtain ⟨u, hwrite, -, hfault⟩ := write_ok h text
  refine ⟨u, hwrite, ?_, hfault⟩
  rw [write, h] at hwrite
  cases hwrite
  exact events_record_write _ text

theorem write_of_faulty {t : Terminal} (h : t.faults.write = true) (text : String) :
    t.write text = (.error (fault "write"), t) := by
  rw [write, if_pos h]

end Terminal

theorem Text.bytesOf_ne_nil {s : String} (h : s ≠ "") : bytesOf s.toList ≠ [] := by
  rw [bytesOf_toList]
  intro hnil
  refine h (String.toByteArray_inj.1 (ByteArray.ext ?_))
  simpa using hnil

theorem OpenFile.writeText_eq (f : OpenFile) (fs : FileSystem) (text : String) :
    f.writeText fs text = f.write fs (bytesOf text.toList) := by
  rw [writeText, bytesOf_toList]

namespace World

variable {w v : World} {id : FileId} {f g : OpenFile} {gs : FileSystem}

theorem withFile_of_none (h : w.openFiles[id]? = none) (change : OpenFile → FileSystem → OpenFile × FileSystem) :
    w.withFile id change = w := by
  simp only [withFile, h]

theorem withFile_of_some {change : OpenFile → FileSystem → OpenFile × FileSystem} (hf : w.openFiles[id]? = some f)
    (hchange : change f w.files = (g, gs)) :
    (w.withFile id change).openFiles[id]? = some g ∧ (w.withFile id change).files = gs := by
  have hid := (List.getElem?_eq_some_iff.1 hf).1
  simp only [withFile, hf, hchange]
  exact ⟨List.getElem?_set_self hid, trivial⟩

theorem writeFile_of_some (hf : w.openFiles[id]? = some f) {text : String}
    (hwrite : f.write w.files (bytesOf text.toList) = (g, gs)) :
    (w.writeFile id text).openFiles[id]? = some g ∧ (w.writeFile id text).files = gs :=
  withFile_of_some hf ((f.writeText_eq w.files text).trans hwrite)

theorem flushFile_of_some (hf : w.openFiles[id]? = some f) (hflush : f.flush w.files = (g, gs)) :
    (w.flushFile id).openFiles[id]? = some g ∧ (w.flushFile id).files = gs :=
  withFile_of_some hf hflush

theorem terminal_withFile (w : World) (id : FileId) (change : OpenFile → FileSystem → OpenFile × FileSystem) :
    (w.withFile id change).terminal = w.terminal := by
  unfold withFile
  split <;> rfl

/-- Two texts that are written to a file come to the same as the whole text, once it is flushed. -/
theorem nodes_writeFile_writeFile (w : World) (id : FileId) {s text : String} (hs : s ≠ "") (htext : text ≠ "")
    (place : String) : (((w.writeFile id s).writeFile id text).flushFile id).files.node? place =
      ((w.writeFile id (s ++ text)).flushFile id).files.node? place := by
  cases hf : w.openFiles[id]? with
  | none => simp only [writeFile, flushFile, withFile_of_none hf]
  | some f =>
      obtain ⟨g, gs, hwrite⟩ : ∃ g gs, f.write w.files (bytesOf s.toList) = (g, gs) := ⟨_, _, rfl⟩
      obtain ⟨hg, hgs⟩ := writeFile_of_some hf hwrite
      obtain ⟨k, ks, hwriteNext⟩ : ∃ k ks, g.write gs (bytesOf text.toList) = (k, ks) := ⟨_, _, rfl⟩
      obtain ⟨hk, hks⟩ := writeFile_of_some hg (hgs ▸ hwriteNext)
      obtain ⟨m, ms, hwhole⟩ : ∃ m ms, f.write w.files (bytesOf (s ++ text).toList) = (m, ms) := ⟨_, _, rfl⟩
      obtain ⟨hm, hms⟩ := writeFile_of_some hf hwhole
      rw [(flushFile_of_some hk rfl).2, hks, (flushFile_of_some hm rfl).2, hms]
      rw [String.toList_append, bytesOf_append] at hwhole
      exact ((OpenFile.alike_write_write (bytesOf_ne_nil hs) (bytesOf_ne_nil htext) hwrite hwriteNext hwhole).nodes
        place).symm

end World

namespace ChainOutput

/-- Two attempts have come to the same: the outputs are equal, and so are what the terminals have had and, once
what waits has been written, what is at any place. -/
structure SameOutcome (x y : Attempt (ChainOutput × World)) : Prop where
  result : y.1 = x.1
  output : y.2.1 = x.2.1
  events : y.2.2.terminal.events = x.2.2.terminal.events
  nodes : ∀ place, (y.2.1.sink.flush y.2.2).files.node? place = (x.2.1.sink.flush x.2.2).files.node? place

theorem SameOutcome.refl (x : Attempt (ChainOutput × World)) : SameOutcome x x := ⟨rfl, rfl, rfl, fun _ => rfl⟩

theorem SameOutcome.symm {x y : Attempt (ChainOutput × World)} (h : SameOutcome x y) : SameOutcome y x :=
  ⟨h.result.symm, h.output.symm, h.events.symm, fun place => (h.nodes place).symm⟩

theorem SameOutcome.trans {x y z : Attempt (ChainOutput × World)} (h : SameOutcome x y) (h' : SameOutcome y z) :
    SameOutcome x z :=
  ⟨h'.result.trans h.result, h'.output.trans h.output, h'.events.trans h.events,
    fun place => (h'.nodes place).trans (h.nodes place)⟩

variable {o p : ChainOutput} {w v : World} {s : String}

/-- What an output knows after a text. -/
def after (o : ChainOutput) (text : String) : ChainOutput :=
  { o with wrote := true, lineTerminated := endsLine text, clearedLast := false }

theorem after_after (o : ChainOutput) (s : String) {text : String} (htext : text ≠ "") :
    (o.after s).after text = o.after (s ++ text) := by
  have htext : text.toList ≠ [] := by simpa using htext
  simp [after, endsLine, List.getLast?_append, List.getLast?_eq_some_getLast htext]

theorem write_empty (o : ChainOutput) (w : World) : o.write w "" = (.ok (), o, w) := rfl

/-- An output to a terminal that takes no text. -/
def Faulty (o : ChainOutput) (w : World) : Prop := o.sink = .terminal ∧ w.terminal.faults.write = true

theorem write_of_faulty (h : o.Faulty w) (hs : s ≠ "") :
    o.write w s = (.error (Terminal.fault "write"), o, w) := by
  simp [write, hs, h.1, Terminal.write_of_faulty h.2]

/-- The world with a text in it that goes to the output. -/
def take (o : ChainOutput) (w : World) (text : String) : World :=
  match o.sink with
  | .null => w
  | .file id => w.writeFile id text
  | .terminal => { w with terminal := (w.terminal.write (withLineTermination text o.lineTermination)).2 }

theorem sound_of_not_faulty (h : ¬o.Faulty w) (hsink : o.sink = .terminal) : w.terminal.faults.write = false := by
  simpa [Faulty, hsink] using h

theorem write_of_not_faulty (h : ¬o.Faulty w) (hs : s ≠ "") : o.write w s = (.ok (), o.after s, o.take w s) := by
  cases hsink : o.sink with
  | terminal =>
      obtain ⟨t, hwrite, -⟩ :=
        Terminal.write_of_sound (sound_of_not_faulty h hsink) (withLineTermination s o.lineTermination)
      simp [write, take, hs, hsink, after, hwrite]
  | file id => simp [write, take, hs, hsink, after]
  | null => simp [write, take, hs, hsink, after]

theorem exists_write_of_not_faulty (h : ¬o.Faulty w) (text : String) : ∃ p v, o.write w text = (.ok (), p, v) := by
  by_cases htext : text = ""
  · exact ⟨o, w, htext ▸ write_empty o w⟩
  · exact ⟨o.after text, o.take w text, write_of_not_faulty h htext⟩

theorem not_faulty_take (h : ¬o.Faulty w) (s : String) : ¬o.Faulty (o.take w s) := by
  rintro ⟨hsink, hfault⟩
  obtain ⟨t, hwrite, -, hafter⟩ :=
    Terminal.write_of_sound (sound_of_not_faulty h hsink) (withLineTermination s o.lineTermination)
  simp [take, hsink, hwrite, hafter] at hfault

theorem events_take_take (h : ¬o.Faulty w) (s text : String) :
    (o.take (o.take w s) text).terminal.events = (o.take w (s ++ text)).terminal.events := by
  cases hsink : o.sink with
  | terminal =>
      have hsound := sound_of_not_faulty h hsink
      obtain ⟨t, hfirst, hevents, hafter⟩ :=
        Terminal.write_of_sound hsound (withLineTermination s o.lineTermination)
      obtain ⟨u, hsecond, hboth, -⟩ := Terminal.write_of_sound hafter (withLineTermination text o.lineTermination)
      obtain ⟨r, hwhole, hatOnce, -⟩ :=
        Terminal.write_of_sound hsound (withLineTermination (s ++ text) o.lineTermination)
      simp only [take, hsink, hfirst, hsecond, hwhole]
      rw [hboth, hevents, hatOnce, Terminal.withText_withText, withLineTermination_append]
  | file id => simp only [take, hsink, World.writeFile, World.terminal_withFile]
  | null => simp only [take, hsink]

theorem nodes_take_take (o : ChainOutput) (w : World) {text : String} (hs : s ≠ "") (htext : text ≠ "")
    (place : String) : (o.sink.flush (o.take (o.take w s) text)).files.node? place =
      (o.sink.flush (o.take w (s ++ text))).files.node? place := by
  cases hsink : o.sink with
  | terminal => simp only [take, hsink, Sink.flush]
  | file id => simpa only [take, hsink, Sink.flush] using w.nodes_writeFile_writeFile id hs htext place
  | null => simp only [take, hsink]

/-- Two texts that are written one after the other come to the same as the whole text. -/
theorem sameOutcome_write_write (h : o.write w s = (.ok (), p, v)) (text : String) :
    SameOutcome (p.write v text) (o.write w (s ++ text)) := by
  by_cases hs : s = ""
  · subst hs
    cases (write_empty o w).symm.trans h
    rw [String.empty_append]
    exact .refl _
  by_cases htext : text = ""
  · rw [htext, String.append_empty, h, write_empty]
    exact .refl _
  have hsound : ¬o.Faulty w := by
    intro hfaulty
    cases (write_of_faulty hfaulty hs).symm.trans h
  cases (write_of_not_faulty hsound hs).symm.trans h
  have hnext : (o.after s).write (o.take w s) text =
      (.ok (), (o.after s).after text, (o.after s).take (o.take w s) text) :=
    write_of_not_faulty (not_faulty_take hsound s) htext
  rw [hnext, after_after o s htext, write_of_not_faulty hsound (by simp [hs])]
  exact ⟨rfl, rfl, (events_take_take hsound s text).symm, fun place => (nodes_take_take o w hs htext place).symm⟩

theorem performAll_of_faulty (h : o.Faulty w) (pieces : List String) :
    o.performAll w (pieces.map .write) = o.write w (String.join pieces) := by
  induction pieces with
  | nil => rfl
  | cons s rest ih =>
      rw [List.map_cons, String.join_cons]
      by_cases hs : s = ""
      · rw [hs, String.empty_append, ← ih]
        exact performAll_cons_of_ok (show o.perform w (.write "") = _ from write_empty o w) _
      · rw [write_of_faulty h (by simp [hs])]
        exact performAll_cons_of_error (show o.perform w (.write s) = _ from write_of_faulty h hs) _

/-- Pieces come to the same as the text that they make up. -/
theorem sameOutcome_performAll (o : ChainOutput) (w : World) (pieces : List String) :
    SameOutcome (o.performAll w (pieces.map .write)) (o.write w (String.join pieces)) := by
  induction pieces generalizing o w with
  | nil => exact .refl _
  | cons s rest ih =>
      by_cases hfaulty : o.Faulty w
      · rw [performAll_of_faulty hfaulty]
        exact .refl _
      · obtain ⟨p, v, hwrite⟩ := exists_write_of_not_faulty hfaulty s
        have hall : o.performAll w ((s :: rest).map .write) = p.performAll v (rest.map .write) :=
          performAll_cons_of_ok (show o.perform w (.write s) = _ from hwrite) _
        rw [hall, String.join_cons]
        exact (ih p v).trans (sameOutcome_write_write hwrite _)

theorem sameOutcome_of_join_eq (o : ChainOutput) (w : World) {pieces others : List String}
    (h : String.join others = String.join pieces) :
    SameOutcome (o.performAll w (pieces.map .write)) (o.performAll w (others.map .write)) :=
  (sameOutcome_performAll o w pieces).trans (h ▸ (sameOutcome_performAll o w others).symm)

/-- What is left of an attempt at the end of a command: if it has succeeded, the sink is flushed. -/
def flushed : Attempt (ChainOutput × World) → Attempt (ChainOutput × World)
  | (.ok (), o, w) => (.ok (), o, o.sink.flush w)
  | (.error e, after) => (.error e, after)

theorem endOfCommand_eq (o : ChainOutput) (w : World) :
    o.endOfCommand w = flushed (if o.wrote && !o.lineTerminated then o.newLine w else (.ok (), o, w)) := by
  rw [endOfCommand]
  split
  · rcases o.newLine w with ⟨_ | _, _⟩ <;> rfl
  · rfl

theorem nodes_flush_flush (s : Sink) (w : World) (place : String) :
    (s.flush (s.flush w)).files.node? place = (s.flush w).files.node? place := by
  cases s with
  | terminal | null => rfl
  | file id =>
      cases hf : w.openFiles[id]? with
      | none => simp only [Sink.flush, World.flushFile, World.withFile_of_none hf]
      | some f =>
          obtain ⟨g, gs, hflush⟩ : ∃ g gs, f.flush w.files = (g, gs) := ⟨_, _, rfl⟩
          obtain ⟨hg, -⟩ := World.flushFile_of_some hf hflush
          have hagain : g.flush (w.flushFile id).files = (g, (w.flushFile id).files) :=
            OpenFile.flush_of_empty (OpenFile.waiting_flush hflush) _
          simp only [Sink.flush]
          rw [(World.flushFile_of_some hg hagain).2]

theorem terminal_flush (s : Sink) (w : World) : (s.flush w).terminal = w.terminal := by
  cases s with
  | file id => exact w.terminal_withFile id _
  | terminal | null => rfl

theorem SameOutcome.flushed {x y : Attempt (ChainOutput × World)} (h : SameOutcome x y) :
    SameOutcome (flushed x) (flushed y) := by
  obtain ⟨xresult, p, v⟩ := x
  obtain ⟨yresult, q, u⟩ := y
  obtain ⟨hresult, houtput, hevents, hnodes⟩ := h
  dsimp only at hresult houtput hevents hnodes
  subst hresult houtput
  cases yresult with
  | error e => exact ⟨rfl, rfl, hevents, hnodes⟩
  | ok _ =>
      refine ⟨rfl, rfl, ?_, fun place => ?_⟩
      · simpa only [ChainOutput.flushed, terminal_flush] using hevents
      · simpa only [ChainOutput.flushed, nodes_flush_flush] using hnodes place

/-- The attempt to end the command after another attempt, whatever came of that. -/
def ended (x : Attempt (ChainOutput × World)) : Attempt (ChainOutput × World) := x.2.1.endOfCommand x.2.2

theorem SameOutcome.ended {x y : Attempt (ChainOutput × World)} (h : SameOutcome x y)
    (hnext : SameOutcome (x.2.1.newLine x.2.2) (y.2.1.newLine y.2.2)) : SameOutcome (ended x) (ended y) := by
  obtain ⟨xresult, p, v⟩ := x
  obtain ⟨yresult, q, u⟩ := y
  obtain ⟨-, houtput, hevents, hnodes⟩ := h
  dsimp only at houtput hevents hnodes hnext
  subst houtput
  have hplain : SameOutcome (.ok (), q, v) (.ok (), q, u) := ⟨rfl, rfl, hevents, hnodes⟩
  simp only [ChainOutput.ended, endOfCommand_eq]
  split
  · exact hnext.flushed
  · exact hplain.flushed

theorem exists_performAll_of_not_faulty (h : ¬o.Faulty w) (pieces : List String) :
    ∃ p v, o.performAll w (pieces.map .write) = (.ok (), p, v) := by
  obtain ⟨p, v, hwrite⟩ := exists_write_of_not_faulty h (String.join pieces)
  have hresult := (sameOutcome_performAll o w pieces).result
  rcases hall : o.performAll w (pieces.map .write) with ⟨result, q, u⟩
  rw [hwrite, hall] at hresult
  cases hresult
  exact ⟨q, u, rfl⟩

/-- A text after some pieces is one more piece. -/
theorem performAll_concat_of_ok {pieces : List String} (h : o.performAll w (pieces.map .write) = (.ok (), p, v))
    (text : String) : o.performAll w ((pieces ++ [text]).map .write) = p.write v text := by
  rw [List.map_append, performAll_append_of_ok h]
  change p.performAll v [.write text] = p.perform v (.write text)
  rcases hperform : p.perform v (.write text) with ⟨e | _, q, u⟩
  · exact performAll_cons_of_error hperform []
  · exact performAll_cons_of_ok hperform []

theorem ended_of_join_eq (o : ChainOutput) (w : World) {pieces others : List String}
    (h : String.join others = String.join pieces) :
    SameOutcome (ended (o.performAll w (pieces.map .write))) (ended (o.performAll w (others.map .write))) := by
  by_cases hfaulty : o.Faulty w
  · rw [performAll_of_faulty hfaulty, performAll_of_faulty hfaulty, h]
    exact .refl _
  · obtain ⟨p, v, hpieces⟩ := exists_performAll_of_not_faulty hfaulty pieces
    obtain ⟨q, u, hothers⟩ := exists_performAll_of_not_faulty hfaulty others
    have hsame := sameOutcome_of_join_eq o w h
    rw [hpieces, hothers] at hsame ⊢
    have hqp : q = p := hsame.output
    subst hqp
    have hjoin : String.join (others ++ [q.lineTermination]) = String.join (pieces ++ [q.lineTermination]) := by
      rw [String.join_append, String.join_append, h]
    have hnext := sameOutcome_of_join_eq o w hjoin
    rw [performAll_concat_of_ok hpieces, performAll_concat_of_ok hothers] at hnext
    exact hsame.ended hnext

/-- However a text is cut, the same comes of it, also at the end of the command and also if a command passes it
on as it has read it. -/
theorem unobservable_cuts (o : ChainOutput) (w : World) {pieces others : List String}
    (h : String.join others = String.join pieces) :
    SameOutcome (o.performAll w (pieces.map .write)) (o.performAll w (others.map .write)) ∧
      SameOutcome (ended (o.performAll w (pieces.map .write))) (ended (o.performAll w (others.map .write))) ∧
      ∀ command ∈ [Builtin.passthrough, Builtin.tee], ∀ context call heard said heard' said',
        (command.body context call).Finished heard said → Body.texts heard = pieces →
        (command.body context call).Finished heard' said' → Body.texts heard' = others →
        SameOutcome (o.performAll w said) (o.performAll w said') ∧
          SameOutcome (ended (o.performAll w said)) (ended (o.performAll w said')) := by
  refine ⟨sameOutcome_of_join_eq o w h, ended_of_join_eq o w h, ?_⟩
  rintro command hcommand context call heard said heard' said' hfinished rfl hfinished' rfl
  rw [Builtin.said_eq_of_finished hcommand hfinished, Builtin.said_eq_of_finished hcommand hfinished']
  exact ⟨sameOutcome_of_join_eq o w h, ended_of_join_eq o w h⟩

/-- A line break that is cut in two, and a carriage return that is a piece of its own. -/
theorem unobservable_cuts_of_broken_break :
    let w := World.detached ⟨.empty, ""⟩ none {}
    let o := ChainOutput.new .terminal {}
    let x := ended (o.performAll w (["a\r", "\nb", "\r"].map .write))
    String.join ["a", "", "\r\nb\r"] = String.join ["a\r", "\nb", "\r"] ∧
      (Builtin.passthrough.body {} {}).Finished (["a\r", "\nb", "\r"].map some ++ [none])
        (["a\r", "\nb", "\r"].map .write) ∧
      SameOutcome x (ended (o.performAll w (["a", "", "\r\nb\r"].map .write))) ∧
      x.2.2.terminal.events = [.write "a\r\nb\r\n"] := by
  intro w o x
  have hjoin : String.join ["a", "", "\r\nb\r"] = String.join ["a\r", "\nb", "\r"] := by decide
  have hfinished : (Builtin.passthrough.body {} {}).Finished (["a\r", "\nb", "\r"].map some ++ [none])
      (["a\r", "\nb", "\r"].map .write) := Builtin.finished_copying _
  have hfinished' : (Builtin.passthrough.body {} {}).Finished (["a", "", "\r\nb\r"].map some ++ [none])
      (["a", "", "\r\nb\r"].map .write) := Builtin.finished_copying _
  have hsame := (unobservable_cuts o w hjoin).2.2 Builtin.passthrough (by simp) {} {} _ _ _ _ hfinished rfl
    hfinished' rfl
  exact ⟨hjoin, hfinished, hsame.2, by decide +kernel⟩

end ChainOutput

end CommandShell
