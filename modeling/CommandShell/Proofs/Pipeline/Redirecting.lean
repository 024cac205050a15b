import CommandShell.Proofs.Chain.Telling
import CommandShell.Proofs.Pipeline.Preparing
import CommandShell.Proofs.Pipeline.Report

/-!
Output that is redirected to a file, together with the error output or apart from it.  Main statement: after
a pipeline that is not cancelled and whose stages leave the redirect files alone, the file has what the last
stage has written and then, if both are joined, all error text; error output that is not joined goes to its
own target alone.
-/

namespace CommandShell

open Line Text OutputAction Saying

theorem Node.opened_of_keepsAt {fs gs : FileSystem} {place : String} (h : fs.KeepsAt gs place) (append : Bool) :
    opened (gs.node? place) append = opened (fs.node? place) append := by
  rcases h with h | ⟨hnone, hfolder⟩
  · rw [h]
  · rw [hnone, hfolder]
    rfl

namespace World

/-- What is written to if output is redirected to the path. -/
def destination (w : World) (path : String) (append : Bool) (id : FileId) : Destination :=
  ⟨id, w.placeOf path, Node.opened (w.files.node? (w.placeOf path)) append⟩

/-- A file that output of the line is redirected to is at the place. -/
def IsTarget (w : World) (r : Resolved) (place : String) : Prop :=
  ∃ path append, .file path append ∈ r.targets ∧ w.placeOf path = place

/-- The file that the path leads to has what it had before, if it is appended to, and then the text. -/
def Added (w v : World) (path : String) (append : Bool) (text : List Char) : Prop :=
  v.files.node? (w.placeOf path) =
    some ((Node.opened (w.files.node? (w.placeOf path)) append).extend (bytesOf text))

variable {w v u : World} {path : String} {append : Bool} {id : FileId} {text : List Char}

theorem added_of_holds (h : (w.destination path append id).Holds v text) : w.Added v path append text := by
  have hnode := h.node
  rwa [Destination.after, destination] at hnode

theorem Added.of_files (h : w.Added v path append text) (hfiles : u.files = v.files) : w.Added u path append text := by
  rwa [Added, hfiles]

end World

namespace Pipeline

variable {P : String → Prop} {line nullWord path : String} {append : Bool} {setting : Setting} {w v : World}
  {invocations : List Invocation} {r : Resolved} {sink : Sink} {p : Pipeline} {c : Chain} {t : Destination}
  {said : List Saying} {log : List Completion}

/-! ### The start -/

theorem takes_openSink (h : openSink w (some (.file path append)) = .ok (sink, v)) : ∃ id, sink = .file id ∧
    (w.destination path append id).Takes v [] ∧ w.Leaves (· ≠ w.placeOf path) v ∧ w.SamePaths v := by
  rcases hopen : w.openFile path append with e | ⟨id, u⟩
  · simp [openSink, openTarget, hopen, Except.map] at h
  · simp only [openSink, openTarget, hopen, Except.map] at h
    cases h
    obtain ⟨hfiled, hapart, -⟩ := World.filed_openFile hopen
    obtain ⟨hleaves, -⟩ := World.leaves_openFile hopen (P := (· ≠ w.placeOf path)) fun h => h rfl
    refine ⟨id, rfl, ?_, hleaves, hapart.paths⟩
    rwa [Destination.Takes, Destination.after, bytesOf_nil, Node.extend_nil, World.destination]

/-- Where the error text of a line goes whose output goes to the file `t`. -/
inductive ErrorsTo (w : World) (r : Resolved) (t : Destination) (v : World) : Sink → Prop
  | joined (h : r.shared = true) : ErrorsTo w r t v (.file t.id)
  | terminal (h : r.shared = false) (htarget : r.errorOutput = none) : ErrorsTo w r t v .terminal
  | null (h : r.shared = false) (htarget : r.errorOutput = some .null) : ErrorsTo w r t v .null
  | file {path : String} {append : Bool} {id : FileId} (h : r.shared = false)
      (htarget : r.errorOutput = some (.file path append)) (htakes : (w.destination path append id).Takes v [])
      (hplace : w.placeOf path ≠ t.place) : ErrorsTo w r t v (.file id)

theorem ErrorsTo.keep {u : World} (h : ErrorsTo w r t v sink) (hkeep : ∀ place, v.KeepsAt u place) :
    ErrorsTo w r t u sink := by
  cases h with
  | joined h => exact .joined h
  | terminal h htarget => exact .terminal h htarget
  | null h htarget => exact .null h htarget
  | file h htarget htakes hplace => exact .file h htarget (htakes.keep (hkeep _)) hplace

/-- The files of redirects that are not joined are different ones. -/
def Separate (w : World) (r : Resolved) : Prop :=
  r.shared = false → ∀ path append other again, r.output = some (.file path append) →
    r.errorOutput = some (.file other again) → w.placeOf other ≠ w.placeOf path

theorem errorsTo_openResolved (h : openResolved invocations r setting w = (.ok p, v))
    (houtput : r.output = some (.file path append)) (hseparate : Separate w r) :
    p.invocations = invocations ∧ w.terminal.SameScreen v.terminal ∧ ∃ id, p.output = .file id ∧
      (w.destination path append id).Takes v [] ∧ ErrorsTo w r (w.destination path append id) v p.errorSink := by
  rw [openResolved] at h
  split at h
  · cases h
  · rw [houtput] at h
    split at h
    · cases h
    · next output u hout =>
      obtain ⟨id, rfl, htakes, hleaves, hpaths⟩ := takes_openSink hout
      split at h
      · next hshared =>
        cases h
        exact ⟨rfl, hleaves.screen, id, rfl, htakes, .joined hshared⟩
      · next hshared =>
        have hshared : r.shared = false := Bool.eq_false_iff.2 hshared
        split at h
        · cases h
        · next errorSink x herr =>
          cases h
          rcases htarget : r.errorOutput with _ | ⟨other, again⟩ | _
          · rw [htarget] at herr
            cases herr
            exact ⟨rfl, hleaves.screen, id, rfl, htakes, .terminal hshared htarget⟩
          · rw [htarget] at herr
            obtain ⟨id', rfl, htakes', hleaves', -⟩ := takes_openSink herr
            have hne := hseparate hshared _ _ _ _ houtput htarget
            -- opening the first file leaves what the second one is to keep, and the other way round
            have hplace : u.placeOf other = w.placeOf other := hpaths.placeOf other
            have hsame : u.destination other again id' = w.destination other again id' := by
              rw [World.destination, hplace, Node.opened_of_keepsAt (hleaves.keeps _ hne).files]
              rfl
            rw [hsame] at htakes'
            rw [hplace] at hleaves'
            have hkept := htakes.keep (hleaves'.keeps _ hne.symm)
            exact ⟨rfl, hleaves.screen.trans hleaves'.screen, id, rfl, hkept, .file hshared htarget htakes' hne⟩
          · rw [htarget] at herr
            cases herr
            exact ⟨rfl, hleaves.screen, id, rfl, htakes, .null hshared htarget⟩

theorem Understood.ne_nil (h : Understood line nullWord setting.registry w.home invocations r) :
    invocations ≠ [] := by
  obtain ⟨parsed, -, hcommands, -⟩ := h
  rw [Invocation.ofLine] at hcommands
  rcases hsegments : parsed.segments with _ | ⟨segment, segments⟩
  · rw [hsegments] at hcommands
    cases hcommands
  · rw [hsegments, List.isEmpty_cons, if_neg Bool.false_ne_true, Invocation.ofSegments] at hcommands
    split at hcommands
    · cases hcommands
    · rcases hrest : Invocation.ofSegments setting.registry segments with e | rest <;> rw [hrest] at hcommands <;>
        cases hcommands
      nofun

theorem leaves_dropTyped (p : Pipeline) (w : World) : w.Leaves P (p.dropTyped w) := by
  rw [dropTyped]
  split
  · exact World.leaves_readKeys w
  · exact .refl P w

theorem leaves_start (p : Pipeline) (w : World) : w.Leaves P (p.start w).world := by
  have hbegun : w.Leaves P { w with terminal := w.terminal.beginOutput } :=
    World.leaves_of_eq rfl rfl w.terminal.sameScreen_beginOutput
  exact hbegun.trans (leaves_dropTyped p _)

theorem account_start (hne : p.invocations ≠ []) (houtput : p.output = .file t.id) (htakes : t.Takes w []) :
    Chain.Account P t w [] (p.start w) := by
  have hfresh : ∀ {i : Nat} {v : Worker}, (p.start w).workers[i]? = some v →
      v.isFinished = false ∧ v.errorText = "" ∧ v.files = [] := by
    intro i v hv
    obtain ⟨context, invocation, -, rfl⟩ := exists_invocation hv
    exact ⟨rfl, rfl, rfl⟩
  have hsink : (p.start w).ends.output = { sink := .file t.id } := by
    simp only [start, houtput, ChainOutput.new]
  refine ⟨(fresh_start p w hne).length, fun hv => ?_, fun hv => ?_, fun hv => ?_, leaves_start p w⟩
  · have hkept := htakes.keep ((leaves_start (P := fun _ => True) p w).keeps t.place trivial)
    rw [(hfresh hv).1, hsink]
    exact ⟨rfl, rfl, by simp [sinceClear, actionsOf], hkept⟩
  · rw [(hfresh hv).1, (hfresh hv).2.1]
    rfl
  · rw [(hfresh hv).2.2]
    exact fun id hid => absurd hid List.not_mem_nil

/-! ### The error text -/

theorem toList_endErrorText (text : String) : (endErrorText text).toList = endLine ['\n'] text.toList := by
  rw [endErrorText, endLine, endsLine]
  by_cases htext : text = ""
  · simp [htext]
  · by_cases hends : text.toList.getLast? = some '\n'
    · simp [hends]
    · simp [htext, hends]

/-- All error text of a pipeline: what each stage has written as such, in the order of the stages and each
with its last line ended, and then the lines that report failures. -/
def fullErrorText (said : List Saying) (stages : Nat) (lines : List String) : List Char :=
  (List.range stages).flatMap (fun i => endLine ['\n'] (OutputAction.textOf (actionsOf said i true))) ++
    lines.flatMap fun line => line.toList ++ ['\n']

theorem toList_errorText {start : World} (h : Chain.Account P t start said c) (hfinished : c.isFinished = true) :
    (errorText c).toList = fullErrorText said c.workers.length (report c).errors := by
  have hworkers : c.workers.map (·.errorText) =
      (List.range c.workers.length).map fun i => endErrorText (Chain.errorTextOf said i) := by
    refine List.ext_getElem (by simp) fun i hi _ => ?_
    rw [List.length_map] at hi
    have herrors := h.errors (List.getElem?_eq_getElem hi)
    rw [List.all_eq_true.1 hfinished _ (List.getElem_mem hi)] at herrors
    simpa using herrors
  rw [errorText, hworkers, fullErrorText]
  simp [String.toList_join, List.flatMap_map, toList_endErrorText, Chain.errorTextOf]

theorem errors_of_live {byStage : List Completion} {seats : List Seat} (h : Chain.Books seats log c)
    (hperm : byStage.Perm log) (hrange : byStage.map (·.stage) = List.range seats.length)
    (hlive : c.isCancelled = false) : (report c).errors = byStage.flatMap (·.lines seats) := by
  have hnone : ∀ x ∈ log, x.cancelled = false := by
    intro x hx
    by_contra hcancelled
    have hc := h.cancelled x hx (by simpa using hcancelled)
    rw [hlive] at hc
    cases hc
  obtain ⟨hreport, -⟩ := report_eq h hperm hrange
  rw [hreport, linesOf, find?_cancelled_eq_none hperm hnone, List.append_nil]

/-! ### The end -/

theorem holds_writeErrors {text : List Char} (h : t.Takes w text) (errors : String) (color : Color) :
    t.Holds ((Sink.file t.id).flush ((Sink.file t.id).writeErrors w errors color).2) (text ++ errors.toList) ∧
      w.Leaves (· ≠ t.place) ((Sink.file t.id).flush ((Sink.file t.id).writeErrors w errors color).2) := by
  rw [Sink.writeErrors]
  split
  · next hempty =>
    have hnone : errors.toList = [] := by simpa using hempty
    rw [hnone, List.append_nil]
    exact h.flush
  · obtain ⟨htakes, hleaves⟩ := h.write errors
    obtain ⟨hholds, hleaves'⟩ := htakes.flush
    exact ⟨hholds, hleaves.trans hleaves'⟩

theorem shown_writeErrors (hwrite : w.terminal.faults.write = false) (hcolor : w.terminal.faults.color = false)
    (errors : String) (color : Color) :
    (Sink.terminal.writeErrors w errors color).2.files = w.files ∧
      (Sink.terminal.writeErrors w errors color).2.terminal.shown =
        w.terminal.shown ++ shownAs w.terminal.lineTermination.toList errors.toList := by
  rw [Sink.writeErrors]
  split
  · next hempty =>
    have hnone : errors.toList = [] := by simpa using hempty
    rw [hnone]
    exact ⟨rfl, (List.append_nil _).symm⟩
  · have hcolored := w.terminal.sameScreen_setColor (some color)
    obtain ⟨u, hset⟩ : ∃ u, w.terminal.setColor (some color) = (.ok (), u) := by
      rw [Terminal.setColor, hcolor, if_neg Bool.false_ne_true]
      exact ⟨_, rfl⟩
    rw [hset] at hcolored
    obtain ⟨x, hx, hshown, -⟩ := Terminal.write_ok (hcolored.faults ▸ hwrite)
      (withLineTermination errors u.lineTermination)
    simp only [hset, hx, true_and]
    rw [(x.sameScreen_setColor none).shown, hshown, hcolored.shown, toList_withLineTermination,
      hcolored.lineTermination]

theorem writeErrors_null (w : World) (errors : String) (color : Color) :
    (Sink.null.writeErrors w errors color).2 = w := by
  rw [Sink.writeErrors]
  split <;> rfl

/-- What is shown and what the files hold after a pipeline whose output goes to a file. -/
theorem drain_redirected {id : FileId} (houtput : p.output = .file id) (c : Chain) :
    let u := p.errorSink.flush
      (p.errorSink.writeErrors c.world (errorText c) p.setting.settings.errorColor).2
    (p.drain c).2.files = u.files ∧ (p.drain c).2.terminal.shown = u.terminal.shown := by
  intro u
  refine ⟨rfl, ?_⟩
  have hterminal : (p.drain c).2.terminal = u.terminal.endOutput := by
    simp only [drain_eq, settle, endOutput, houtput, reduceCtorEq, false_and, if_false, u]
  rw [hterminal, Terminal.shown_endOutput]

/-- Where the output and the error text of a line have gone, of which the output goes to the file that `path`
leads to. -/
structure Sent (w : World) (r : Resolved) (path : String) (append : Bool) (text errors : List Char) (v : World) :
    Prop where
  joined : r.shared = true → w.Added v path append (text ++ errors)
  apart : r.shared = false → w.Added v path append text
  separate : r.shared = false → ∀ other again, r.errorOutput = some (.file other again) →
    w.Added v other again errors
  shown : v.terminal.shown = w.terminal.shown ++
    if r.shared = false ∧ r.errorOutput = none then shownAs w.terminal.lineTermination.toList errors else []

theorem sent_of_apart {text errors : List Char} (hshared : r.shared = false) (htext : w.Added v path append text)
    (hseparate : ∀ other again, r.errorOutput = some (.file other again) → w.Added v other again errors)
    (hshown : v.terminal.shown = w.terminal.shown ++
      if r.errorOutput = none then shownAs w.terminal.lineTermination.toList errors else []) :
    Sent w r path append text errors v := by
  refine ⟨fun h => ?_, fun _ => htext, fun _ => hseparate, ?_⟩
  · cases hshared.symm.trans h
  · simpa only [hshared, true_and] using hshown

/-- The terminal does not fail if the error text goes there. -/
def CanShow (w : World) (r : Resolved) : Prop :=
  r.shared = false → r.errorOutput = none → w.terminal.faults.write = false ∧ w.terminal.faults.color = false

theorem sent_drain {id : FileId} {text : List Char} {start : World} (houtput : p.output = .file id)
    (htext : (w.destination path append id).Holds c.world text)
    (herrors : ErrorsTo w r (w.destination path append id) start p.errorSink)
    (hleaves : start.Leaves (fun place => w.IsTarget r place ∧ place ≠ w.placeOf path) c.world)
    (hscreen : w.terminal.SameScreen start.terminal) (hshow : CanShow w r) :
    Sent w r path append text (errorText c).toList (p.drain c).2 := by
  obtain ⟨hfiles, hshown⟩ := drain_redirected houtput c
  have hsame : w.terminal.SameScreen c.world.terminal := hscreen.trans hleaves.screen
  generalize hsink : p.errorSink = sink at herrors hfiles hshown
  cases herrors with
  | joined hshared =>
      obtain ⟨hholds, hwritten⟩ := holds_writeErrors htext.takes (errorText c) p.setting.settings.errorColor
      refine ⟨fun _ => ?_, fun h => ?_, fun h => ?_, ?_⟩
      · exact (World.added_of_holds hholds).of_files hfiles
      · cases hshared.symm.trans h
      · cases hshared.symm.trans h
      · rw [hshown, hwritten.screen.shown, hsame.shown, hshared, if_neg (by simp), List.append_nil]
  | terminal hshared htarget =>
      obtain ⟨hwrite, hcolor⟩ := hshow hshared htarget
      rw [← hsame.faults] at hwrite hcolor
      obtain ⟨hfiles', hshown'⟩ := shown_writeErrors hwrite hcolor (errorText c) p.setting.settings.errorColor
      have htext := (World.added_of_holds htext).of_files (hfiles.trans hfiles')
      refine sent_of_apart hshared htext (fun other again h => ?_) ?_
      · cases htarget.symm.trans h
      · rw [hshown.trans hshown', hsame.shown, hsame.lineTermination, if_pos htarget]
  | null hshared htarget =>
      rw [writeErrors_null] at hfiles hshown
      refine sent_of_apart hshared ((World.added_of_holds htext).of_files hfiles) (fun other again h => ?_) ?_
      · cases htarget.symm.trans h
      · rw [hshown.trans hsame.shown, htarget, if_neg (by simp), List.append_nil]
  | @file path' append' id' hshared htarget htakes hplace =>
      -- no stage has touched this file either, and it is not where the output has gone
      have hmember : .file path' append' ∈ r.targets := by simp [Resolved.targets, hshared, htarget]
      have htaken := htakes.keep (hleaves.keeps _ ⟨⟨_, _, hmember, rfl⟩, hplace⟩)
      obtain ⟨hholds, hwritten⟩ := holds_writeErrors htaken (errorText c) p.setting.settings.errorColor
      have htext := (World.added_of_holds (htext.keep (hwritten.keeps _ hplace.symm))).of_files hfiles
      refine sent_of_apart hshared htext (fun other again h => ?_) ?_
      · cases htarget.symm.trans h
        exact (World.added_of_holds hholds).of_files hfiles
      · rw [hshown.trans hwritten.screen.shown, hsame.shown, htarget, if_neg (by simp), List.append_nil]

/-- A pipeline whose output goes to a file, which has taken any course without being cancelled and in which no
stage has opened the redirect files.  If the error output is joined to the output, the file has what it is
to keep, then all that the last stage has written, with its last line ended, and then all error text.  If the
two are apart, the file has no error text, and all error text has gone to the target of the error output and
nowhere else. -/
theorem drain_of_tale (hline : Understood line nullWord setting.registry w.home invocations r)
    (houtput : r.output = some (.file path append)) (hseparate : Separate w r) (hshow : CanShow w r)
    (hprepare : prepare line nullWord setting w = (.ok p, v)) (token : Option TokenId)
    (htale : Chain.Tale (w.IsTarget r) (p.start { v with interrupt := token }) said log c)
    (hfinished : c.isFinished = true) (hlive : c.isCancelled = false) :
    ∃ byStage : List Completion, byStage.Perm log ∧ byStage.map (·.stage) = List.range invocations.length ∧
      let actions := actionsOf said (invocations.length - 1) false
      let seats := p.seats { v with interrupt := token }
      Sent w r path append (OutputAction.textOf actions ++ finalBreak actions)
        (fullErrorText said invocations.length (byStage.flatMap (·.lines seats))) (p.drain c).2 := by
  have hopened := (prepare_of_understood hline).symm.trans hprepare
  obtain ⟨rfl, hscreen, id, hsink, htakes, herrors⟩ := errorsTo_openResolved hopened houtput hseparate
  let u : World := { v with interrupt := token }
  have hplace : w.IsTarget r (w.placeOf path) := ⟨path, append, by simp [Resolved.targets, houtput], rfl⟩
  have hkeep : ∀ place, v.KeepsAt u place := fun place => ⟨.refl _ _, fun hf _ => hf⟩
  have htakes : (w.destination path append id).Takes u [] := htakes.keep (hkeep _)
  have haccount := (account_start hline.ne_nil hsink htakes).of_tale hplace htale
  have hbooks := (books_start p u).of_course htale.course
  obtain ⟨byStage, hperm, hrange⟩ := exists_byStage hbooks hfinished
  have hlines := errors_of_live hbooks hperm hrange hlive
  have hlength : c.workers.length = p.invocations.length := by
    rw [hbooks.length_workers, length_seats]
  have hlinks : c.links.length = p.invocations.length - 1 := by
    rw [← hlength, haccount.length, Nat.add_sub_cancel]
  have htext := haccount.holds hfinished
  rw [hlinks] at htext
  refine ⟨byStage, hperm, by rw [hrange, length_seats], ?_⟩
  have hsent := sent_drain hsink htext (herrors.keep hkeep) haccount.world hscreen hshow
  rw [toList_errorText haccount hfinished, hlength, hlines] at hsent
  exact hsent

/-- Commands that fail, complain and write. -/
def trying : Setting where
  registry := ⟨[Sample.fail, Sample.warn, Sample.emit].map (⟨·, { qualifier := "", name := "" }⟩)⟩

/-- A world with one file. -/
def oneFile : World := .detached ⟨.ofList [("/f", .file (bytesOf "old\n".toList))], "/"⟩ none {}

/-- Both outputs of a line, appended to that file. -/
def joined : Resolved := { output := some (.file "/f" true), errorOutput := some (.file "/f" true), shared := true }

/-- The last stage writes and finishes before the others, one of which complains while the other one fails. -/
theorem drain_of_tale_of_joined :
    ∃ p v said log c, prepare "fail | warn oops | emit x >> /f 2>> &1" "null" trying oneFile = (.ok p, v) ∧
      Chain.Tale (oneFile.IsTarget joined) (p.start { v with interrupt := some p.token }) said log c ∧
      c.isFinished = true ∧ c.isCancelled = false ∧ log.map (·.stage) = [2, 0, 1] ∧
      (p.drain c).2.files.node? "/f" = some (.file (bytesOf "old\nx\noops\nfail: boom\n".toList)) := by
  obtain ⟨invocations, hline, hlength⟩ : ∃ invocations, Understood "fail | warn oops | emit x >> /f 2>> &1" "null"
      trying.registry oneFile.home invocations joined ∧ invocations.length = 3 :=
    ⟨_, ⟨_, rfl, rfl, rfl⟩, rfl⟩
  obtain ⟨p, v, said, log, c, boom, warned, emitted, hprepare, htale, hsaid, rfl, hrange, hfinished, hlive, hlines⟩ :
      ∃ p v said log c boom warned emitted,
      prepare "fail | warn oops | emit x >> /f 2>> &1" "null" trying oneFile = (.ok p, v) ∧
      Chain.Tale (oneFile.IsTarget joined) (p.start { v with interrupt := some p.token }) said log c ∧
      said = [⟨2, false, .write "x"⟩, ⟨1, true, .write "oops"⟩, ⟨1, true, .clearScreen⟩] ∧
      log = [emitted, boom, warned] ∧ [boom, warned, emitted].map (·.stage) = List.range 3 ∧
      c.isFinished = true ∧ c.isCancelled = false ∧
      [boom, warned, emitted].flatMap (·.lines (p.seats { v with interrupt := some p.token })) = ["fail: boom"] := by
    refine ⟨_, _, _, _, _, _, _, _, rfl, .step (i := 1) (.step (i := 1) (.step (i := 0) (.step (i := 2)
      (.step (i := 1) (.step (i := 2) .refl ?_ rfl) ?_ rfl) ?_ rfl) ?_ rfl) ?_ rfl) ?_ rfl, rfl, rfl, rfl, rfl, rfl, ?_⟩
    rotate_left 6
    · decide +kernel
    all_goals
      intro w s hw hs
      cases hw
      cases hs
      trivial
  obtain ⟨byStage, hperm, hstages, hsent⟩ :=
    drain_of_tale hline rfl nofun nofun hprepare (some p.token) htale hfinished hlive
  -- in the order of the stages, what has completed is the log with its first entry at the end
  have hsorted : ([emitted] ++ [boom, warned]).Perm ([boom, warned] ++ [emitted]) := List.perm_append_comm
  have hbyStage : byStage = [boom, warned, emitted] :=
    (mergeSort_eq_of_pairwise hperm.symm (pairwise_of_range hstages)).symm.trans
      (mergeSort_eq_of_pairwise hsorted (pairwise_of_range hrange))
  have hnode := hsent.joined rfl
  rw [World.Added, hsaid, hbyStage, hlines, hlength] at hnode
  refine ⟨p, v, said, _, c, hprepare, htale, hfinished, hlive, ?_, hnode.trans ?_⟩
  · obtain ⟨hboom, hwarned, hemitted⟩ : boom.stage = 0 ∧ warned.stage = 1 ∧ emitted.stage = 2 := by
      simpa [List.range_succ] using hrange
    simp [hboom, hwarned, hemitted]
  · decide +kernel

end Pipeline

end CommandShell
