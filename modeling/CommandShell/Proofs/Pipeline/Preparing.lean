import CommandShell.Builtin.All
import CommandShell.Proofs.Pipeline.Opening

/-!
What making the pipeline of a line does to the files.  Main statement: a line that is wrong, or whose input
cannot be had, or for which not even the first file can be opened, leaves everything as it is; otherwise the
input is what its file had before, and only the targets of the output are touched.
-/

namespace CommandShell

open Line

theorem Node.opened_opened (before : Option Node) (append again : Bool) :
    opened (some (opened before append)) again = opened before (append && again) := by
  rcases before with _ | content | _ | _
  · cases again <;> rfl
  · cases append
    · cases again <;> rfl
    · rfl
  · cases again <;> rfl
  · rfl

/-- Opening a place several times drops what is there, unless every time is to append to it. -/
theorem Node.foldl_opened (before : Option Node) {appends : List Bool} (hne : appends ≠ []) :
    appends.foldl (fun node append => some (opened node append)) before = some (opened before (appends.all id)) := by
  induction appends generalizing before with
  | nil => exact absurd rfl hne
  | cons append appends ih =>
      rw [List.foldl_cons]
      rcases eq_or_ne appends [] with rfl | hmore
      · rw [List.all_cons, List.all_nil, Bool.and_true]
        rfl
      · rw [ih _ hmore, opened_opened]
        rfl

/-- How the target is opened, if it is a file at that place. -/
def Line.OutputTarget.appendAt? (w : World) (place : String) : OutputTarget → Option Bool
  | .file path append => if w.placeOf path = place then some append else none
  | .null => none

/-- The targets that are opened, in that order. -/
def Line.Resolved.targets (r : Resolved) : List OutputTarget :=
  r.output.toList ++ if r.shared then [] else r.errorOutput.toList

/-- For each target at a place whether it is appended to. -/
def World.appendsAt (w : World) (r : Resolved) (place : String) : List Bool :=
  r.targets.filterMap (·.appendAt? w place)

namespace Pipeline

/-- The line makes sense: its text, its commands with their arguments, and its redirects. -/
def Understood (line nullWord : String) (registry : Registry) (home : Option String)
    (invocations : List Invocation) (r : Resolved) : Prop :=
  ∃ parsed, parse line nullWord = .ok parsed ∧ Invocation.ofLine registry parsed = .ok invocations ∧
    resolve home parsed.redirects = .ok r

/-- Why no file has been touched yet when a line fails. -/
inductive Stops (line nullWord : String) (setting : Setting) (w : World) : ShellError → Prop
  | parse {error : ParseError} (h : Line.parse line nullWord = .error error) : Stops line nullWord setting w (.parse error)
  | commands {parsed : CommandLine} {error : ShellError} (hparse : Line.parse line nullWord = .ok parsed)
      (h : Invocation.ofLine setting.registry parsed = .error error) : Stops line nullWord setting w error
  | redirects {parsed : CommandLine} {invocations : List Invocation} {error : ParseError}
      (hparse : Line.parse line nullWord = .ok parsed)
      (hcommands : Invocation.ofLine setting.registry parsed = .ok invocations)
      (h : resolve w.home parsed.redirects = .error error) : Stops line nullWord setting w (.parse error)
  | input {invocations : List Invocation} {r : Resolved} {error : ShellError}
      (hline : Understood line nullWord setting.registry w.home invocations r)
      (h : openInput w r.input = .error error) : Stops line nullWord setting w error
  | output {invocations : List Invocation} {r : Resolved} {input : ChainInput} {error : ShellError}
      (hline : Understood line nullWord setting.registry w.home invocations r)
      (hinput : openInput w r.input = .ok input) (h : openSink w r.output = .error error) :
      Stops line nullWord setting w error
  /-- The error output is what is opened first: the other output goes to the terminal or nowhere. -/
  | errorOutput {invocations : List Invocation} {r : Resolved} {input : ChainInput} {error : ShellError}
      (hline : Understood line nullWord setting.registry w.home invocations r)
      (hinput : openInput w r.input = .ok input) (houtput : ∀ path append, r.output ≠ some (.file path append))
      (hshared : r.shared = false) (h : openSink w r.errorOutput = .error error) : Stops line nullWord setting w error

variable {line nullWord : String} {setting : Setting} {w v : World} {invocations : List Invocation} {r : Resolved}
  {input : ChainInput} {sink : Sink} {target : Option OutputTarget} {error : ShellError} {p : Pipeline}

theorem prepare_of_understood (h : Understood line nullWord setting.registry w.home invocations r) :
    prepare line nullWord setting w = openResolved invocations r setting w := by
  obtain ⟨parsed, hparse, hcommands, hresolve⟩ := h
  rw [prepare, hparse]
  dsimp only
  rw [hcommands]
  dsimp only
  rw [openWith, hresolve]

theorem exists_openSink (h : ∀ path append, target ≠ some (.file path append)) :
    ∃ sink, openSink w target = .ok (sink, w) := by
  rcases target with _ | ⟨path, append⟩ | _
  · exact ⟨_, rfl⟩
  · exact absurd rfl (h path append)
  · exact ⟨_, rfl⟩

theorem prepare_of_stops (h : Stops line nullWord setting w error) :
    prepare line nullWord setting w = (.error error, w) := by
  cases h with
  | parse h => rw [prepare, h]
  | commands hparse h =>
      rw [prepare, hparse]
      dsimp only
      rw [h]
  | redirects hparse hcommands h =>
      rw [prepare, hparse]
      dsimp only
      rw [hcommands]
      dsimp only
      rw [openWith, h]
  | input hline h => rw [prepare_of_understood hline, openResolved, h]
  | output hline hinput h =>
      rw [prepare_of_understood hline, openResolved, hinput]
      dsimp only
      rw [h]
  | errorOutput hline hinput houtput hshared h =>
      obtain ⟨sink, hsink⟩ := exists_openSink (w := w) houtput
      rw [prepare_of_understood hline, openResolved, hinput]
      dsimp only
      rw [hsink]
      dsimp only
      rw [hshared, if_neg Bool.false_ne_true, h]

/-- A line stops before a file is touched, or its redirects are opened. -/
theorem stops_or_understood (line nullWord : String) (setting : Setting) (w : World) :
    (∃ error, Stops line nullWord setting w error) ∨ ∃ invocations r input,
      Understood line nullWord setting.registry w.home invocations r ∧ openInput w r.input = .ok input := by
  rcases hparse : Line.parse line nullWord with error | parsed
  · exact .inl ⟨_, .parse hparse⟩
  · rcases hcommands : Invocation.ofLine setting.registry parsed with error | invocations
    · exact .inl ⟨_, .commands hparse hcommands⟩
    · rcases hresolve : resolve w.home parsed.redirects with error | r
      · exact .inl ⟨_, .redirects hparse hcommands hresolve⟩
      · have hline : Understood line nullWord setting.registry w.home invocations r :=
          ⟨parsed, hparse, hcommands, hresolve⟩
        rcases hinput : openInput w r.input with error | input
        · exact .inl ⟨_, .input hline hinput⟩
        · exact .inr ⟨invocations, r, input, hline, hinput⟩

/-- A second file cannot be opened after the first one has been. -/
def SecondFails (r : Resolved) (w v : World) (error : ShellError) : Prop :=
  r.shared = false ∧ ∃ path append sink, r.output = some (.file path append) ∧
    openSink w r.output = .ok (sink, v) ∧ openSink v r.errorOutput = .error error

theorem stops_of_prepare (h : prepare line nullWord setting w = (.error error, v)) :
    Stops line nullWord setting w error ∧ v = w ∨ ∃ invocations r,
      Understood line nullWord setting.registry w.home invocations r ∧ SecondFails r w v error := by
  rcases stops_or_understood line nullWord setting w with ⟨error', hstops⟩ | ⟨invocations, r, input, hline, hinput⟩
  · obtain ⟨herror, hworld⟩ := Prod.mk.inj ((prepare_of_stops hstops).symm.trans h)
    exact .inl ⟨Except.error.inj herror ▸ hstops, hworld.symm⟩
  · rw [prepare_of_understood hline, openResolved, hinput] at h
    dsimp only at h
    rcases hout : openSink w r.output with error' | ⟨output, u⟩
    · rw [hout] at h
      obtain ⟨herror, hworld⟩ := Prod.mk.inj h
      exact .inl ⟨.output hline hinput (hout.trans (congrArg _ (Except.error.inj herror))), hworld.symm⟩
    · rw [hout] at h
      dsimp only at h
      split at h
      · cases h
      · next hshared =>
        rcases herr : openSink u r.errorOutput with error' | ⟨errorSink, x⟩
        · rw [herr] at h
          obtain ⟨herror, rfl⟩ := Prod.mk.inj h
          obtain rfl := Except.error.inj herror
          by_cases hfile : ∀ path append, r.output ≠ some (.file path append)
          · obtain ⟨sink, hsink⟩ := exists_openSink (w := w) hfile
            obtain ⟨-, rfl⟩ := Prod.mk.inj (Except.ok.inj (hsink.symm.trans hout))
            exact .inl ⟨.errorOutput hline hinput hfile (Bool.eq_false_iff.2 hshared) herr, rfl⟩
          · push Not at hfile
            obtain ⟨path, append, hfile⟩ := hfile
            exact .inr ⟨invocations, r, hline, Bool.eq_false_iff.2 hshared, path, append, output, hfile, hout, herr⟩
        · rw [herr] at h
          cases h

/-! ### What is opened -/

theorem node?_openSink (h : openSink w target = .ok (sink, v)) : w.SamePaths v ∧ ∀ place, v.files.node? place =
    (target.toList.filterMap (·.appendAt? w place)).foldl (fun node append => some (Node.opened node append))
      (w.files.node? place) := by
  rcases target with _ | ⟨path, append⟩ | _
  · cases h
    exact ⟨.refl w, fun _ => rfl⟩
  · rcases hopen : w.openFile path append with e | ⟨id, u⟩
    · simp [openSink, openTarget, hopen, Except.map] at h
    · simp only [openSink, openTarget, hopen, Except.map] at h
      cases h
      obtain ⟨fs, place, hwriting, rfl, rfl⟩ := World.openFile_eq_ok hopen
      obtain ⟨hplace, hcurrent, -, hnode, hothers⟩ := FileSystem.openForWriting_eq_ok hwriting
      refine ⟨⟨rfl, hcurrent⟩, fun q => ?_⟩
      have happend : (some (OutputTarget.file path append)).toList.filterMap (·.appendAt? w q) =
          if q = place then [append] else [] := by
        have hwhere : w.placeOf path = place := hplace.symm
        rw [Option.toList_some, List.filterMap_cons, List.filterMap_nil, OutputTarget.appendAt?, hwhere]
        by_cases hq : q = place
        · rw [if_pos hq.symm, if_pos hq]
        · rw [if_neg (Ne.symm hq), if_neg hq]
      rw [happend]
      by_cases hq : q = place
      · rw [if_pos hq, hq]
        exact hnode
      · rw [if_neg hq]
        exact hothers q hq
  · cases h
    exact ⟨.refl w, fun _ => rfl⟩

theorem appendAt?_of_samePaths (h : w.SamePaths v) (target : OutputTarget) (place : String) :
    target.appendAt? v place = target.appendAt? w place := by
  cases target with
  | null => rfl
  | file path append => rw [OutputTarget.appendAt?, h.placeOf, OutputTarget.appendAt?]

/-- What has been opened when a pipeline is ready. -/
theorem node?_openResolved (h : openResolved invocations r setting w = (.ok p, v)) (place : String) :
    v.files.node? place = (w.appendsAt r place).foldl (fun node append => some (Node.opened node append))
      (w.files.node? place) := by
  rw [openResolved] at h
  split at h
  · cases h
  · split at h
    · cases h
    · next output u hout =>
      obtain ⟨hpaths, hnode⟩ := node?_openSink hout
      rw [World.appendsAt, Resolved.targets]
      split at h
      · next hshared =>
        cases h
        rw [hshared, if_pos rfl, List.append_nil]
        exact hnode place
      · next hshared =>
        split at h
        · cases h
        · next errorSink x herr =>
          cases h
          obtain ⟨-, hnode'⟩ := node?_openSink herr
          have hsame : (fun target : OutputTarget => target.appendAt? u place) = (·.appendAt? w place) :=
            funext fun target => appendAt?_of_samePaths hpaths target place
          rw [if_neg hshared, List.filterMap_append, List.foldl_append, ← hnode, ← hsame]
          exact hnode' place

theorem input_openResolved (h : openResolved invocations r setting w = (.ok p, v)) :
    openInput w r.input = .ok p.input := by
  rw [openResolved] at h
  split at h
  · cases h
  · next input hinput =>
    split at h
    · cases h
    · split at h
      · cases h
        exact hinput
      · split at h
        · cases h
        · cases h
          exact hinput

theorem openInput_file {path : String} (h : openInput w (some (.file path)) = .ok input) :
    ∃ bytes text, w.files.read (expandHome w.home path) = .ok bytes ∧ Encoding.detect? bytes = some text ∧
      input = .redirected text.toList := by
  rw [openInput, World.load] at h
  rcases hread : w.files.read (expandHome w.home path) with fault | bytes
  · rw [hread] at h
    cases h
  · rw [hread] at h
    dsimp only at h
    rcases hdetect : Encoding.detect? bytes with _ | text
    · rw [hdetect] at h
      cases h
    · rw [hdetect] at h
      cases h
      exact ⟨bytes, text, rfl, hdetect, rfl⟩

/-- A line that fails to start touches nothing, unless it has opened one file when it fails to open another.
One that starts reads what its input file had before the line, even if that is an output file as well, and of
all that there is only the targets of its output are touched: they are made where they are missing, and emptied
unless they are appended to. -/
theorem prepare_touches (line nullWord : String) (setting : Setting) (w : World) :
    (∀ error, Stops line nullWord setting w error → prepare line nullWord setting w = (.error error, w)) ∧
    (∀ error v, prepare line nullWord setting w = (.error error, v) →
      Stops line nullWord setting w error ∧ v = w ∨ ∃ invocations r,
        Understood line nullWord setting.registry w.home invocations r ∧ SecondFails r w v error) ∧
    ∀ p v, prepare line nullWord setting w = (.ok p, v) → ∃ invocations r,
      Understood line nullWord setting.registry w.home invocations r ∧
      (∀ path, r.input = some (.file path) → ∃ bytes text, w.files.read (expandHome w.home path) = .ok bytes ∧
        Encoding.detect? bytes = some text ∧ p.input = .redirected text.toList) ∧
      ∀ place, (w.appendsAt r place = [] → v.files.node? place = w.files.node? place) ∧
        (w.appendsAt r place ≠ [] → v.files.node? place =
          some (Node.opened (w.files.node? place) ((w.appendsAt r place).all id))) := by
  refine ⟨fun error => prepare_of_stops, fun error v => stops_of_prepare, fun p v h => ?_⟩
  rcases stops_or_understood line nullWord setting w with ⟨error, hstops⟩ | ⟨invocations, r, input, hline, -⟩
  · cases (prepare_of_stops hstops).symm.trans h
  · rw [prepare_of_understood hline] at h
    refine ⟨invocations, r, hline, fun path hpath => ?_, fun place => ⟨fun hnone => ?_, fun hsome => ?_⟩⟩
    · exact openInput_file (hpath ▸ input_openResolved h)
    · rw [node?_openResolved h, hnone, List.foldl_nil]
    · rw [node?_openResolved h, Node.foldl_opened _ hsome]

/-- One file is both read and emptied: it is read first. -/
theorem prepare_touches_of_same_file :
    let w := World.detached ⟨.ofList [("/f", .file "hi".toUTF8.data.toList)], "/"⟩ none {}
    ∃ p v, prepare "echo x < /f > /f" "null" ⟨(Builtin.register {} {}).2, {}⟩ w = (.ok p, v) ∧
      p.input = .redirected ['h', 'i'] ∧ v.files.node? "/f" = some (.file []) := by
  intro w
  let setting : Setting := ⟨(Builtin.register {} {}).2, {}⟩
  obtain ⟨p, v, hprepare⟩ : ∃ p v, prepare "echo x < /f > /f" "null" setting w = (.ok p, v) := by
    have hok : (prepare "echo x < /f > /f" "null" setting w).1.isOk = true := by decide +kernel
    generalize prepare "echo x < /f > /f" "null" setting w = prepared at hok
    obtain ⟨error | p, v⟩ := prepared
    · cases hok
    · exact ⟨p, v, rfl⟩
  obtain ⟨invocations, r, ⟨parsed, hparse, -, hresolve⟩, hinput, hnode⟩ :=
    (prepare_touches "echo x < /f > /f" "null" setting w).2.2 p v hprepare
  have hr : ((parse "echo x < /f > /f" "null").toOption.bind fun parsed => (resolve none parsed.redirects).toOption) =
      some { input := some (.file "/f"), output := some (.file "/f" false) } := by
    decide +kernel
  have hhome : resolve none parsed.redirects = .ok r := hresolve
  rw [hparse, Except.toOption, Option.bind_some, hhome, Except.toOption, Option.some_inj] at hr
  subst hr
  obtain ⟨bytes, text, hread, hdetect, htext⟩ := hinput "/f" rfl
  have hbytes : w.files.read (expandHome w.home "/f") = .ok "hi".toUTF8.data.toList := by decide +kernel
  obtain rfl := Except.ok.inj (hread.symm.trans hbytes)
  have hhi : Encoding.detect? "hi".toUTF8.data.toList = some "hi" := by decide +kernel
  obtain rfl := Option.some_inj.1 (hdetect.symm.trans hhi)
  have happends : w.appendsAt { input := some (.file "/f"), output := some (.file "/f" false) } "/f" = [false] := by
    decide +kernel
  have hemptied := (hnode "/f").2 (by rw [happends]; nofun)
  rw [happends] at hemptied
  exact ⟨p, v, hprepare, htext, hemptied⟩

end Pipeline

end CommandShell
