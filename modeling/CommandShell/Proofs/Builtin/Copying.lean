import CommandShell.Builtin.Copying
import CommandShell.Proofs.Command.Yield

/-!
What the commands that write text or pass their input on make of a whole input.
-/

namespace CommandShell.Builtin

/-- The lines of a text as they are read, after what has been read of the first one: without carriage
returns, and what follows the last line feed counts unless it is empty. -/
def readLines (line : List Char) : List Char → List (List Char)
  | [] => if line.isEmpty then [] else [line]
  | c :: cs =>
    if c = '\n' then line :: readLines [] cs
    else if c = '\r' then readLines line cs
    else readLines (line ++ [c]) cs

theorem readLines_append {text : List Char} (htext : ∀ c ∈ text, IsLineChar c) (line cs : List Char) :
    readLines line (text ++ cs) = readLines (line ++ text) cs := by
  induction text generalizing line with
  | nil => simp
  | cons c text ih =>
      obtain ⟨hc, htext⟩ := List.forall_mem_cons.1 htext
      simp [readLines, hc.1, hc.2, ih htext]

theorem readLines_return (text line cs : List Char) :
    readLines line (text ++ '\r' :: cs) = readLines line (text ++ cs) := by
  induction text generalizing line with
  | nil => simp [readLines]
  | cons c text ih => simp [readLines, ih]

/-- A stage that runs one of the commands on text, with what its arguments say. -/
inductive TextStage where
  | echo (text : String)
  | passthrough
  | reverse
  | grep (inverted : Bool) (automata : List Pattern.Automaton)
  | tee (path : String) (append : Bool)

namespace TextStage

/-- What the stage makes of its whole input, where lines that it writes end with `lineBreak`. -/
def yield (t : TextStage) (lineBreak input : List Char) : Yield :=
  match t with
  | .echo text => ⟨text.toList ++ lineBreak, []⟩
  | .passthrough => ⟨input, []⟩
  | .reverse => ⟨(readLines [] input).flatMap fun line => line.reverse ++ lineBreak, []⟩
  | .grep inverted automata =>
    let kept := (readLines [] input).filter fun line =>
      automata.any (·.finds (String.ofList line)) != inverted
    ⟨kept.flatMap fun line => line ++ lineBreak, []⟩
  | .tee _ _ => ⟨input, input⟩

/-- The file that the stage writes. -/
def use : TextStage → Option FileUse
  | .tee path append => some (path, append)
  | _ => none

/-- What `reverse` writes of a line. -/
def reverseLine (line : String) : Option String := some (String.ofList line.toList.reverse)

/-- What `grep` writes of a line. -/
def keepLine (inverted : Bool) (automata : List Pattern.Automaton) (line : String) : Option String :=
  if automata.any (·.finds line) != inverted then some line else none

def body : TextStage → Body
  | .echo text => .writingLines [text]
  | .passthrough => copying
  | .reverse => transformingLines reverseLine
  | .grep inverted automata => transformingLines (keepLine inverted automata)
  | .tee path append => teeing path append

end TextStage

/-- The invocation runs that command. -/
def Runs (i : Invocation) (command : Command) : Prop :=
  ∃ r b, i.stage = .command r b ∧ r.command = command

/-- The patterns of a call of `grep`. -/
def grepPatterns (call : Call) : Except CommandError (List Pattern) :=
  readPatterns (call.isSet "i")
    ((splitPatterns ((call.argument? "patterns").getD "").toList).map String.ofList)

/-- The invocation runs the command of the stage with what its arguments say: patterns that are
patterns, and a path that is not blank. -/
def TextStage.IsOf (t : TextStage) (i : Invocation) : Prop :=
  match t with
  | .echo text => Runs i Builtin.echo ∧ text = (i.call.argument? "text").getD ""
  | .passthrough => Runs i Builtin.passthrough
  | .reverse => Runs i Builtin.reverse
  | .grep inverted automata => Runs i Builtin.grep ∧ inverted = i.call.isSet "v" ∧
      ∃ patterns, grepPatterns i.call = .ok patterns ∧ automata = patterns.map Pattern.automaton
  | .tee path append => Runs i Builtin.tee ∧ Text.isAllBlank path = false ∧
      path = (i.call.argument? "file").getD "" ∧ append = i.call.isSet "append"

theorem TextStage.body_eq {t : TextStage} {i : Invocation} (h : t.IsOf i) (context : Context) :
    i.body context = t.body := by
  have hbody : ∀ {command}, Runs i command → i.body context = command.body context i.call := by
    rintro _ ⟨r, b, hstage, rfl⟩
    simp only [Invocation.body, hstage]
  cases t with
  | echo text => rw [hbody h.1, h.2]; rfl
  | passthrough | reverse => rw [hbody h]; rfl
  | grep inverted automata =>
      obtain ⟨hruns, rfl, patterns, hpatterns, rfl⟩ := h
      rw [hbody hruns]
      rw [grepPatterns] at hpatterns
      simp only [Builtin.grep, hpatterns]
      rfl
  | tee path append =>
      obtain ⟨hruns, hblank, rfl, rfl⟩ := h
      rw [hbody hruns]
      simp only [Builtin.tee, hblank]
      rfl

/-! ### Meanings -/

variable {lineBreak : List Char}

/-- A body that is to write the rest of its lines, and then does not fail. -/
def FitsEnding : Option Body.Ending → FileUse.Phase → Prop
  | none, _ => True
  | some ending, _ => ending.result = .ok () ∧ .clearScreen ∉ ending.actions

/-- What is still to be written. -/
def endingYield (lineBreak : List Char) : Option Body.Ending → List Char → Yield
  | none, _ => {}
  | some ending, _ => ⟨ending.actions.flatMap (·.chars lineBreak), []⟩

theorem yields_ending (ending : Body.Ending) {phase : FileUse.Phase}
    (hfits : FitsEnding (some ending) phase) :
    ending.next.Yields lineBreak none FitsEnding (endingYield lineBreak) (some ending) phase := by
  obtain ⟨actions, result⟩ := ending
  obtain ⟨hresult, hclear⟩ := hfits
  cases actions with
  | nil => exact ⟨hresult, nofun, fun x => rfl⟩
  | cons action rest =>
      rw [List.mem_cons, not_or] at hclear
      exact ⟨Ne.symm hclear.1, ⟨hresult, hclear.2⟩, fun x => rfl⟩

def writingMeaning (lineBreak : List Char) (lines : List String) :
    (Body.writingLines lines).Meaning lineBreak none where
  fits := FitsEnding
  yield := endingYield lineBreak
  start := ⟨rfl, by simp⟩
  yields
    | none, _, _ => ⟨rfl, nofun, fun _ => rfl⟩
    | some ending, _, hfits => yields_ending ending hfits

def copyingMeaning (lineBreak : List Char) : copying.Meaning lineBreak none where
  fits _ _ := True
  yield
    | .read, x => ⟨x, []⟩
    | .write text, x => ⟨text.toList ++ x, []⟩
    | .done, _ => {}
  start := trivial
  yields
    | .read, _, _ => ⟨fun _ => trivial, rfl, fun text x _ => by simp⟩
    | .write _, _, _ => ⟨nofun, trivial, fun _ => rfl⟩
    | .done, _, _ => ⟨rfl, nofun, fun _ => rfl⟩

/-- The text that is written for some lines where `f` says what is written of a line. -/
def textOfLines (f : String → Option String) (lineBreak : List Char) (lines : List (List Char)) :
    List Char :=
  lines.flatMap fun line => ((f (String.ofList line)).map fun out => out.toList ++ lineBreak).getD []

/-- What is still to come of a body that goes through its input line by line. -/
def byLineYield (f : String → Option String) (lineBreak : List Char) : ByLine → List Char → Yield
  | .read, x => ⟨textOfLines f lineBreak (readLines [] x), []⟩
  | .write line, x => ⟨line.toList ++ lineBreak ++ textOfLines f lineBreak (readLines [] x), []⟩
  | .check, _ | .finish _, _ => {}

/-- Where a body that goes through its input line by line goes on with a line. -/
def afterLine (f : String → Option String) : Option String → ByLine
  | some line =>
    match f line with
    | some out => .write out
    | none => .read
  | none => .check

theorem byLineYield_afterLine (f : String → Option String) (lineBreak text x : List Char) :
    byLineYield f lineBreak (afterLine f (some (String.ofList text))) x =
      ⟨textOfLines f lineBreak (text :: readLines [] x), []⟩ := by
  rw [afterLine]
  rcases hf : f (String.ofList text) with _ | out <;> simp [byLineYield, textOfLines, hf]

theorem readsLine_byLine (f : String → Option String) (lineBreak : List Char) :
    ReadsLine (byLineYield f lineBreak) .read (afterLine f) where
  ended := rfl
  line text x htext := by
    rw [byLineYield_afterLine, byLineYield, readLines_append htext]
    simp [readLines]
  last text hne htext := by
    have hlines := readLines_append htext [] []
    rw [List.append_nil, List.nil_append] at hlines
    rw [byLineYield_afterLine, byLineYield, hlines]
    simp [readLines, hne]
  dropped text x := by
    rw [byLineYield, byLineYield, readLines_return]

/-- A body that goes through its input line by line is not cut short. -/
def FitsByLine : ByLine → FileUse.Phase → Prop
  | .finish cancelled, _ => cancelled = false
  | _, _ => True

theorem fits_afterLine (f : String → Option String) {phase : FileUse.Phase} (answer : Option String) :
    FitsByLine (afterLine f answer) phase := by
  rcases answer with _ | line
  · trivial
  · rw [afterLine]
    rcases f line <;> trivial

def transformingMeaning (f : String → Option String) (lineBreak : List Char) :
    (transformingLines f).Meaning lineBreak none where
  fits := FitsByLine
  yield := byLineYield f lineBreak
  start := trivial
  yields
    | .read, _, _ => ⟨fits_afterLine f, readsLine_byLine f lineBreak⟩
    | .write _, _, _ => ⟨nofun, trivial, fun _ => rfl⟩
    | .check, _, _ => ⟨rfl, fun _ => rfl⟩
    | .finish _, _, hcancelled => ⟨by rw [hcancelled]; rfl, nofun, fun _ => rfl⟩

/-- The file is open while `tee` copies. -/
def FitsTeeing : Teeing → FileUse.Phase → Prop
  | .makeFolders, phase => phase = .untouched
  | .openFile, phase => phase = .prepared
  | .read file, phase | .store file _, phase | .write file _, phase | .flush file, phase =>
    phase = .opened file
  | .check, phase => ∃ file, phase = .opened file
  | .finish cancelled, phase => cancelled = false ∧ ∃ file, phase = .opened file

/-- What is still to come of `tee`. -/
def teeingYield : Teeing → List Char → Yield
  | .makeFolders, x | .openFile, x | .read _, x => ⟨x, x⟩
  | .store _ text, x => ⟨text.toList ++ x, text.toList ++ x⟩
  | .write _ text, x => ⟨text.toList ++ x, x⟩
  | .flush _, _ | .check, _ | .finish _, _ => {}

def teeingMeaning (path : String) (append : Bool) (lineBreak : List Char) :
    (teeing path append).Meaning lineBreak (some (path, append)) where
  fits := FitsTeeing
  yield := teeingYield
  start := rfl
  yields
    | .makeFolders, _, hphase => ⟨⟨append, rfl⟩, hphase, rfl, fun _ => rfl⟩
    | .openFile, _, hphase => ⟨rfl, hphase, fun _ => ⟨rfl, fun _ => rfl⟩⟩
    | .read _, _, hphase =>
      ⟨fun | none => hphase | some _ => hphase, rfl, fun _ _ _ => by simp [teeingYield]⟩
    | .store _ _, _, hphase => ⟨hphase, hphase, fun _ => rfl⟩
    | .write _ _, _, hphase => ⟨nofun, hphase, fun _ => rfl⟩
    | .flush file, _, hphase => ⟨hphase, ⟨file, hphase⟩, fun _ => rfl⟩
    | .check, _, hphase => ⟨⟨rfl, hphase⟩, fun _ => rfl⟩
    | .finish _, _, ⟨hcancelled, hphase⟩ => ⟨by rw [hcancelled]; rfl, fun _ => hphase, fun _ => rfl⟩

namespace TextStage

def meaning (lineBreak : List Char) : (t : TextStage) → t.body.Meaning lineBreak t.use
  | .echo text => writingMeaning lineBreak [text]
  | .passthrough => copyingMeaning lineBreak
  | .reverse => transformingMeaning reverseLine lineBreak
  | .grep inverted automata => transformingMeaning (keepLine inverted automata) lineBreak
  | .tee path append => teeingMeaning path append lineBreak

/-- What comes of a stage from its start on is what it makes of its whole input. -/
theorem yield_start (t : TextStage) (lineBreak input : List Char) :
    (t.meaning lineBreak).yield t.body.start input = t.yield lineBreak input := by
  cases t with
  | passthrough | tee path append => rfl
  | echo text =>
      show endingYield lineBreak (some { actions := [.writeLine text] }) input = _
      simp [endingYield, yield, OutputAction.chars]
  | reverse =>
      show byLineYield reverseLine lineBreak .read input = _
      simp [byLineYield, yield, textOfLines, reverseLine]
  | grep inverted automata =>
      show byLineYield (keepLine inverted automata) lineBreak .read input = _
      simp only [byLineYield, yield, textOfLines]
      congr 1
      induction readLines [] input with
      | nil => rfl
      | cons line lines ih =>
          rw [List.flatMap_cons, ih, List.filter_cons, keepLine]
          split <;> simp

end TextStage

end CommandShell.Builtin
