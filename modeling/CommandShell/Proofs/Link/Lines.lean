import CommandShell.Chain.Ends
import CommandShell.Proofs.Builtin.Copying
import CommandShell.Proofs.Link.Basic
import CommandShell.Text.Pieces

/-!
Lines that are read one after another until there is none.  Main statement: from a text, whether it is a file's
or comes over a link bit by bit, they are the parts of the text between its line feeds without the carriage
returns, where a last part counts unless it is empty; over a link the reader always comes to that end.
-/

namespace CommandShell

open Builtin

namespace Text

/-- The parts without a last one that is empty. -/
def dropEmptyLast (parts : List (List Char)) : List (List Char) :=
  if parts.getLast? = some [] then parts.dropLast else parts

/-- What is between the line feeds of a text, without carriage returns and without an empty last part. -/
def lineTexts (s : String) : List String :=
  (dropEmptyLast (pieces (· == '\n') (s.toList.filter (· != '\r')))).map String.ofList

theorem dropEmptyLast_cons (p : List Char) {ps : List (List Char)} (hps : ps ≠ []) :
    dropEmptyLast (p :: ps) = p :: dropEmptyLast ps := by
  obtain ⟨q, qs, rfl⟩ := List.exists_cons_of_ne_nil hps
  simp only [dropEmptyLast, List.getLast?_cons_cons, List.dropLast_cons_cons]
  split <;> rfl

/-- With characters before the first part. -/
def extendFirst (line : List Char) : List (List Char) → List (List Char)
  | [] => [line]
  | p :: ps => (line ++ p) :: ps

/-- Lines as they are read are parts of the text; what has been read of the first one goes before its part. -/
theorem readLines_eq (line cs : List Char) : readLines line cs =
    dropEmptyLast (extendFirst line (pieces (· == '\n') (cs.filter (· != '\r')))) := by
  induction cs generalizing line with
  | nil => by_cases hline : line = [] <;> simp [readLines, pieces, extendFirst, dropEmptyLast, hline]
  | cons c cs ih =>
      obtain ⟨p, ps, hps⟩ := List.exists_cons_of_ne_nil (pieces_ne_nil (· == '\n') (cs.filter (· != '\r')))
      rw [readLines, ih, ih, ih, hps]
      by_cases hfeed : c = '\n'
      · subst hfeed
        simp [pieces, hps, extendFirst, dropEmptyLast_cons]
      · by_cases hreturn : c = '\r'
        · simp [hreturn, hps]
        · simp [hfeed, hreturn, pieces, hps, consHead, extendFirst]

theorem map_toList_lineTexts (s : String) : (lineTexts s).map String.toList = readLines [] s.toList := by
  rw [readLines_eq, lineTexts]
  obtain ⟨p, ps, hps⟩ := List.exists_cons_of_ne_nil (pieces_ne_nil (· == '\n') (s.toList.filter (· != '\r')))
  simp [hps, extendFirst, Function.comp_def]

theorem eq_lineTexts {lines : List String} {s : String} (h : lines.map String.toList = readLines [] s.toList) :
    lines = lineTexts s :=
  (List.map_inj_right fun _ _ => String.toList_inj.1).1 (h.trans (map_toList_lineTexts s).symm)

end Text

open Text

namespace Reading

/-- A character makes a line longer at most, or ends it. -/
theorem feed_line (text : String) (c : Char) (cs : List Char) :
    (∃ text', (Reading.line text).feed (some c) = .more (.line text') ∧
      readLines text.toList (c :: cs) = readLines text'.toList cs) ∨
    ((Reading.line text).feed (some c) = .done (some text) ∧
      readLines text.toList (c :: cs) = text.toList :: readLines [] cs) := by
  by_cases hfeed : c = '\n'
  · exact .inr ⟨by simp [feed, hfeed], by simp [readLines, hfeed]⟩
  · by_cases hreturn : c = '\r'
    · exact .inl ⟨text, by simp [feed, hreturn], by simp [readLines, hreturn]⟩
    · exact .inl ⟨text.push c, by simp [feed, hfeed, hreturn], by simp [readLines, hfeed, hreturn]⟩

theorem readLines_end (text : String) :
    readLines text.toList [] = ((if text.isEmpty then none else some text).toList).map String.toList := by
  by_cases htext : text = "" <;> simp [readLines, htext]

end Reading

namespace Ends

/-- Lines that are read one after another until there is none. -/
inductive ReadsLines (fuel : Nat) : Ends → List String → Ends → Prop
  | last {e f} (h : e.read fuel .line = some (none, f)) : ReadsLines fuel e [] f
  | line {e f g text texts} (h : e.read fuel .line = some (some text, f)) (hrest : ReadsLines fuel f texts g) :
      ReadsLines fuel e (text :: texts) g

variable {e f g : Ends} {fuel : Nat} {rest : List Char}

theorem ReadsLines.eq {texts others : List String} (h : ReadsLines fuel e texts f)
    (h' : ReadsLines fuel e others g) : others = texts ∧ g = f := by
  induction h generalizing others with
  | last h =>
      cases h' with
      | last h' => cases h.symm.trans h'; exact ⟨rfl, rfl⟩
      | line h' => cases h.symm.trans h'
  | line h _ ih =>
      cases h' with
      | last h' => cases h.symm.trans h'
      | line h' hrest' =>
          cases h.symm.trans h'
          obtain ⟨rfl, rfl⟩ := ih hrest'
          exact ⟨rfl, rfl⟩

variable {rest : List Char} (hinput : e.input = .redirected rest) (hlive : e.isCancelled = false)
include hinput hlive

/-- A text is not waited for. -/
theorem step_of_redirected {r : Reading} (hwait : r.isEager = false) (fuel : Nat) :
    r.step tryRead (await readChar (fuel + 1)) e = match rest with
      | [] => (some (r.feed none), e)
      | c :: rest => (some (r.feed (some c)), { e with input := .redirected rest }) := by
  have hsame : { e with input := .redirected rest } = e := by rw [← hinput]
  cases rest with
  | nil => simp [Reading.step, hwait, await, readChar, hinput, Redirected.readChar, hlive, Redirected.tryRead, hsame]
  | cons c rest => simp [Reading.step, hwait, await, readChar, hinput, Redirected.readChar, hlive, Redirected.tryRead]

/-- What a read answers that has come to `text` in its line: that line, if there is one, with which the lines of
what is left begin. -/
theorem run_line_of_redirected (hfuel : rest.length < fuel) (waits : Nat) (text : String) :
    ∃ answer rest', Reading.run tryRead (await readChar (waits + 1)) fuel (.line text) e =
        some (answer, { e with input := .redirected rest' }) ∧ rest'.length ≤ rest.length ∧
      readLines text.toList rest =
        answer.toList.map String.toList ++ if answer.isSome then readLines [] rest' else [] := by
  induction rest generalizing e fuel text with
  | nil =>
      obtain ⟨fuel, rfl⟩ : ∃ n, fuel = n + 1 := ⟨fuel - 1, by omega⟩
      have hsame : { e with input := .redirected [] } = e := by rw [← hinput]
      refine ⟨if text.isEmpty then none else some text, [], ?_, Nat.le_refl _, ?_⟩
      · rw [Reading.run, step_of_redirected hinput hlive rfl, hsame]
        rfl
      · rw [Reading.readLines_end]
        cases text.isEmpty <;> simp [readLines]
  | cons c rest ih =>
      obtain ⟨fuel, rfl⟩ : ∃ n, fuel = n + 1 := ⟨fuel - 1, by omega⟩
      have hrest : rest.length < fuel := by simpa using hfuel
      rw [Reading.run, step_of_redirected hinput hlive rfl]
      rcases Reading.feed_line text c rest with ⟨text', hfeed, hlines⟩ | ⟨hfeed, hlines⟩
      · obtain ⟨answer, rest', hrun, hlength, hanswer⟩ :=
          ih (e := { e with input := .redirected rest }) rfl hlive hrest text'
        refine ⟨answer, rest', ?_, by simp; omega, hlines.trans hanswer⟩
        simp only [hfeed]
        exact hrun
      · exact ⟨some text, rest, by simp only [hfeed], by simp, hlines⟩

theorem exists_readsLines (hfuel : rest.length < fuel) :
    ∃ texts f, ReadsLines fuel e texts f ∧ texts.map String.toList = readLines [] rest := by
  obtain ⟨waits, rfl⟩ : ∃ n, fuel = n + 1 := ⟨fuel - 1, by omega⟩
  induction hlines : readLines [] rest generalizing e rest with
  | nil =>
      obtain ⟨answer, rest', hrun, -, hanswer⟩ := run_line_of_redirected hinput hlive hfuel waits ""
      obtain rfl : answer = none := by
        cases answer with
        | none => rfl
        | some line => simp [hlines] at hanswer
      exact ⟨[], _, .last hrun, rfl⟩
  | cons line lines ih =>
      obtain ⟨answer, rest', hrun, hlength, hanswer⟩ := run_line_of_redirected hinput hlive hfuel waits ""
      cases answer with
      | none => simp [hlines] at hanswer
      | some text =>
          obtain ⟨rfl, rfl⟩ : line = text.toList ∧ lines = readLines [] rest' := by simpa [hlines] using hanswer
          obtain ⟨texts, f, hreads, htexts⟩ :=
            ih (e := { e with input := .redirected rest' }) rfl hlive (by omega) rfl
          exact ⟨text :: texts, f, .line hrun hreads, by simp [htexts]⟩

end Ends

/-- A link over which lines are read while texts are written to it. -/
structure LineTraffic where
  link : Link
  /-- The texts that the writer has not begun to write. -/
  unwritten : List String
  /-- What is left of the text being written. -/
  rest : List Char := []
  /-- What the reader has come to in the line under way. -/
  gathered : String := ""
  lines : List String := []
  /-- Whether the reader has been told that there are no more lines. -/
  ended : Bool := false

namespace LineTraffic

/-- A new link, before the texts are written. -/
def fresh (capacity : Nat) (texts : List String) : LineTraffic := { link := .new capacity, unwritten := texts }

/-- One step of either stage.  The writer ends its side after its last text, and the reader reads lines until
there is none; either may be held up before any character. -/
inductive Move : LineTraffic → LineTraffic → Prop
  | write (s) (text : String) (texts : List String) (hrest : s.rest = []) (htexts : s.unwritten = text :: texts) :
      Move s { s with rest := text.toList, unwritten := texts }
  | push (s) (c : Char) (rest : List Char) (link : Link) (hrest : s.rest = c :: rest)
      (hpush : s.link.push false c = .pushed link) : Move s { s with link, rest }
  | close (s) (hrest : s.rest = []) (htexts : s.unwritten = []) (hopen : s.link.writerDone = false) :
      Move s { s with link := s.link.endWriting }
  | readOn (s) (link : Link) (text : String) (hreads : s.ended = false)
      (hstep : (Reading.line s.gathered).step Link.tryRead (Link.readChar false) s.link =
        (some (.more (.line text)), link)) : Move s { s with link, gathered := text }
  | answer (s) (link : Link) (line : Option String) (hreads : s.ended = false)
      (hstep : (Reading.line s.gathered).step Link.tryRead (Link.readChar false) s.link =
        (some (.done line), link)) :
      Move s { s with link, gathered := "", lines := s.lines ++ line.toList, ended := line.isNone }

/-- What can come of a new link. -/
inductive Reach (capacity : Nat) (texts : List String) : LineTraffic → Prop
  | fresh : Reach capacity texts (fresh capacity texts)
  | move {s t} (hs : Reach capacity texts s) (hm : Move s t) : Reach capacity texts t

/-- What has not been read. -/
def ahead (s : LineTraffic) : List Char := s.link.queue.toList ++ s.rest ++ (String.join s.unwritten).toList

/-- The lines that have been read and those that are to come are those of the text. -/
structure Sound (text : String) (s : LineTraffic) : Prop where
  lines : s.lines.map String.toList ++ (if s.ended then [] else readLines s.gathered.toList s.ahead) =
    readLines [] text.toList
  capacity : 0 < s.link.capacity
  open_ : s.link.readerDone = false
  closed : s.link.writerDone = true → s.rest = [] ∧ s.unwritten = []

variable {s t : LineTraffic} {capacity : Nat} {texts : List String} {text : String}

theorem sound_fresh (capacity : Nat) (texts : List String) : Sound (String.join texts) (fresh capacity texts) :=
  ⟨rfl, Nat.lt_of_lt_of_le Nat.zero_lt_one (Nat.le_max_right capacity 1), rfl, nofun⟩

theorem ahead_eq_cons {c : Char} {q : Queue Char} (hq : s.link.queue.toList = c :: q.toList) :
    s.ahead = c :: (q.toList ++ s.rest ++ (String.join s.unwritten).toList) := by
  simp [ahead, hq]

/-- What a step of the reader comes to: it takes a character, or finds the end. -/
theorem step_line {next : Reading.Next} {link : Link}
    (hstep : (Reading.line s.gathered).step Link.tryRead (Link.readChar false) s.link = (some next, link)) :
    (∃ c q, next = (Reading.line s.gathered).feed (some c) ∧ link = { s.link with queue := q } ∧
      s.link.queue.toList = c :: q.toList) ∨
    (next = (Reading.line s.gathered).feed none ∧ link = s.link ∧ s.link.queue.toList = [] ∧
      s.link.writerDone = true) := by
  obtain ⟨fed, hfed, hnext⟩ := Reading.fed_of_step hstep
  cases hfed with
  | tried c t heager htry => cases heager
  | got c t hwait hgot =>
      obtain ⟨q, rfl, hq⟩ := Link.tryRead_eq_some (Link.readChar_eq_got hgot).2
      exact .inl ⟨c, q, by simpa using hnext, rfl, hq⟩
  | ended t hwait hended =>
      obtain ⟨rfl, hcancelled | ⟨hempty, hdone⟩⟩ := Link.readChar_eq_ended hended
      · cases hcancelled
      · exact .inr ⟨by simpa using hnext, rfl, hempty, hdone⟩
  | blocked t hwait hblocked => simp at hnext

theorem sound_move (hs : Sound text s) (hm : Move s t) : Sound text t := by
  cases hm with
  | write next texts hrest htexts =>
      refine { hs with lines := ?_, closed := fun hdone => ?_ }
      · simpa [ahead, hrest, htexts] using hs.lines
      · simp [hs.closed hdone] at htexts
  | push c rest link hrest hpush =>
      obtain ⟨-, hreader, -, rfl⟩ := Link.push_eq_pushed_iff.1 hpush
      refine { hs with lines := ?_, closed := fun hdone => ?_ }
      · simpa [ahead, hrest] using hs.lines
      · simp [hs.closed hdone] at hrest
  | close hrest htexts hopen => exact { hs with closed := fun _ => ⟨hrest, htexts⟩ }
  | readOn link gathered hreads hstep =>
      have hlines := hs.lines
      obtain ⟨c, q, hnext, rfl, hq⟩ | ⟨hnext, -⟩ := step_line hstep
      · -- the character that leaves the queue goes into the line, or is dropped from it
        rw [ahead_eq_cons hq] at hlines
        rcases Reading.feed_line s.gathered c (q.toList ++ s.rest ++ (String.join s.unwritten).toList) with
          ⟨longer, hfeed, hsame⟩ | ⟨hfeed, -⟩
        · cases hnext.trans hfeed
          rw [hsame] at hlines
          exact { hs with lines := hlines }
        · cases hnext.trans hfeed
      · cases hnext
  | answer link line hreads hstep =>
      have hlines := hs.lines
      obtain ⟨c, q, hnext, rfl, hq⟩ | ⟨hnext, rfl, hempty, hdone⟩ := step_line hstep
      · rw [ahead_eq_cons hq, hreads] at hlines
        rcases Reading.feed_line s.gathered c (q.toList ++ s.rest ++ (String.join s.unwritten).toList) with
          ⟨longer, hfeed, -⟩ | ⟨hfeed, hsame⟩
        · cases hnext.trans hfeed
        · cases hnext.trans hfeed
          rw [hsame] at hlines
          refine { hs with lines := ?_ }
          rw [List.map_append, List.append_assoc]
          exact hlines
      · cases hnext
        obtain ⟨hrest, hunwritten⟩ := hs.closed hdone
        have hahead : s.ahead = [] := by simp [ahead, hempty, hrest, hunwritten]
        rw [hreads, hahead, Reading.readLines_end] at hlines
        refine { hs with lines := ?_ }
        rw [List.map_append, List.append_assoc, ← hlines]
        congr 1
        -- what is left of the last line is the last one
        change _ ++ (if _ then [] else readLines [] s.ahead) = _
        rw [hahead]
        split <;> simp [readLines]

theorem sound_of_reach (h : Reach capacity texts s) : Sound (String.join texts) s := by
  induction h with
  | fresh => exact sound_fresh capacity texts
  | move _ hm ih => exact sound_move ih hm

/-- As long as the reader has not come to the end, one of the two stages can go on. -/
theorem exists_move (hs : Sound text s) (hreads : s.ended = false) : ∃ t, Move s t := by
  rcases hstep : (Reading.line s.gathered).step Link.tryRead (Link.readChar false) s.link with
    ⟨_ | (next | line), link⟩
  · -- the queue is empty, so the writer is not held up
    obtain ⟨fed, hfed, hnext⟩ := Reading.fed_of_step hstep
    obtain ⟨-, -, hempty, hopen⟩ : link = s.link ∧ false = false ∧ s.link.queue.toList = [] ∧
        s.link.writerDone = false := by
      cases hfed with
      | blocked t hwait hblocked => exact Link.readChar_eq_blocked hblocked
      | tried | got | ended => cases hnext
    match hrest : s.rest, htexts : s.unwritten with
    | c :: rest, _ =>
        have hroom : s.link.queue.size < s.link.capacity := by
          rw [Queue.size_eq_length, hempty]
          exact hs.capacity
        exact ⟨_, .push s c rest _ hrest (Link.push_eq_pushed_iff.2 ⟨rfl, hs.open_, hroom, rfl⟩)⟩
    | [], text :: texts => exact ⟨_, .write s text texts hrest htexts⟩
    | [], [] => exact ⟨_, .close s hrest htexts hopen⟩
  · obtain ⟨c, q, hnext, -⟩ | ⟨hnext, -⟩ := step_line hstep
    · rcases Reading.feed_line s.gathered c [] with ⟨longer, hfeed, -⟩ | ⟨hfeed, -⟩
      · cases hnext.trans hfeed
        exact ⟨_, .readOn s link longer hreads hstep⟩
      · cases hnext.trans hfeed
    · cases hnext
  · exact ⟨_, .answer s link line hreads hstep⟩

/-- What is still to be done, where a character counts for its push and for its reading. -/
def work (s : LineTraffic) : Nat :=
  s.unwritten.length + 3 * (String.join s.unwritten).length + 3 * s.rest.length + 2 * s.link.queue.toList.length +
    min 1 s.gathered.length + (if s.link.writerDone then 0 else 1) + if s.ended then 0 else 1

theorem work_move (hm : Move s t) : t.work < s.work := by
  cases hm with
  | write text texts hrest htexts =>
      simp only [work, hrest, htexts, String.join_cons, String.length_append, String.length_toList, List.length_cons,
        List.length_nil]
      omega
  | push c rest link hrest hpush =>
      obtain ⟨-, -, -, rfl⟩ := Link.push_eq_pushed_iff.1 hpush
      simp only [work, hrest, Queue.toList_push, List.length_append, List.length_cons, List.length_nil]
      omega
  | close hrest htexts hopen =>
      simp only [work, Link.endWriting, hopen]
      simp
  | readOn link text hreads hstep =>
      obtain ⟨c, q, -, rfl, hq⟩ | ⟨hnext, -⟩ := step_line hstep
      · simp only [work, hq, List.length_cons]
        omega
      · cases hnext
  | answer link line hreads hstep =>
      obtain ⟨c, q, hnext, rfl, hq⟩ | ⟨hnext, rfl, -⟩ := step_line hstep
      · have hended : (if line.isNone then 0 else 1) ≤ 1 := by split <;> simp
        simp only [work, hq, hreads, List.length_cons, String.length_empty, Bool.false_eq_true, if_false]
        omega
      · cases hnext
        simp only [work, hreads, String.length_empty, Bool.false_eq_true, if_false]
        by_cases hgathered : s.gathered = ""
        · simp [hgathered]
        · have hlength : 0 < s.gathered.length := by simpa [Nat.pos_iff_ne_zero] using hgathered
          simp [hgathered]
          omega

/-- No run of the two stages goes on for ever. -/
theorem wellFounded_move : WellFounded fun t s => Move s t :=
  Subrelation.wf (fun hm => work_move hm) (InvImage.wf work Nat.lt_wfRel.wf)

end LineTraffic

/-- The lines of a text that has been redirected, and those of a text that is written to a link in any pieces
while they are read, are the parts between its line feeds; from a link they have all been read when the reader is
told so, which it is in the end. -/
theorem lines_read (text : String) :
    (∀ (e : Ends) (fuel : Nat), e.input = .redirected text.toList → e.isCancelled = false → text.length < fuel →
      ∃ f, ∀ texts g, Ends.ReadsLines fuel e texts g ↔ texts = lineTexts text ∧ g = f) ∧
    ∀ (capacity : Nat) (texts : List String) (s : LineTraffic), String.join texts = text →
      LineTraffic.Reach capacity texts s →
      s.lines <+: lineTexts text ∧ (s.ended = true → s.lines = lineTexts text) ∧
        (s.ended = false → ∃ t, LineTraffic.Move s t) ∧ Acc (fun u t => LineTraffic.Move t u) s := by
  constructor
  · intro e fuel hinput hlive hfuel
    obtain ⟨texts, f, hreads, htexts⟩ := Ends.exists_readsLines hinput hlive (by rwa [String.length_toList])
    refine ⟨f, fun others g => ⟨fun hothers => ?_, ?_⟩⟩
    · obtain ⟨rfl, rfl⟩ := hreads.eq hothers
      exact ⟨eq_lineTexts htexts, rfl⟩
    · rintro ⟨rfl, rfl⟩
      rwa [← eq_lineTexts htexts]
  · rintro capacity texts s rfl h
    have hs := LineTraffic.sound_of_reach h
    have hlines := hs.lines
    rw [← map_toList_lineTexts] at hlines
    have hsame : ∀ {lines : List String}, lines.map String.toList = s.lines.map String.toList → lines = s.lines :=
      (List.map_inj_right fun _ _ => String.toList_inj.1).1
    refine ⟨?_, fun hended => ?_, LineTraffic.exists_move hs, LineTraffic.wellFounded_move.apply s⟩
    · obtain ⟨lines, others, heq, hfirst, -⟩ := List.map_eq_append_iff.1 hlines.symm
      exact ⟨others, by rw [heq, hsame hfirst]⟩
    · rw [if_pos hended, List.append_nil] at hlines
      exact (hsame hlines.symm).symm

/-- A text with a line break that is cut in two, a blank line and a last line that is not ended, from a file and over
a link that holds one character. -/
theorem lines_read_of_blank_line :
    let text := "a\r\n\nb"
    let e : Ends := ⟨.detached ⟨.empty, ""⟩ none {}, 0, 20, true, ⟨[], none⟩, .redirected text.toList, .new .null {}⟩
    lineTexts text = ["a", "", "b"] ∧ (∃ f, Ends.ReadsLines 8 e ["a", "", "b"] f) ∧
      ∃ s, LineTraffic.Reach 1 ["a\r", "\n\nb"] s ∧ s.ended = true ∧ s.lines = lineTexts text := by
  intro text e
  have htexts : lineTexts text = ["a", "", "b"] := by decide +kernel
  obtain ⟨f, hreads⟩ := (lines_read text).1 e 8 rfl (by decide +kernel) (by decide +kernel)
  have h : LineTraffic.Reach 1 ["a\r", "\n\nb"] _ := .fresh
  have h := (h.move (.write _ "a\r" ["\n\nb"] rfl rfl)).move (.push _ 'a' ['\r'] _ rfl rfl)
  have h := (h.move (.readOn _ _ "a" rfl rfl)).move (.push _ '\r' [] _ rfl rfl)
  have h := (h.move (.readOn _ _ "a" rfl rfl)).move (.write _ "\n\nb" [] rfl rfl)
  have h := (h.move (.push _ '\n' ['\n', 'b'] _ rfl rfl)).move (.answer _ _ (some "a") rfl rfl)
  have h := (h.move (.push _ '\n' ['b'] _ rfl rfl)).move (.answer _ _ (some "") rfl rfl)
  have h := (h.move (.push _ 'b' [] _ rfl rfl)).move (.readOn _ _ "b" rfl rfl)
  have h := (h.move (.close _ rfl rfl rfl)).move (.answer _ _ (some "b") rfl rfl)
  have h := h.move (.answer _ _ none rfl rfl)
  exact ⟨htexts, ⟨f, (hreads _ f).2 ⟨htexts.symm, rfl⟩⟩, _, h, rfl, ((lines_read text).2 1 _ _ rfl h).2.1 rfl⟩

end CommandShell
