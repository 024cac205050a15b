import CommandShell.Proofs.Link.Basic

/-!
A link between a stage that writes and a stage that reads, with the books of what has gone over it.
The two stages take their steps in any order.  Main statement: what has been taken followed by what
is queued is what has been pushed, and a reader that has come to the end has received all that was
written.
-/

namespace CommandShell

namespace Reading

/-- The text that a read has gathered. -/
def held : Reading → List Char
  | .character => []
  | .chunk text | .line text | .all text _ => text.toList

theorem held_start (e : Extent) : (start e).held = [] := by
  cases e <;> rfl

theorem held_of_feed_more {r r' : Reading} {c : Char} (hraw : ∀ text, r ≠ .line text)
    (h : r.feed (some c) = .more r') : r'.held = r.held ++ [c] ∧ ∀ text, r' ≠ .line text := by
  cases r with
  | character => cases h
  | chunk text | all text eager => cases h; simp [held]
  | line text => exact absurd rfl (hraw text)

theorem feed_none_more {r r' : Reading} (h : r.feed none = .more r') :
    r'.held = r.held ∧ r.isEager = true ∧ ∀ text, r' ≠ .line text := by
  cases r with
  | character | chunk text | line text => cases h
  | all text eager =>
      cases eager with
      | false => cases h
      | true => cases h; simp [held, isEager]

theorem held_of_more {r r' : Reading} {c : Option Char} (hraw : ∀ text, r ≠ .line text) (h : r.feed c = .more r') :
    r'.held = r.held ++ c.toList ∧ ∀ text, r' ≠ .line text := by
  cases c with
  | none =>
      obtain ⟨hheld, -, hline⟩ := feed_none_more h
      exact ⟨by simp [hheld], hline⟩
  | some c => exact held_of_feed_more hraw h

theorem held_of_feed_done {r : Reading} {c : Option Char} {answer : Option String}
    (hraw : ∀ text, r ≠ .line text) (h : r.feed c = .done answer) :
    (answer.getD "").toList = r.held ++ c.toList := by
  cases r with
  | character => cases c <;> cases h <;> simp [held, Char.toString]
  | chunk text =>
      cases c with
      | some c => cases h
      | none =>
          cases h
          by_cases ht : text = "" <;> simp [held, ht]
  | line text => exact absurd rfl (hraw text)
  | all text eager =>
      cases c with
      | some c => cases h
      | none => cases eager <;> cases h; simp [held]

/-- Only a read that waits can answer that there is nothing, and `all` answers only then. -/
theorem isEager_of_feed_done {r : Reading} {answer : Option String} (hraw : ∀ text, r ≠ .line text)
    (h : r.feed none = .done answer) (hend : answer = none ∨ ∃ text eager, r = .all text eager) :
    r.isEager = false := by
  cases r with
  | character => rfl
  | chunk text =>
      rcases hend with rfl | ⟨_, _, hr⟩
      · by_cases ht : text = ""
        · simp [isEager, ht]
        · simp [feed, ht] at h
      · cases hr
  | line text => exact absurd rfl (hraw text)
  | all text eager => cases eager <;> cases h; rfl

end Reading

/-- A link in use.  `pushed` and `taken` are the characters that have gone into and come out of its
queue, `written` all texts that the writer has begun to write, and `received` what the reader has
got as answers. -/
structure Traffic where
  link : Link
  /-- What is left of the text being written. -/
  rest : List Char := []
  /-- The read under way. -/
  reading : Option Reading := none
  written : List Char := []
  pushed : List Char := []
  taken : List Char := []
  received : List Char := []

namespace Traffic

/-- Nothing has gone over a new link. -/
def fresh (capacity : Nat) : Traffic := { link := .new capacity }

def tryRead (s : Traffic) : Option Char × Traffic :=
  match s.link.tryRead with
  | (c, link) => (c, { s with link, taken := s.taken ++ c.toList })

def readChar (s : Traffic) : Take Char Traffic :=
  match s.link.readChar false with
  | .got c link => .got c { s with link, taken := s.taken ++ [c] }
  | .ended link => .ended { s with link }
  | .blocked link => .blocked { s with link }

/-- One step of either stage.  The writer ends its side after its last text, and may be held up
before any character of a text; a read may be held up before any character too. -/
inductive Move : Traffic → Traffic → Prop
  | write (s) (text : String) (hrest : s.rest = []) (hopen : s.link.writerDone = false) :
      Move s { s with rest := text.toList, written := s.written ++ text.toList }
  | push (s) (c : Char) (rest : List Char) (link : Link) (hrest : s.rest = c :: rest)
      (hpush : s.link.push false c = .pushed link) :
      Move s { s with link, rest, pushed := s.pushed ++ [c] }
  | close (s) (hrest : s.rest = []) : Move s { s with link := s.link.endWriting }
  | tryRead (s t) (c : Option Char) (hidle : s.reading = none) (htry : s.tryRead = (c, t)) :
      Move s { t with received := t.received ++ c.toList }
  | read (s) (extent : Extent) (hidle : s.reading = none) (hraw : extent ≠ .line) :
      Move s { s with reading := some (.start extent) }
  | readOn (s t) (r r' : Reading) (hread : s.reading = some r)
      (hstep : r.step Traffic.tryRead readChar s = (some (.more r'), t)) :
      Move s { t with reading := some r' }
  | answer (s t) (r : Reading) (text : Option String) (hread : s.reading = some r)
      (hstep : r.step Traffic.tryRead readChar s = (some (.done text), t)) :
      Move s { t with reading := none, received := t.received ++ (text.getD "").toList }

/-- What can come of a new link of the given capacity. -/
inductive Reach (capacity : Nat) : Traffic → Prop
  | fresh : Reach capacity (fresh capacity)
  | move {s t} (hs : Reach capacity s) (hm : Move s t) : Reach capacity t

/-- The text that the read under way has gathered. -/
def underway (s : Traffic) : List Char := (s.reading.map Reading.held).getD []

/-- The books balance. -/
structure Balanced (s : Traffic) : Prop where
  queue : s.taken ++ s.link.queue.toList = s.pushed
  rest : s.pushed ++ s.rest = s.written
  received : s.received ++ s.underway = s.taken
  open_ : s.link.readerDone = false
  closed : s.link.writerDone = true → s.rest = []
  raw : ∀ text, s.reading ≠ some (.line text)

variable {s t : Traffic} {capacity : Nat}

theorem balanced_fresh (capacity : Nat) : Balanced (fresh capacity) :=
  ⟨rfl, rfl, rfl, rfl, fun _ => rfl, nofun⟩

/-- A character that is taken leaves the queue at its front. -/
theorem taken_of_tryRead {c : Option Char} (h : s.tryRead = (c, t)) :
    ∃ q, s.link.queue.toList = c.toList ++ q.toList ∧
      t = { s with link := { s.link with queue := q }, taken := s.taken ++ c.toList } := by
  rw [tryRead] at h
  rcases htry : s.link.tryRead with ⟨x, link⟩
  rw [htry] at h
  cases h
  cases c with
  | none =>
      obtain ⟨rfl, hempty⟩ := Link.tryRead_eq_none htry
      exact ⟨s.link.queue, by simp [hempty], by simp⟩
  | some c =>
      obtain ⟨q, rfl, hq⟩ := Link.tryRead_eq_some htry
      exact ⟨q, by simp [hq], rfl⟩

theorem tryRead_of_readChar_got {c : Char} (h : s.readChar = .got c t) : s.tryRead = (some c, t) := by
  rw [readChar] at h
  split at h <;> cases h
  next hgot => simp [tryRead, (Link.readChar_eq_got hgot).2]

theorem drained_of_readChar_ended (h : s.readChar = .ended t) :
    t = s ∧ s.link.queue.toList = [] ∧ s.link.writerDone = true := by
  rw [readChar] at h
  split at h <;> cases h
  next hended =>
    obtain ⟨rfl, hc | ⟨hempty, hdone⟩⟩ := Link.readChar_eq_ended hended
    · cases hc
    · exact ⟨rfl, hempty, hdone⟩

/-- What a step of a read is fed comes out of the queue; nothing is fed to a read that waits only at
the end. -/
theorem fed_of_step {r : Reading} {next : Reading.Next}
    (h : r.step Traffic.tryRead readChar s = (some next, t)) :
    ∃ c, next = r.feed c ∧ s.tryRead = (c, t) ∧
      (r.isEager = false → c = none → s.link.queue.toList = [] ∧ s.link.writerDone = true) := by
  obtain ⟨fed, hfed, hnext⟩ := Reading.fed_of_step h
  cases hfed with
  | tried c t heager htry => exact ⟨c, by simpa using hnext, htry, by simp [heager]⟩
  | got c t hwait hgot =>
      exact ⟨some c, by simpa using hnext, tryRead_of_readChar_got hgot, by simp⟩
  | ended t hwait hended =>
      obtain ⟨rfl, hempty, hdone⟩ := drained_of_readChar_ended hended
      refine ⟨none, by simpa using hnext, ?_, fun _ _ => ⟨hempty, hdone⟩⟩
      have hpop := Queue.pop?_eq_none_iff.2 hempty
      simp [tryRead, Link.tryRead, hpop]
  | blocked t hwait hblocked => simp at hnext

/-- What is taken goes to the reader, as an answer or into the text that a read gathers. -/
theorem balanced_tryRead {c : Option Char} {reading : Option Reading} {received : List Char}
    (hb : Balanced s) (htry : s.tryRead = (c, t))
    (hreceived : received ++ (reading.map Reading.held).getD [] = t.received ++ s.underway ++ c.toList)
    (hraw : ∀ text, reading ≠ some (.line text)) : Balanced { t with reading, received } := by
  obtain ⟨q, hq, rfl⟩ := taken_of_tryRead htry
  have hqueue := hb.queue
  rw [hq] at hqueue
  refine { hb with queue := ?_, received := ?_, raw := hraw }
  · simpa using hqueue
  · rwa [hb.received] at hreceived

theorem balanced_move (hb : Balanced s) (hm : Move s t) : Balanced t := by
  have hraw : ∀ r, s.reading = some r → ∀ text, r ≠ .line text := by
    rintro r hr text rfl
    exact hb.raw text hr
  cases hm with
  | write text hrest hopen =>
      have hwritten := hb.rest
      rw [hrest, List.append_nil] at hwritten
      refine { hb with rest := ?_, closed := ?_ }
      · rw [hwritten]
      · simp [hopen]
  | push c rest link hrest hpush =>
      obtain ⟨-, hreader, -, rfl⟩ := Link.push_eq_pushed_iff.1 hpush
      refine { hb with queue := ?_, rest := ?_, closed := ?_ }
      · simp [← hb.queue]
      · simp [← hb.rest, hrest]
      · intro hdone
        simp [hb.closed hdone] at hrest
  | close hrest => exact { hb with closed := fun _ => hrest }
  | tryRead t c hidle htry =>
      obtain ⟨q, -, ht⟩ := taken_of_tryRead htry
      have hreading : t.reading = none := by rw [ht, ← hidle]
      refine balanced_tryRead hb htry ?_ ?_
      · simp [underway, hreading, hidle]
      · simp [hreading]
  | read extent hidle hextent =>
      refine { hb with received := ?_, raw := ?_ }
      · simpa [underway, hidle, Reading.held_start] using hb.received
      · cases extent with
        | character | chunk | all => simp [Reading.start]
        | line => exact absurd rfl hextent
  | readOn t r r' hread hstep =>
      obtain ⟨c, hnext, htry, -⟩ := fed_of_step hstep
      obtain ⟨hheld, hline⟩ := Reading.held_of_more (hraw r hread) hnext.symm
      refine balanced_tryRead hb htry ?_ ?_
      · simp [underway, hread, hheld]
      · simpa using hline
  | answer t r text hread hstep =>
      obtain ⟨c, hnext, htry, -⟩ := fed_of_step hstep
      have hheld := Reading.held_of_feed_done (hraw r hread) hnext.symm
      refine balanced_tryRead hb htry ?_ (by simp)
      simp [underway, hread, hheld]

theorem balanced_of_reach (h : Reach capacity s) : Balanced s := by
  induction h with
  | fresh => exact balanced_fresh capacity
  | move _ hm ih => exact balanced_move ih hm

/-- Nothing is lost, doubled or reordered on a link that is neither cancelled, flushed nor closed by
its reader.  A reader that is told of the end, by a read that gives nothing or by one of all there
is, has received all that was written by then; and one that reads all of a link that its writer has
ended is not held up. -/
theorem pushed_eq_taken_append_queue (h : Reach capacity s) :
    s.taken ++ s.link.queue.toList = s.pushed ∧ s.pushed <+: s.written ∧
      (∀ r text t, s.reading = some r → r.step Traffic.tryRead readChar s = (some (.done text), t) →
        (text = none ∨ ∃ gathered eager, r = .all gathered eager) →
        s.received ++ (text.getD "").toList = s.written) ∧
      (s.link.writerDone = true → s.reading = none →
        ∃ text link, s.link.read false .all = some (some text, link) ∧
          s.received ++ text.toList = s.written) := by
  have hb := balanced_of_reach h
  refine ⟨hb.queue, ⟨s.rest, hb.rest⟩, ?_, ?_⟩
  · intro r text t hread hstep hend
    obtain ⟨c, hnext, -, hdrained⟩ := fed_of_step hstep
    have hraw : ∀ text, r ≠ .line text := by
      rintro text rfl
      exact hb.raw text hread
    have hheld := Reading.held_of_feed_done hraw hnext.symm
    cases c with
    | some c =>
        rcases hend with rfl | ⟨gathered, eager, rfl⟩
        · simp at hheld
        · cases hnext
    | none =>
        have hwait := Reading.isEager_of_feed_done hraw hnext.symm hend
        obtain ⟨hempty, hdone⟩ := hdrained hwait rfl
        have hr := hb.received
        have hq := hb.queue
        simp only [underway, hread, Option.map_some, Option.getD_some] at hr
        rw [hheld, ← hb.rest, ← hq, hempty, hb.closed hdone]
        simpa using hr
  · intro hdone hidle
    obtain ⟨link, hlink⟩ := Link.read_all hdone
    have hr := hb.received
    simp only [underway, hidle, Option.map_none, Option.getD_none, List.append_nil] at hr
    exact ⟨_, link, hlink, by simp [hr, hb.queue, ← hb.rest, hb.closed hdone]⟩

/-- Two characters over a link that holds one: the second is pushed after the first has been taken. -/
theorem pushed_eq_taken_append_queue_of_one : ∃ s : Traffic, Reach 1 s ∧ s.written = ['a', 'b'] ∧
    s.taken ++ s.link.queue.toList = s.pushed ∧ s.pushed <+: s.written ∧
      s.received ++ ['a', 'b'] = s.written := by
  have h := (Reach.fresh.move (.write (fresh 1) "ab" rfl rfl)).move (.read _ .all rfl nofun)
  have h := h.move (.push _ 'a' ['b'] _ rfl rfl)
  have h := h.move (.readOn _ _ _ _ rfl rfl)
  have h := h.move (.push _ 'b' [] _ rfl rfl)
  have h := h.move (.close _ rfl)
  have h := h.move (.readOn _ _ _ _ rfl rfl)
  have h := h.move (.readOn _ _ _ _ rfl rfl)
  obtain ⟨hqueue, hprefix, hend, -⟩ := pushed_eq_taken_append_queue h
  exact ⟨_, h, rfl, hqueue, hprefix, hend _ _ _ rfl rfl (.inr ⟨_, _, rfl⟩)⟩

end Traffic

end CommandShell
