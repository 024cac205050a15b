import CommandShell.Reading

/-!
What one operation does to the queue of a link, and what one step of a read takes from its source.
-/

namespace CommandShell

universe u v

/-- What an attempt to take something leaves of its source. -/
def Take.source {α : Type u} {σ : Type v} : Take α σ → σ
  | .got _ s | .ended s | .blocked s => s

/-- What an attempt takes. -/
def Take.item? {α : Type u} {σ : Type v} : Take α σ → Option α
  | .got a _ => some a
  | .ended _ | .blocked _ => none

namespace Link

variable {cancelled : Bool} {l m : Link} {c : Char}

theorem push_eq_pushed_iff : l.push cancelled c = .pushed m ↔
    cancelled = false ∧ l.readerDone = false ∧ l.queue.size < l.capacity ∧
      m = { l with queue := l.queue.push c } := by
  rw [push]
  cases cancelled <;> cases l.readerDone <;> by_cases hfull : l.capacity ≤ l.queue.size
  all_goals simp [hfull, Nat.not_lt.2, Nat.lt_of_not_le, eq_comm]

theorem push_eq_dropped_iff :
    l.push cancelled c = .dropped ↔ l.readerDone = true ∨ cancelled = true := by
  rw [push]
  cases cancelled <;> cases l.readerDone <;> by_cases hfull : l.capacity ≤ l.queue.size
  all_goals simp [hfull]

theorem push_eq_blocked_iff : l.push cancelled c = .blocked ↔
    cancelled = false ∧ l.readerDone = false ∧ l.capacity ≤ l.queue.size := by
  rw [push]
  cases cancelled <;> cases l.readerDone <;> by_cases hfull : l.capacity ≤ l.queue.size
  all_goals simp [hfull]

theorem tryRead_eq_some (h : l.tryRead = (some c, m)) :
    ∃ q, m = { l with queue := q } ∧ l.queue.toList = c :: q.toList := by
  rw [tryRead] at h
  split at h
  · simp at h
  · next hpop =>
      cases h
      exact ⟨_, rfl, Queue.toList_of_pop? hpop⟩

theorem tryRead_eq_none (h : l.tryRead = (none, m)) : m = l ∧ l.queue.toList = [] := by
  rw [tryRead] at h
  split at h
  · next hpop =>
      cases h
      exact ⟨rfl, Queue.pop?_eq_none_iff.1 hpop⟩
  · simp at h

theorem readChar_eq_got (h : l.readChar cancelled = .got c m) :
    cancelled = false ∧ l.tryRead = (some c, m) := by
  rw [readChar] at h
  split at h
  · cases h
  · next hc =>
      split at h
      · next htry =>
          cases h
          exact ⟨by simpa using hc, htry⟩
      · split at h <;> cases h

theorem readChar_eq_ended (h : l.readChar cancelled = .ended m) :
    m = l ∧ (cancelled = true ∨ l.queue.toList = [] ∧ l.writerDone = true) := by
  rw [readChar] at h
  split at h
  · next hc =>
      cases h
      exact ⟨rfl, .inl hc⟩
  · split at h
    · cases h
    · next htry =>
        obtain ⟨rfl, hempty⟩ := tryRead_eq_none htry
        split at h
        · next hdone =>
            cases h
            exact ⟨rfl, .inr ⟨hempty, hdone⟩⟩
        · cases h

theorem readChar_eq_blocked (h : l.readChar cancelled = .blocked m) :
    m = l ∧ cancelled = false ∧ l.queue.toList = [] ∧ l.writerDone = false := by
  rw [readChar] at h
  split at h
  · cases h
  · next hc =>
      split at h
      · cases h
      · next htry =>
          obtain ⟨rfl, hempty⟩ := tryRead_eq_none htry
          split at h
          · cases h
          · next hdone =>
              cases h
              exact ⟨rfl, by simpa using hc, hempty, by simpa using hdone⟩

/-- The second link is the first one at a later time. -/
structure Later (l m : Link) : Prop where
  capacity : m.capacity = l.capacity
  writerDone : l.writerDone = true → m.writerDone = true
  readerDone : l.readerDone = true → m.readerDone = true

theorem Later.refl (l : Link) : l.Later l := ⟨rfl, id, id⟩

theorem Later.trans {k : Link} (h : l.Later m) (h' : m.Later k) : l.Later k :=
  ⟨h'.capacity.trans h.capacity, h'.writerDone ∘ h.writerDone, h'.readerDone ∘ h.readerDone⟩

theorem later_endWriting (l : Link) : l.Later l.endWriting := ⟨rfl, fun _ => rfl, id⟩

theorem later_endReading (l : Link) : l.Later l.endReading := ⟨rfl, id, fun _ => rfl⟩

theorem later_of_pushed (h : l.push cancelled c = .pushed m) : l.Later m := by
  obtain ⟨-, -, -, rfl⟩ := push_eq_pushed_iff.1 h
  exact ⟨rfl, id, id⟩

theorem later_of_tryRead {c : Option Char} (h : l.tryRead = (c, m)) : l.Later m := by
  cases c with
  | none =>
      obtain ⟨rfl, -⟩ := tryRead_eq_none h
      exact .refl m
  | some c =>
      obtain ⟨q, rfl, -⟩ := tryRead_eq_some h
      exact ⟨rfl, id, id⟩

end Link

namespace Reading

variable {σ : Type u} {tryRead : σ → Option Char × σ} {readChar : σ → Take Char σ}

/-- What a read is going to be fed, if anything, and where its source is left. -/
inductive Fed (tryRead : σ → Option Char × σ) (readChar : σ → Take Char σ) (r : Reading) (s : σ) :
    Option (Option Char) → σ → Prop
  | tried (c : Option Char) (t : σ) (heager : r.isEager = true) (h : tryRead s = (c, t)) :
      Fed tryRead readChar r s (some c) t
  | got (c : Char) (t : σ) (hwait : r.isEager = false) (h : readChar s = .got c t) :
      Fed tryRead readChar r s (some (some c)) t
  | ended (t : σ) (hwait : r.isEager = false) (h : readChar s = .ended t) :
      Fed tryRead readChar r s (some none) t
  | blocked (t : σ) (hwait : r.isEager = false) (h : readChar s = .blocked t) :
      Fed tryRead readChar r s none t

theorem fed_of_step {r : Reading} {s t : σ} {next : Option Next}
    (h : r.step tryRead readChar s = (next, t)) :
    ∃ fed, Fed tryRead readChar r s fed t ∧ next = fed.map r.feed := by
  rw [step] at h
  split at h
  · next heager =>
      cases h
      exact ⟨_, .tried _ _ heager rfl, rfl⟩
  · next hwait =>
      have hwait : r.isEager = false := by simpa using hwait
      split at h <;> cases h
      · next hgot => exact ⟨_, .got _ _ hwait hgot, rfl⟩
      · next hended => exact ⟨_, .ended _ hwait hended, rfl⟩
      · next hblocked => exact ⟨_, .blocked _ hwait hblocked, rfl⟩

end Reading

namespace Link

/-- Reading on from a link that is ended comes to the end: one step for each character that is
queued, one to find none, and one to find the end. -/
theorem run_all {l : Link} (hdone : l.writerDone = true) (fuel : Nat) (text : String) (eager : Bool)
    (hfuel : l.queue.toList.length + 2 ≤ fuel) :
    ∃ m, Reading.run tryRead (readChar false) fuel (.all text eager) l =
      some (some (text ++ String.ofList l.queue.toList), m) := by
  induction fuel generalizing l text eager with
  | zero => omega
  | succ fuel ih =>
      rcases htry : l.tryRead with ⟨c, m⟩
      cases c with
      | some c =>
          obtain ⟨q, rfl, hq⟩ := tryRead_eq_some htry
          have hstep : (Reading.all text eager).step tryRead (readChar false) l =
              (some (.more (.all (text.push c) true)), { l with queue := q }) := by
            cases eager <;> simp [Reading.step, Reading.isEager, readChar, htry, Reading.feed]
          obtain ⟨m, hm⟩ := ih (l := { l with queue := q }) hdone (text.push c) true
            (by simp only [hq, List.length_cons] at hfuel; show q.toList.length + 2 ≤ fuel; omega)
          refine ⟨m, ?_⟩
          rw [Reading.run, hstep]
          simp only [hm, hq]
          congr 3
          apply String.ext
          simp
      | none =>
          obtain ⟨rfl, hempty⟩ := tryRead_eq_none htry
          cases eager with
          | false =>
              refine ⟨m, ?_⟩
              simp [Reading.run, Reading.step, Reading.isEager, readChar, htry, hdone, Reading.feed, hempty]
          | true =>
              obtain ⟨fuel, rfl⟩ : ∃ n, fuel = n + 1 := ⟨fuel - 1, by omega⟩
              refine ⟨m, ?_⟩
              simp [Reading.run, Reading.step, Reading.isEager, readChar, htry, hdone, Reading.feed, hempty]

/-- Reading an ended link to its end gives what is queued. -/
theorem read_all {l : Link} (hdone : l.writerDone = true) :
    ∃ m, l.read false .all = some (some (String.ofList l.queue.toList), m) := by
  obtain ⟨m, hm⟩ := run_all hdone (l.queue.size + 3) "" false
    (by rw [Queue.size_eq_length]; omega)
  exact ⟨m, by simpa [Link.read, Reading.start] using hm⟩

end Link

end CommandShell
