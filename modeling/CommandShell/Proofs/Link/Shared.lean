import CommandShell.Chain.Action
import CommandShell.Proofs.Link.Basic
import Mathlib.Data.List.Infix
import Mathlib.Logic.Relation

/-!
A link that several callers use at the same time: any number of texts may be on their way into it, and between
two characters anyone may read from it, flush it, close one of its ends or cancel it.  Main statement: the link
never holds more than its capacity, nothing is in it once its reading end is closed, nothing more comes into it
once it is cancelled, and of each text a prefix goes into it, all of it unless the link refuses the rest.
-/

namespace CommandShell

open Relation

/-- A call to write a text.  When it returns, what is left of the text is dropped. -/
structure WriteCall where
  text : List Char
  rest : List Char
  returned : Bool := false

/-- A link, its calls to write by number, and all characters that have gone into its queue, each with the number
of its call. -/
structure SharedLink where
  link : Link
  cancelled : Bool := false
  calls : List WriteCall := []
  entered : List (Nat × Char) := []

namespace Link

variable (l : Link)

theorem exists_tryRead : ∃ q, l.tryRead.2 = { l with queue := q } ∧ q.toList <:+ l.queue.toList := by
  rcases htry : l.tryRead with ⟨c, m⟩
  cases c with
  | none =>
      obtain ⟨rfl, -⟩ := tryRead_eq_none htry
      exact ⟨m.queue, rfl, List.suffix_refl _⟩
  | some c =>
      obtain ⟨q, rfl, hq⟩ := tryRead_eq_some htry
      exact ⟨q, rfl, hq ▸ List.suffix_cons c q.toList⟩

theorem exists_readChar (cancelled : Bool) :
    ∃ q, (l.readChar cancelled).source = { l with queue := q } ∧ q.toList <:+ l.queue.toList := by
  cases hread : l.readChar cancelled with
  | got c m =>
      have htry := (readChar_eq_got hread).2
      obtain ⟨q, hq, hsuffix⟩ := l.exists_tryRead
      rw [htry] at hq
      exact ⟨q, hq, hsuffix⟩
  | ended m =>
      obtain ⟨rfl, -⟩ := readChar_eq_ended hread
      exact ⟨m.queue, rfl, List.suffix_refl _⟩
  | blocked m =>
      obtain ⟨rfl, -⟩ := readChar_eq_blocked hread
      exact ⟨m.queue, rfl, List.suffix_refl _⟩

end Link

namespace SharedLink

def fresh (capacity : Nat) : SharedLink := { link := .new capacity }

/-- One step of a caller.  Each character of a text goes into the queue in a step of its own, or is refused, so
anything may come between two of them; before a character for which there is no room a call waits. -/
inductive Move : SharedLink → SharedLink → Prop
  | call (s) (action : OutputAction) :
      Move s { s with calls := s.calls ++ [⟨action.linkText.toList, action.linkText.toList, false⟩] }
  | push (s) (i : Nat) (text rest : List Char) (c : Char) (link : Link)
      (hcall : s.calls[i]? = some ⟨text, c :: rest, false⟩) (hpush : s.link.push s.cancelled c = .pushed link) :
      Move s { s with link, calls := s.calls.set i ⟨text, rest, false⟩, entered := s.entered ++ [(i, c)] }
  | drop (s) (i : Nat) (text rest : List Char) (c : Char) (hcall : s.calls[i]? = some ⟨text, c :: rest, false⟩)
      (hpush : s.link.push s.cancelled c = .dropped) :
      Move s { s with calls := s.calls.set i ⟨text, c :: rest, true⟩ }
  | finish (s) (i : Nat) (text : List Char) (hcall : s.calls[i]? = some ⟨text, [], false⟩) :
      Move s { s with calls := s.calls.set i ⟨text, [], true⟩ }
  | tryRead (s) : Move s { s with link := s.link.tryRead.2 }
  | readChar (s) : Move s { s with link := (s.link.readChar s.cancelled).source }
  | flush (s) : Move s { s with link := s.link.flush }
  | endWriting (s) : Move s { s with link := s.link.endWriting }
  | endReading (s) : Move s { s with link := s.link.endReading }
  | cancel (s) : Move s { s with cancelled := true }

/-- What can come of some steps. -/
def Later : SharedLink → SharedLink → Prop := ReflTransGen Move

/-- What can come of a new link of the given capacity. -/
def Reach (capacity : Nat) (s : SharedLink) : Prop := Later (fresh capacity) s

/-- The characters of a call that have gone into the queue. -/
def enteredBy (s : SharedLink) (i : Nat) : List Char := (s.entered.filter (·.1 = i)).map (·.2)

variable {s t : SharedLink} {capacity i : Nat}

/-- What a step does to the link.  Either something has gone from the front of the queue at most, or one character
has come to its end. -/
structure Effect (s t : SharedLink) : Prop where
  later : s.link.Later t.link
  cancelled : s.cancelled = true → t.cancelled = true
  closing : t.link.readerDone = true → s.link.readerDone = true ∨ t.link.queue.toList = []
  queue : t.entered = s.entered ∧ t.link.queue.toList <:+ s.link.queue.toList ∨
    ∃ i c, i < s.calls.length ∧ t.entered = s.entered ++ [(i, c)] ∧
      t.link.queue.toList = s.link.queue.toList ++ [c] ∧
      s.cancelled = false ∧ s.link.readerDone = false ∧ s.link.queue.size < s.link.capacity

/-- What happens at the front of the queue only. -/
theorem effect_of_suffix {q : Queue Char} (h : q.toList <:+ s.link.queue.toList) :
    Effect s { s with link := { s.link with queue := q } } :=
  ⟨⟨rfl, id, id⟩, id, .inl, .inl ⟨rfl, h⟩⟩

theorem effect_of_calls (calls : List WriteCall) : Effect s { s with calls } :=
  ⟨.refl _, id, .inl, .inl ⟨rfl, List.suffix_refl _⟩⟩

theorem effect_of_move (hm : Move s t) : Effect s t := by
  cases hm with
  | call action => exact effect_of_calls _
  | drop i text rest c hcall hpush => exact effect_of_calls _
  | finish i text hcall => exact effect_of_calls _
  | push i text rest c link hcall hpush =>
      have hlater := Link.later_of_pushed hpush
      obtain ⟨hcancelled, hreader, hsize, rfl⟩ := Link.push_eq_pushed_iff.1 hpush
      have hlt := (List.getElem?_eq_some_iff.1 hcall).1
      exact ⟨hlater, id, .inl, .inr ⟨i, c, hlt, rfl, Queue.toList_push _ _, hcancelled, hreader, hsize⟩⟩
  | tryRead =>
      obtain ⟨q, hq, hsuffix⟩ := s.link.exists_tryRead
      rw [hq]
      exact effect_of_suffix hsuffix
  | readChar =>
      obtain ⟨q, hq, hsuffix⟩ := s.link.exists_readChar s.cancelled
      rw [hq]
      exact effect_of_suffix hsuffix
  | flush => exact effect_of_suffix List.nil_suffix
  | endWriting => exact ⟨s.link.later_endWriting, id, .inl, .inl ⟨rfl, List.suffix_refl _⟩⟩
  | endReading => exact ⟨s.link.later_endReading, id, fun _ => .inr rfl, .inl ⟨rfl, List.nil_suffix⟩⟩
  | cancel => exact ⟨.refl _, fun _ => rfl, .inl, .inl ⟨rfl, List.suffix_refl _⟩⟩

/-- What holds between a state and any later one. -/
structure Onward (s t : SharedLink) : Prop where
  later : s.link.Later t.link
  cancelled : s.cancelled = true → t.cancelled = true
  entered : s.entered <+: t.entered
  queue : t.entered = s.entered → t.link.queue.toList <:+ s.link.queue.toList
  refusing : s.cancelled = true ∨ s.link.readerDone = true → t.entered = s.entered

theorem onward_of_move (hm : Move s t) : Onward s t := by
  have h := effect_of_move hm
  obtain ⟨hsame, hsuffix⟩ | ⟨i, c, -, hadded, -, hcancelled, hreader, -⟩ := h.queue
  · exact ⟨h.later, h.cancelled, hsame ▸ List.prefix_refl _, fun _ => hsuffix, fun _ => hsame⟩
  · refine ⟨h.later, h.cancelled, hadded ▸ List.prefix_append _ _, ?_, ?_⟩
    · simp [hadded]
    · simp [hcancelled, hreader]

theorem Onward.trans {u : SharedLink} (h : Onward s t) (h' : Onward t u) : Onward s u where
  later := h.later.trans h'.later
  cancelled := h'.cancelled ∘ h.cancelled
  entered := h.entered.trans h'.entered
  queue hsame := by
    -- nothing has entered on the way if nothing has in the end
    have hbetween : t.entered = s.entered :=
      (h.entered.eq_of_length_le (hsame ▸ h'.entered.length_le)).symm
    exact (h'.queue (hsame.trans hbetween.symm)).trans (h.queue hbetween)
  refusing hrefusing := (h'.refusing (hrefusing.imp h.cancelled h.later.readerDone)).trans (h.refusing hrefusing)

theorem onward_of_later (h : Later s t) : Onward s t := by
  induction h with
  | refl => exact ⟨.refl _, id, List.prefix_refl _, fun _ => List.suffix_refl _, fun _ => rfl⟩
  | tail _ hm ih => exact ih.trans (onward_of_move hm)

/-! ### The calls -/

theorem enteredBy_concat (s : SharedLink) (link : Link) (calls : List WriteCall) (i j : Nat) (c : Char) :
    enteredBy { s with link, calls, entered := s.entered ++ [(j, c)] } i =
      if j = i then s.enteredBy i ++ [c] else s.enteredBy i := by
  by_cases h : j = i <;> simp [enteredBy, h]

/-- What becomes of call `i` in a step: nothing, or one of its characters goes into the queue, or it returns. -/
inductive Follows (s t : SharedLink) (i : Nat) : WriteCall → WriteCall → Prop
  | same (call) (h : t.enteredBy i = s.enteredBy i) : Follows s t i call call
  | wrote (text c rest) (h : t.enteredBy i = s.enteredBy i ++ [c]) :
      Follows s t i ⟨text, c :: rest, false⟩ ⟨text, rest, false⟩
  | returned (text rest) (h : t.enteredBy i = s.enteredBy i)
      (hrest : rest = [] ∨ s.cancelled = true ∨ s.link.readerDone = true) :
      Follows s t i ⟨text, rest, false⟩ ⟨text, rest, true⟩

theorem exists_follows_of_set {j : Nat} {old new call : WriteCall}
    (hold : s.calls[j]? = some old) (hcall : s.calls[i]? = some call) (hnew : j = i → Follows s t i old new)
    (hother : j ≠ i → t.enteredBy i = s.enteredBy i) :
    ∃ call', (s.calls.set j new)[i]? = some call' ∧ Follows s t i call call' := by
  by_cases h : j = i
  · subst h
    obtain rfl : old = call := by simpa [hold] using hcall
    obtain ⟨hlt, -⟩ := List.getElem?_eq_some_iff.1 hold
    exact ⟨new, List.getElem?_set_self hlt, hnew rfl⟩
  · exact ⟨call, by rwa [List.getElem?_set_ne h], .same call (hother h)⟩

theorem exists_follows {call : WriteCall} (hm : Move s t) (hcall : s.calls[i]? = some call) :
    ∃ call', t.calls[i]? = some call' ∧ Follows s t i call call' := by
  cases hm with
  | call action =>
      obtain ⟨hlt, -⟩ := List.getElem?_eq_some_iff.1 hcall
      exact ⟨call, by rwa [List.getElem?_append_left hlt], .same call rfl⟩
  | push j text rest c link hold hpush =>
      refine exists_follows_of_set hold hcall ?_ ?_
      · rintro rfl
        exact .wrote text c rest (by rw [enteredBy_concat, if_pos rfl])
      · intro hne
        rw [enteredBy_concat, if_neg hne]
  | drop j text rest c hold hpush =>
      exact exists_follows_of_set hold hcall
        (fun _ => .returned text _ rfl (.inr (Link.push_eq_dropped_iff.1 hpush).symm)) fun _ => rfl
  | finish j text hold =>
      exact exists_follows_of_set hold hcall (fun _ => .returned text _ rfl (.inl rfl)) fun _ => rfl
  | tryRead | readChar | flush | endWriting | endReading | cancel => exact ⟨call, hcall, .same call rfl⟩

/-- A call that has begun in a step has written nothing. -/
theorem rest_eq_text_of_new {call : WriteCall} (hm : Move s t) (hnew : s.calls[i]? = none)
    (hcall : t.calls[i]? = some call) : call.rest = call.text ∧ t.entered = s.entered := by
  have hset : ∀ (j : Nat) (x : WriteCall), (s.calls.set j x)[i]? = none := fun j x => by
    simpa [List.getElem?_eq_none_iff] using hnew
  cases hm with
  | call action =>
      rw [List.getElem?_append_right (List.getElem?_eq_none_iff.1 hnew)] at hcall
      obtain rfl := List.mem_singleton.1 (List.mem_of_getElem? hcall)
      exact ⟨rfl, rfl⟩
  | push | drop | finish =>
      rw [hset] at hcall
      cases hcall
  | tryRead | readChar | flush | endWriting | endReading | cancel =>
      rw [hnew] at hcall
      cases hcall

theorem length_calls_le (hm : Move s t) : s.calls.length ≤ t.calls.length := by
  cases hm with
  | call action => simp
  | push | drop | finish => simp
  | tryRead | readChar | flush | endWriting | endReading | cancel => exact Nat.le_refl _

/-- What holds in every state. -/
structure Sound (capacity : Nat) (s : SharedLink) : Prop where
  capacity : s.link.capacity = max capacity 1
  size : s.link.queue.size ≤ s.link.capacity
  closed : s.link.readerDone = true → s.link.queue.toList = []
  numbered : ∀ x ∈ s.entered, x.1 < s.calls.length
  calls : ∀ i call, s.calls[i]? = some call → s.enteredBy i ++ call.rest = call.text

theorem sound_fresh (capacity : Nat) : Sound capacity (fresh capacity) :=
  ⟨rfl, Nat.zero_le _, fun _ => rfl, nofun, nofun⟩

theorem Sound.enteredBy_eq_nil (h : Sound capacity s) (hnew : s.calls[i]? = none) : s.enteredBy i = [] := by
  rw [enteredBy, List.map_eq_nil_iff, List.filter_eq_nil_iff]
  intro x hx
  have hlt := h.numbered x hx
  have hle := List.getElem?_eq_none_iff.1 hnew
  simp only [decide_eq_true_eq]
  omega

theorem sound_of_move (h : Sound capacity s) (hm : Move s t) : Sound capacity t := by
  have he := effect_of_move hm
  refine ⟨he.later.capacity.trans h.capacity, ?_, ?_, ?_, ?_⟩
  · rw [he.later.capacity, Queue.size_eq_length]
    obtain ⟨-, hsuffix⟩ | ⟨i, c, -, -, hqueue, -, -, hsize⟩ := he.queue
    · exact hsuffix.length_le.trans (Queue.size_eq_length s.link.queue ▸ h.size)
    · rw [hqueue, List.length_append, List.length_singleton, ← Queue.size_eq_length]
      exact hsize
  · intro hdone
    obtain hdone | hempty := he.closing hdone
    · obtain ⟨-, hsuffix⟩ | ⟨i, c, -, -, -, -, hopen, -⟩ := he.queue
      · exact List.suffix_nil.1 (h.closed hdone ▸ hsuffix)
      · simp [hdone] at hopen
    · exact hempty
  · have hlength := length_calls_le hm
    obtain ⟨hsame, -⟩ | ⟨i, c, hlt, hadded, -⟩ := he.queue
    · rw [hsame]
      exact fun x hx => (h.numbered x hx).trans_le hlength
    · rw [hadded, List.forall_mem_append, List.forall_mem_singleton]
      exact ⟨fun x hx => (h.numbered x hx).trans_le hlength, hlt.trans_le hlength⟩
  · intro i call' hcall'
    cases hcall : s.calls[i]? with
    | none =>
        obtain ⟨hrest, hentered⟩ := rest_eq_text_of_new hm hcall hcall'
        rw [hrest, enteredBy, hentered, ← enteredBy, h.enteredBy_eq_nil hcall, List.nil_append]
    | some call =>
        obtain ⟨call₁, hcall₁, hfollows⟩ := exists_follows hm hcall
        obtain rfl : call₁ = call' := by simpa [hcall₁] using hcall'
        have htext := h.calls i call hcall
        cases hfollows with
        | same _ hsame => rwa [hsame]
        | wrote text c rest hwrote => rwa [hwrote, List.append_assoc]
        | returned text rest hsame => rwa [hsame]

theorem sound_of_reach (h : Reach capacity s) : Sound capacity s := by
  induction h with
  | refl => exact sound_fresh capacity
  | tail _ hm ih => exact sound_of_move ih hm

/-- Nothing becomes of a call that has returned. -/
theorem call_eq_of_returned {call : WriteCall} (h : Later s t) (hcall : s.calls[i]? = some call)
    (hreturned : call.returned = true) : t.calls[i]? = some call ∧ t.enteredBy i = s.enteredBy i := by
  induction h with
  | refl => exact ⟨hcall, rfl⟩
  | tail _ hm ih =>
      obtain ⟨hbefore, hentered⟩ := ih
      obtain ⟨call', hafter, hfollows⟩ := exists_follows hm hbefore
      cases hfollows with
      | same _ hsame => exact ⟨hafter, hsame.trans hentered⟩
      | wrote | returned => cases hreturned

/-- A call returns before the end of its text only when the link refuses the rest. -/
theorem refusing_of_returned {call call' : WriteCall} (hm : Move s t) (hcall : s.calls[i]? = some call)
    (hcall' : t.calls[i]? = some call') (hopen : call.returned = false) (hreturned : call'.returned = true)
    (hrest : call'.rest ≠ []) : s.cancelled = true ∨ s.link.readerDone = true := by
  obtain ⟨call₁, hcall₁, hfollows⟩ := exists_follows hm hcall
  obtain rfl : call₁ = call' := by simpa [hcall₁] using hcall'
  cases hfollows with
  | same => simp [hopen] at hreturned
  | wrote => cases hreturned
  | returned text rest hsame hdone => exact hdone.resolve_left hrest

/-! ### Whole operations -/

/-- To write as far as it goes is to take the steps of a call one after another, until it returns or waits. -/
theorem exists_later_write {text cs : List Char} (hcall : s.calls[i]? = some ⟨text, cs, false⟩) :
    ∃ t rest, Later s t ∧ t.link = (s.link.write s.cancelled cs).1 ∧
      t.calls[i]? = some ⟨text, rest, (s.link.write s.cancelled cs).2.isEmpty⟩ := by
  induction cs generalizing s with
  | nil =>
      have hlt := (List.getElem?_eq_some_iff.1 hcall).1
      exact ⟨_, [], .single (.finish s i text hcall), rfl, List.getElem?_set_self hlt⟩
  | cons c cs ih =>
      have hlt := (List.getElem?_eq_some_iff.1 hcall).1
      rw [Link.write]
      cases hpush : s.link.push s.cancelled c with
      | pushed link =>
          have hm := Move.push s i text cs c link hcall hpush
          obtain ⟨t, rest, hlater, hlink, hafter⟩ :=
            ih (s := { s with link, calls := s.calls.set i ⟨text, cs, false⟩, entered := s.entered ++ [(i, c)] })
              (List.getElem?_set_self hlt)
          exact ⟨t, rest, .head hm hlater, hlink, hafter⟩
      | dropped =>
          have hm := Move.drop s i text cs c hcall hpush
          exact ⟨_, c :: cs, .single hm, rfl, List.getElem?_set_self hlt⟩
      | blocked => exact ⟨s, c :: cs, .refl, rfl, hcall⟩

theorem move_of_step {r : Reading} {next : Option Reading.Next} {link : Link}
    (h : r.step Link.tryRead (Link.readChar s.cancelled) s.link = (next, link)) : Move s { s with link } := by
  obtain ⟨fed, hfed, -⟩ := Reading.fed_of_step h
  cases hfed with
  | tried c link heager htry =>
      have hm := Move.tryRead s
      rwa [htry] at hm
  | got c link hwait hread | ended link hwait hread | blocked link hwait hread =>
      have hm := Move.readChar s
      rwa [hread] at hm

/-- To read is to take steps. -/
theorem later_of_run {fuel : Nat} {r : Reading} {answer : Option String} {link : Link}
    (h : Reading.run Link.tryRead (Link.readChar s.cancelled) fuel r s.link = some (answer, link)) :
    Later s { s with link } := by
  induction fuel generalizing s r with
  | zero => cases h
  | succ fuel ih =>
      rw [Reading.run] at h
      rcases hstep : r.step Link.tryRead (Link.readChar s.cancelled) s.link with ⟨next, m⟩
      have hm := move_of_step hstep
      rw [hstep] at h
      cases next with
      | none => cases h
      | some progress =>
          cases progress with
          | done text =>
              cases h
              exact .single hm
          | more r => exact .head hm (ih (s := { s with link := m }) h)

/-- In every state of a link that is in use, also between two characters of a text: it holds no more than its
capacity; once its reading end is closed it stays empty; once it is cancelled nothing comes into it; and what
has gone into it of each text is a prefix of it, of which no more comes when the call has returned, and all of
it unless the link was cancelled or its reading end closed when the call returned.  To write and to read at one
go is to take such steps. -/
theorem invariants_of_reach (h : Reach capacity s) :
    s.link.queue.size ≤ max capacity 1 ∧
      (∀ t, Later s t → s.link.readerDone = true → t.link.queue.toList = []) ∧
      (∀ t, Later s t → s.cancelled = true → t.link.queue.toList <:+ s.link.queue.toList) ∧
      (∀ t, Move s t → t.entered = s.entered ∧ t.link.queue.toList <:+ s.link.queue.toList ∨
        ∃ i c, t.entered = s.entered ++ [(i, c)] ∧ t.link.queue.toList = s.link.queue.toList ++ [c]) ∧
      (∀ i call, s.calls[i]? = some call →
        s.enteredBy i ++ call.rest = call.text ∧
        (∀ t, Later s t → call.returned = true → t.calls[i]? = some call ∧ t.enteredBy i = s.enteredBy i) ∧
        ∀ t call', Move s t → t.calls[i]? = some call' → call.returned = false → call'.returned = true →
          call'.rest ≠ [] → s.cancelled = true ∨ s.link.readerDone = true) ∧
      (∀ (i : Nat) (text cs : List Char), s.calls[i]? = some ⟨text, cs, false⟩ → ∃ t rest, Later s t ∧
        t.link = (s.link.write s.cancelled cs).1 ∧
        t.calls[i]? = some ⟨text, rest, (s.link.write s.cancelled cs).2.isEmpty⟩) ∧
      ∀ extent answer link, s.link.read s.cancelled extent = some (answer, link) → Later s { s with link } := by
  have hs := sound_of_reach h
  refine ⟨hs.capacity ▸ hs.size, ?_, ?_, ?_, ?_, fun i text cs => exists_later_write, fun extent answer link =>
    later_of_run⟩
  · intro t hlater hdone
    exact (sound_of_reach (h.trans hlater)).closed ((onward_of_later hlater).later.readerDone hdone)
  · intro t hlater hcancelled
    have ho := onward_of_later hlater
    exact ho.queue (ho.refusing (.inl hcancelled))
  · intro t hm
    exact (effect_of_move hm).queue.imp_right fun ⟨i, c, _, hadded, hqueue, _⟩ => ⟨i, c, hadded, hqueue⟩
  · intro i call hcall
    refine ⟨hs.calls i call hcall, fun t hlater => call_eq_of_returned hlater hcall, ?_⟩
    exact fun t call' hm hcall' => refusing_of_returned hm hcall hcall'

/-- A text of two characters, of which the second one waits for room when the reading end is closed. -/
theorem invariants_of_reach_of_closed :
    let s : SharedLink := ⟨(Link.new 0).endReading, false, [⟨['a', 'b'], ['b'], false⟩], [(0, 'a')]⟩
    let t : SharedLink := { s with calls := [⟨['a', 'b'], ['b'], true⟩] }
    Reach 0 s ∧ Move s t ∧ s.link.queue.size ≤ 1 ∧ t.link.queue.toList = [] ∧
      s.enteredBy 0 ++ ['b'] = ['a', 'b'] ∧ (s.cancelled = true ∨ s.link.readerDone = true) := by
  intro s t
  have hcall : Reach 0 _ := .single (.call (fresh 0) (.write "ab"))
  have hfull := hcall.tail (.push _ 0 ['a', 'b'] ['b'] 'a' _ rfl rfl)
  have h : Reach 0 s := hfull.tail (.endReading _)
  have hm : Move s t := .drop s 0 ['a', 'b'] [] 'b' rfl rfl
  obtain ⟨hsize, hclosed, -, -, hcalls, -⟩ := invariants_of_reach h
  obtain ⟨htext, -, hrefused⟩ := hcalls 0 _ rfl
  exact ⟨h, hm, hsize, hclosed t (.single hm) rfl, htext, hrefused t _ hm rfl rfl rfl nofun⟩

end SharedLink

end CommandShell
