import CommandShell.Proofs.Chain.Step
import Mathlib.Logic.Function.Basic
import Mathlib.Logic.Relation

/-!
Keys on their way from the terminal to the stages, with the books of what each stage has had of them.
Whoever finds that nothing has been typed for him looks at the terminal, and hands the keys that he finds to
one stage after the other and then to the text of the first stage; all others may go on reading meanwhile.
Main statements: the books balance whoever acts next, and nobody takes anything from the keys of others.
-/

namespace CommandShell

/-- Keys that have been found and are being handed out. -/
structure Handout where
  keys : List Key
  /-- How many stages have got them. -/
  served : Nat := 0

/-- What comes of a look: nothing is handed out if it fails, or if no key has arrived. -/
def Handout.ofBatch : KeyBatch → Option Handout
  | none | some [] => none
  | some keys => some ⟨keys, 0⟩

namespace Typing

/-- Hands keys to one stage. -/
def pushKeys (t : Typing) (stage : Nat) (keys : List Key) : Typing :=
  { t with keys := t.keys.modify stage (· ++ keys) }

/-- Hands keys to the first stage as text, if it reads the terminal. -/
def pushText (t : Typing) (keys : List Key) : Typing :=
  { t with text := t.text.map (· ++ keys.filterMap charOf?) }

end Typing

namespace Ends

variable {e f : Ends} {i : Nat} {k : Key} {c : Char}

/-- Nothing has been typed. -/
structure Fresh (e : Ends) : Prop where
  keys : ∀ keys ∈ e.typing.keys, keys = []
  text : e.typing.text = if e.input = .terminal then some [] else none

theorem popKey_eq_some : e.popKey i = (some k, f) ↔ ∃ rest, e.typing.keys[i]? = some (k :: rest) ∧
    f = { e with typing := { e.typing with keys := e.typing.keys.set i rest } } := by
  rw [popKey]
  split
  · next k' rest hkeys =>
      constructor
      · intro h
        cases h
        exact ⟨rest, hkeys, rfl⟩
      · rintro ⟨rest', hkeys', rfl⟩
        cases hkeys.symm.trans hkeys'
        rfl
  · next hnone =>
      constructor
      · intro h
        cases h
      · rintro ⟨rest, hkeys, -⟩
        exact absurd hkeys (hnone k rest)

theorem popKey_eq_none (h : e.popKey i = (none, f)) : f = e := by
  rw [popKey] at h
  split at h <;> cases h
  rfl

theorem popText_eq_some : e.popText = (some c, f) ↔ ∃ rest, e.typing.text = some (c :: rest) ∧
    f = { e with typing := { e.typing with text := some rest } } := by
  rw [popText]
  split
  · next c' rest htext =>
      constructor
      · intro h
        cases h
        exact ⟨rest, htext, rfl⟩
      · rintro ⟨rest', htext', rfl⟩
        cases htext.symm.trans htext'
        rfl
  · next hnone =>
      constructor
      · intro h
        cases h
      · rintro ⟨rest, htext, -⟩
        exact absurd htext (hnone c rest)

theorem popText_eq_none (h : e.popText = (none, f)) : f = e := by
  rw [popText] at h
  split at h <;> cases h
  rfl

end Ends

/-- The ends of a chain in use.  While keys are handed out, nobody else can look at the terminal. -/
structure KeyTraffic where
  ends : Ends
  handout : Option Handout := none
  /-- What each look at the terminal has found. -/
  looks : List KeyBatch := []
  /-- The keys that each stage has read or forgotten. -/
  gone : Nat → List Key := fun _ => []
  /-- The typed text that the first stage has read or forgotten. -/
  goneText : List Char := []

namespace KeyTraffic

/-- All keys that have been found; a look that fails has found none. -/
def typed (s : KeyTraffic) : List Key := s.looks.flatMap (·.getD [])

/-- The keys of a stage that it has not read. -/
def buffer (s : KeyTraffic) (i : Nat) : List Key := (s.ends.typing.keys[i]?).getD []

/-- The keys that are being handed out and have not come to a stage. -/
def due (s : KeyTraffic) (i : Nat) : List Key :=
  match s.handout with
  | some h => if h.served ≤ i then h.keys else []
  | none => []

/-- The text in the keys that are being handed out. -/
def dueText (s : KeyTraffic) : List Char :=
  match s.handout with
  | some h => h.keys.filterMap Typing.charOf?
  | none => []

/-- What is done at once.  The last two only change what has nothing to do with typing: the rest of a
redirected input, and what is around the ends. -/
inductive Act where
  | look
  | hand
  | takeKey (stage : Nat)
  | dropKeys (stage : Nat)
  | takeChar
  | dropText
  | readFile
  | around

/-- Who reads: the keyboard of a stage, or the input of the first stage.  All else is left to others. -/
inductive Party where
  | keyboard (stage : Nat)
  | input
  | others

/-- Whose act it is; whoever has nothing to read looks at the terminal and hands out what he finds. -/
def Act.party? : Act → Option Party
  | .look | .hand => none
  | .takeKey i | .dropKeys i => some (.keyboard i)
  | .takeChar | .dropText | .readFile => some .input
  | .around => some .others

inductive Move : Act → KeyTraffic → KeyTraffic → Prop
  | look (s : KeyTraffic) (keys : KeyBatch) (world : World) (hidle : s.handout = none)
      (hlook : s.ends.world.readKeys = (keys, world)) :
      Move .look s { s with
        ends := { s.ends with world }, handout := Handout.ofBatch keys, looks := s.looks ++ [keys] }
  | handKeys (s : KeyTraffic) (h : Handout) (hout : s.handout = some h)
      (hmore : h.served < s.ends.typing.keys.length) :
      Move .hand s { s with
        ends := { s.ends with typing := s.ends.typing.pushKeys h.served h.keys }
        handout := some { h with served := h.served + 1 } }
  | handText (s : KeyTraffic) (h : Handout) (hout : s.handout = some h)
      (hall : s.ends.typing.keys.length ≤ h.served) :
      Move .hand s { s with
        ends := { s.ends with typing := s.ends.typing.pushText h.keys }, handout := none }
  | takeKey (s : KeyTraffic) (i : Nat) (k : Key) (ends : Ends) (hpop : s.ends.popKey i = (some k, ends)) :
      Move (.takeKey i) s { s with ends, gone := Function.update s.gone i (s.gone i ++ [k]) }
  | dropKeys (s : KeyTraffic) (i : Nat) :
      Move (.dropKeys i) s { s with
        ends := s.ends.dropKeys i, gone := Function.update s.gone i (s.gone i ++ s.buffer i) }
  | takeChar (s : KeyTraffic) (c : Char) (ends : Ends) (hpop : s.ends.popText = (some c, ends)) :
      Move .takeChar s { s with ends, goneText := s.goneText ++ [c] }
  | dropText (s : KeyTraffic) :
      Move .dropText s { s with
        ends := s.ends.dropText, goneText := s.goneText ++ s.ends.typing.text.getD [] }
  | readFile (s : KeyTraffic) (rest rest' : List Char) (hinput : s.ends.input = .redirected rest) :
      Move .readFile s { s with ends := { s.ends with input := .redirected rest' } }
  | around (s : KeyTraffic) (ends : Ends) (htyping : ends.typing = s.ends.typing)
      (hinput : ends.input = .terminal ↔ s.ends.input = .terminal) :
      Move .around s { s with ends }

/-- What can come of some ends, whoever acts next. -/
inductive Reach (e : Ends) : KeyTraffic → Prop
  | start : Reach e { ends := e }
  | move {s t : KeyTraffic} {act : Act} (hs : Reach e s) (hm : Move act s t) : Reach e t

/-- The books balance. -/
structure Balanced (e : Ends) (s : KeyTraffic) : Prop where
  length : s.ends.typing.keys.length = e.typing.keys.length
  keys : ∀ i < e.typing.keys.length, s.gone i ++ s.buffer i ++ s.due i = s.typed
  text : ∀ text, s.ends.typing.text = some text →
    s.goneText ++ text ++ s.dueText = s.typed.filterMap Typing.charOf?
  hears : s.ends.typing.text.isSome = true ↔ e.input = .terminal
  input : s.ends.input = .terminal ↔ e.input = .terminal

variable {s t u : KeyTraffic} {e f : Ends} {i j : Nat} {act : Act}

theorem due_of_idle (h : s.handout = none) (i : Nat) : s.due i = [] := by
  rw [due, h]

theorem dueText_of_idle (h : s.handout = none) : s.dueText = [] := by
  rw [dueText, h]

theorem balanced_start (he : e.Fresh) : Balanced e { ends := e } := by
  refine ⟨rfl, ?_, ?_, ?_, Iff.rfl⟩
  · intro i hi
    have hnone : (e.typing.keys[i]?).getD [] = [] := by
      rw [List.getElem?_eq_getElem hi]
      exact he.keys _ (List.getElem_mem hi)
    simp [buffer, hnone, due, typed]
  · intro text htext
    rw [he.text] at htext
    split at htext <;> cases htext
    rfl
  · rw [he.text]
    split <;> simpa

/-- What a look finds is due to all. -/
theorem due_of_ofBatch (keys : KeyBatch) (h : s.handout = Handout.ofBatch keys) (i : Nat) :
    s.due i = keys.getD [] := by
  rcases keys with _ | _ | ⟨k, ks⟩ <;> simp [due, h, Handout.ofBatch]

theorem dueText_of_ofBatch (keys : KeyBatch) (h : s.handout = Handout.ofBatch keys) :
    s.dueText = (keys.getD []).filterMap Typing.charOf? := by
  rcases keys with _ | _ | ⟨k, ks⟩ <;> simp [dueText, h, Handout.ofBatch]

theorem due_eq {h : Handout} (hout : s.handout = some h) (i : Nat) :
    s.due i = if h.served ≤ i then h.keys else [] := by
  rw [due, hout]

theorem dueText_eq {h : Handout} (hout : s.handout = some h) : s.dueText = h.keys.filterMap Typing.charOf? := by
  rw [dueText, hout]

theorem buffer_of_set {keys : List Key} (h : t.ends.typing.keys = s.ends.typing.keys.set i keys)
    (hj : j < s.ends.typing.keys.length) : t.buffer j = if i = j then keys else s.buffer j := by
  rw [buffer, h, List.getElem?_set]
  split
  · next hij =>
      subst hij
      rw [if_pos hj, Option.getD_some]
  · rfl

theorem buffer_of_modify {keys : List Key} (h : t.ends.typing.keys = s.ends.typing.keys.modify i (· ++ keys))
    (hi : i < s.ends.typing.keys.length) (j : Nat) :
    t.buffer j = if i = j then s.buffer j ++ keys else s.buffer j := by
  rw [buffer, buffer, h, List.getElem?_modify]
  split
  · next hij =>
      subst hij
      rw [List.getElem?_eq_getElem hi]
      rfl
  · simp

theorem typed_look {keys : KeyBatch} (h : t.looks = s.looks ++ [keys]) : t.typed = s.typed ++ keys.getD [] := by
  simp [typed, h]

/-- What a stage reads or forgets is the first part of what it has not read. -/
theorem Balanced.takeKeys (hb : Balanced e s) {taken rest : List Key} (hsplit : s.buffer i = taken ++ rest) :
    Balanced e { s with
      ends := { s.ends with typing := { s.ends.typing with keys := s.ends.typing.keys.set i rest } }
      gone := Function.update s.gone i (s.gone i ++ taken) } := by
  refine { hb with length := ?_, keys := ?_ }
  · rw [← hb.length]
    exact List.length_set
  · intro j hj
    have hkeys := hb.keys j hj
    rw [← hb.length] at hj
    rw [buffer_of_set (s := s) rfl hj]
    change Function.update s.gone i (s.gone i ++ taken) j ++ _ ++ s.due j = s.typed
    rw [Function.update_apply]
    by_cases hij : i = j
    · subst hij
      rw [hsplit] at hkeys
      simpa using hkeys
    · rwa [if_neg hij, if_neg (Ne.symm hij)]

theorem Balanced.takeText (hb : Balanced e s) {taken rest : List Char}
    (hsplit : s.ends.typing.text = some (taken ++ rest)) :
    Balanced e { s with
      ends := { s.ends with typing := { s.ends.typing with text := some rest } }
      goneText := s.goneText ++ taken } := by
  refine { hb with text := ?_, hears := ?_ }
  · intro text htext
    cases htext
    have hall := hb.text _ hsplit
    rwa [← List.append_assoc] at hall
  · have hhears := hb.hears
    rwa [hsplit] at hhears

theorem Balanced.of_typing (hb : Balanced e s) {ends : Ends} (htyping : ends.typing = s.ends.typing)
    (hinput : ends.input = .terminal ↔ e.input = .terminal) : Balanced e { s with ends } := by
  have hlength := hb.length
  have hkeys := hb.keys
  have htext := hb.text
  have hhears := hb.hears
  simp only [buffer, ← htyping] at hlength hkeys htext hhears
  exact ⟨hlength, hkeys, htext, hhears, hinput⟩

theorem balanced_move (hb : Balanced e s) (hm : Move act s t) : Balanced e t := by
  cases hm with
  | look s keys world hidle hlook =>
      refine { hb with keys := ?_, text := ?_ }
      · intro i hi
        have hkeys := hb.keys i hi
        rw [due_of_idle hidle, List.append_nil] at hkeys
        rw [due_of_ofBatch keys rfl, typed_look (s := s) rfl, ← hkeys]
        rfl
      · intro text htext
        have hall := hb.text text htext
        rw [dueText_of_idle hidle, List.append_nil] at hall
        rw [dueText_of_ofBatch keys rfl, typed_look (s := s) rfl, List.filterMap_append, ← hall]
  | handKeys s h hout hmore =>
      refine { hb with length := ?_, keys := ?_, text := ?_ }
      · rw [← hb.length]
        exact List.length_modify _ _ _
      · intro i hi
        have hkeys := hb.keys i hi
        rw [due_eq hout] at hkeys
        rw [due_eq (h := { h with served := h.served + 1 }) rfl, buffer_of_modify (s := s) rfl hmore]
        change s.gone i ++ _ ++ _ = s.typed
        by_cases hself : h.served = i
        · subst hself
          rw [if_pos (Nat.le_refl _)] at hkeys
          rw [if_pos rfl, if_neg (Nat.not_succ_le_self _), List.append_nil, ← List.append_assoc, hkeys]
        · have hsame : h.served + 1 ≤ i ↔ h.served ≤ i := by omega
          simpa [hself, hsame] using hkeys
      · intro text htext
        have hall := hb.text text htext
        rwa [dueText_eq hout] at hall
  | handText s h hout hall =>
      refine { hb with keys := ?_, text := ?_, hears := ?_ }
      · intro i hi
        have hkeys := hb.keys i hi
        rw [hb.length] at hall
        rwa [due_eq hout, if_neg (by omega)] at hkeys
      · intro text htext
        obtain ⟨before, hbefore, rfl⟩ := Option.map_eq_some_iff.1 htext
        have hall := hb.text before hbefore
        rw [dueText_eq hout] at hall
        change s.goneText ++ _ ++ [] = s.typed.filterMap Typing.charOf?
        rw [List.append_nil, ← List.append_assoc, hall]
      · rw [← hb.hears]
        simp [Typing.pushText]
  | takeKey s i k ends hpop =>
      obtain ⟨rest, hkeys, rfl⟩ := Ends.popKey_eq_some.1 hpop
      exact hb.takeKeys (by rw [buffer, hkeys]; rfl)
  | dropKeys s i => exact hb.takeKeys (List.append_nil _).symm
  | takeChar s c ends hpop =>
      obtain ⟨rest, htext, rfl⟩ := Ends.popText_eq_some.1 hpop
      exact hb.takeText (show s.ends.typing.text = some ([c] ++ rest) from htext)
  | dropText s =>
      rcases htext : s.ends.typing.text with _ | text
      · refine { hb with text := ?_, hears := ?_ }
        · intro text hsome
          simp [Ends.dropText, htext] at hsome
        · rw [← hb.hears]
          simp [Ends.dropText]
      · have hdropped := hb.takeText (show s.ends.typing.text = some (text ++ []) by rw [htext, List.append_nil])
        simpa [Ends.dropText, htext] using hdropped
  | readFile s rest rest' hinput =>
      refine hb.of_typing rfl ?_
      rw [← hb.input, hinput]
      simp
  | around s ends htyping hinput => exact hb.of_typing htyping (hinput.trans hb.input)

theorem balanced_of_reach (he : e.Fresh) (h : Reach e s) : Balanced e s := by
  induction h with
  | start => exact balanced_start he
  | move _ hm ih => exact balanced_move ih hm

/-! ### What acts leave alone -/

/-- Nobody takes anything from the keys of others. -/
theorem Move.keeps (hm : Move act s t) (hj : act.party? ≠ some (.keyboard j)) :
    t.gone j = s.gone j ∧ s.buffer j <+: t.buffer j := by
  cases hm with
  | look | handText | dropText | readFile => exact ⟨rfl, List.prefix_rfl⟩
  | handKeys s h hout hmore =>
      refine ⟨rfl, ?_⟩
      rw [buffer_of_modify (t := { s with
        ends := { s.ends with typing := s.ends.typing.pushKeys h.served h.keys }
        handout := some { h with served := h.served + 1 } }) rfl hmore]
      split
      · exact List.prefix_append _ _
      · exact List.prefix_rfl
  | takeKey s i k ends hpop =>
      obtain ⟨rest, -, rfl⟩ := Ends.popKey_eq_some.1 hpop
      have hij : i ≠ j := fun hij => hj (by rw [hij]; rfl)
      refine ⟨Function.update_of_ne (Ne.symm hij) _ _, ?_⟩
      simp [buffer, List.getElem?_set_ne hij]
  | dropKeys s i =>
      have hij : i ≠ j := fun hij => hj (by rw [hij]; rfl)
      refine ⟨Function.update_of_ne (Ne.symm hij) _ _, ?_⟩
      simp [buffer, Ends.dropKeys, List.getElem?_set_ne hij]
  | takeChar s c ends hpop =>
      obtain ⟨rest, -, rfl⟩ := Ends.popText_eq_some.1 hpop
      exact ⟨rfl, List.prefix_rfl⟩
  | around s ends htyping hinput =>
      refine ⟨rfl, ?_⟩
      simp [buffer, htyping]

/-- Nobody but the first stage's input takes anything from the text. -/
theorem Move.keepsText (hm : Move act s t) (hinput : act.party? ≠ some .input) :
    t.goneText = s.goneText ∧ ∃ more, t.ends.typing.text = s.ends.typing.text.map (· ++ more) := by
  cases hm with
  | look => exact ⟨rfl, [], by simp⟩
  | handKeys => exact ⟨rfl, [], by simp [Typing.pushKeys]⟩
  | dropKeys => exact ⟨rfl, [], by simp [Ends.dropKeys]⟩
  | handText s h hout hall => exact ⟨rfl, h.keys.filterMap Typing.charOf?, rfl⟩
  | takeKey s i k ends hpop =>
      obtain ⟨rest, -, rfl⟩ := Ends.popKey_eq_some.1 hpop
      exact ⟨rfl, [], by simp⟩
  | takeChar | dropText | readFile => exact absurd rfl hinput
  | around s ends htyping => exact ⟨rfl, [], by simp [htyping]⟩

/-- Whether the terminal is read does not change. -/
theorem Move.terminal_iff (hm : Move act s t) : t.ends.input = .terminal ↔ s.ends.input = .terminal := by
  cases hm with
  | look | handKeys | handText | dropKeys | dropText => exact Iff.rfl
  | takeKey s i k ends hpop =>
      obtain ⟨rest, -, rfl⟩ := Ends.popKey_eq_some.1 hpop
      exact Iff.rfl
  | takeChar s c ends hpop =>
      obtain ⟨rest, -, rfl⟩ := Ends.popText_eq_some.1 hpop
      exact Iff.rfl
  | readFile s rest rest' hinput => simp [hinput]
  | around s ends htyping hinput => exact hinput

/-- Acts of some parties, and those that are nobody's own, lead from the first state to the second. -/
abbrev Run (own : Party → Prop) : KeyTraffic → KeyTraffic → Prop :=
  Relation.ReflTransGen fun s t => ∃ act, (∀ p, act.party? = some p → own p) ∧ Move act s t

variable {own own' : Party → Prop}

theorem Run.mono (h : Run own s t) (hown : ∀ p, own p → own' p) : Run own' s t :=
  Relation.ReflTransGen.mono (fun _ _ ⟨act, hact, hm⟩ => ⟨act, fun p hp => hown p (hact p hp), hm⟩) s t h

theorem Reach.run (h : Reach e s) (hrun : Run own s t) : Reach e t := by
  induction hrun with
  | refl => exact h
  | tail _ hstep ih =>
      obtain ⟨act, -, hm⟩ := hstep
      exact ih.move hm

theorem Run.keeps (h : Run own s t) (hj : ¬own (.keyboard j)) :
    t.gone j = s.gone j ∧ s.buffer j <+: t.buffer j := by
  induction h with
  | refl => exact ⟨rfl, List.prefix_rfl⟩
  | tail _ hstep ih =>
      obtain ⟨act, hact, hm⟩ := hstep
      obtain ⟨hgone, hbuffer⟩ := hm.keeps fun hp => hj (hact _ hp)
      exact ⟨hgone.trans ih.1, ih.2.trans hbuffer⟩

theorem Run.keepsText (h : Run own s t) (hinput : ¬own .input) :
    t.goneText = s.goneText ∧ ∃ more, t.ends.typing.text = s.ends.typing.text.map (· ++ more) := by
  induction h with
  | refl => exact ⟨rfl, [], by simp⟩
  | tail _ hstep ih =>
      obtain ⟨act, hact, hm⟩ := hstep
      obtain ⟨hgone, more, htext⟩ := hm.keepsText fun hp => hinput (hact _ hp)
      obtain ⟨hgone', more', htext'⟩ := ih
      refine ⟨hgone.trans hgone', more' ++ more, ?_⟩
      rw [htext, htext', Option.map_map]
      congr 1
      funext text
      exact List.append_assoc _ _ _

theorem Run.terminal_iff (h : Run own s t) : t.ends.input = .terminal ↔ s.ends.input = .terminal := by
  induction h with
  | refl => exact Iff.rfl
  | tail _ hstep ih =>
      obtain ⟨act, -, hm⟩ := hstep
      exact hm.terminal_iff.trans ih

end KeyTraffic

end CommandShell
