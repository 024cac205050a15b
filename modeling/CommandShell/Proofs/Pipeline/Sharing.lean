import CommandShell.Proofs.Chain.KeyCalls
import CommandShell.Proofs.Pipeline.Start

/-!
All stages of a pipeline share the keys that are typed.  Main statement: whatever the stages do, each of them
has all keys that have been found, in their order, once it has got what is being handed out: first those that
it has read or forgotten, then those that it can still read; and the first stage has the typed text so.
-/

namespace CommandShell

namespace KeyTraffic

/-- What a stage may do: read its own keys, read the input, and change what is around. -/
def Party.ofStage (i : Nat) (p : Party) : Prop := ∀ j, p = .keyboard j → j = i

theorem Party.ofStage_keyboard (i : Nat) : Party.ofStage i (.keyboard i) := by
  rintro j ⟨⟩
  rfl

theorem Party.ofStage_input (i : Nat) : Party.ofStage i .input := nofun

theorem Party.ofStage_others (i : Nat) : Party.ofStage i .others := nofun

end KeyTraffic

open KeyTraffic

namespace Ends

variable {e f g : Ends} {i : Nat}

/-- Stage `i` brings the first ends to the second ones, whoever has had what so far. -/
def Leads (i : Nat) (e f : Ends) : Prop :=
  ∀ s : KeyTraffic, s.handout = none → s.ends = e → ∃ t, Called (Party.ofStage i) s f t

theorem Leads.trans (h : e.Leads i f) (h' : f.Leads i g) : e.Leads i g := by
  intro s hidle hends
  obtain ⟨t, ht⟩ := h s hidle hends
  obtain ⟨u, hu⟩ := h' t ht.idle ht.ends_eq
  exact ⟨u, ht.trans hu⟩

/-- Typing is left alone. -/
theorem Leads.of_eq (htyping : f.typing = e.typing) (hinput : f.input = e.input) : e.Leads i f := by
  rintro s hidle rfl
  have hm := Move.around s f htyping (by rw [hinput])
  exact ⟨_, .single hm rfl (Party.ofStage_others i) hidle⟩

theorem Leads.refl (e : Ends) : e.Leads i e := .of_eq rfl rfl

theorem leads_tryRead (e : Ends) : e.Leads i e.tryRead.2 := by
  rintro s hidle rfl
  obtain ⟨t, ht, -⟩ := exists_tryRead (Party.ofStage_input i) hidle
  exact ⟨t, ht⟩

theorem leads_readChar (e : Ends) : e.Leads i e.readChar.source := by
  rintro s hidle rfl
  obtain ⟨t, ht, -⟩ := exists_readChar (Party.ofStage_input i) hidle
  exact ⟨t, ht⟩

theorem leads_readKey (e : Ends) : e.Leads i (e.readKey i).source := by
  rintro s hidle rfl
  obtain ⟨t, ht, -⟩ := exists_readKey (Party.ofStage_keyboard i) hidle
  exact ⟨t, ht⟩

theorem leads_flushKeys (e : Ends) : e.Leads i (e.flushKeys i) := by
  rintro s hidle rfl
  obtain ⟨t, ht, -⟩ := exists_flushKeys (Party.ofStage_keyboard i) hidle
  exact ⟨t, ht⟩

end Ends

namespace Chain

variable {c d : Chain} {i : Nat} {w : Worker}

theorem leads_of_fed {r : Reading} {fed : Option (Option Char)}
    (h : Reading.Fed (tryRead i) (readChar i) r c fed d) : c.ends.Leads i d.ends :=
  ends_of_fed .refl Ends.leads_tryRead Ends.leads_readChar h

theorem leads_complete (c : Chain) (i : Nat) (w : Worker) (result : Except CommandError Unit) :
    c.ends.Leads i (c.complete i w result).ends := by
  rw [ends_complete, endOutput]
  split <;> exact .of_eq rfl rfl

theorem leads_output (action : OutputAction) (next : w.body.State) :
    c.ends.Leads i (c.output i w action next).ends := by
  rcases hl : c.links[i]? with _ | l
  · rcases hperform : c.ends.output.perform c.world action with ⟨result, out, world⟩
    have haround : c.ends.Leads i { c.ends with output := out, world } := .of_eq rfl rfl
    simp only [output, hl, hperform]
    cases result with
    | ok => exact haround
    | error fault => exact haround.trans (leads_complete { c with ends := { c.ends with output := out, world } } i w _)
  · simp only [output, hl]
    exact .refl c.ends

theorem leads_serve (request : Request w.body.State) : c.ends.Leads i (c.serve i w request).ends := by
  cases request with
  | finish result => exact leads_complete c i w result
  | output action next => exact leads_output action next
  | flushKeys next => exact c.ends.leads_flushKeys
  | errorOutput | read | readKey | sleep | checkCancelled | history | sessions => exact .refl c.ends
  | cancel | endSession | environment | writeFile | flushFile => exact .of_eq rfl rfl
  | load path next =>
      unfold serve
      dsimp only
      split
      · exact leads_complete c i w _
      · exact .refl c.ends
  | makeFoldersFor path next =>
      unfold serve
      dsimp only
      split
      · exact leads_complete c i w _
      · exact .of_eq rfl rfl
  | openFile path append next =>
      unfold serve
      dsimp only
      split
      · exact leads_complete c i w _
      · exact .of_eq rfl rfl

theorem leads_pushChar {x : Char} {rest : List Char} {next : w.body.State}
    (h : c.pushChar i w x rest next = some d) : c.ends.Leads i d.ends := by
  rw [pushChar] at h
  split at h
  · cases h
    exact .refl c.ends
  · split at h <;> cases h <;> exact .refl c.ends

theorem leads_readOn {r : Reading} {next : Option String → w.body.State} (h : c.readOn i w r next = some d) :
    c.ends.Leads i d.ends := by
  rw [readOn] at h
  rcases hstep : r.step (tryRead i) (readChar i) c with ⟨next?, e⟩
  obtain ⟨fed, hfed, -⟩ := Reading.fed_of_step hstep
  have hends := leads_of_fed hfed
  rw [hstep] at h
  split at h
  · next heq =>
      cases heq
      cases h
      exact hends
  · next heq =>
      cases heq
      cases h
      exact hends
  · next heq =>
      cases heq
      split at h <;> cases h
      exact hends

theorem leads_lookForKey (waited : Bool) (next : Option Key → w.body.State) :
    c.ends.Leads i (c.lookForKey i w waited next).ends := by
  have hends := c.ends.leads_readKey (i := i)
  rw [lookForKey]
  split
  · exact .refl c.ends
  · split
    all_goals
      next htake => rwa [htake] at hends

/-- A step of a stage is made of acts that are its own. -/
theorem leads_of_step (h : c.step i = some d) : c.ends.Leads i d.ends := by
  rw [step] at h
  split at h
  · cases h
  · split at h
    · cases h
    · split at h
      · cases h
      · cases h
        exact leads_serve _
      · cases h
        exact .refl c.ends
      · exact leads_pushChar h
      · exact leads_readOn h
      · cases h
        exact leads_lookForKey _ _
      · cases h
        exact .refl c.ends

end Chain

namespace KeyTraffic

variable {e f : Ends} {s t : KeyTraffic}

/-- Once nothing is handed out, what a stage has had and what it can still read are all keys that have been
found, in their order, and so for the text of a first stage that reads the terminal; keys that are being
handed out are still due to those who have not got them.  Nobody takes away keys of another stage, neither in
one act nor in a call that is made and returns; and what a stage does in a step of a running chain is made of
such acts. -/
theorem gone_append_buffer (he : e.Fresh) (h : Reach e s) :
    s.ends.typing.keys.length = e.typing.keys.length ∧
      (∀ i < e.typing.keys.length, s.gone i ++ s.buffer i ++ s.due i = s.typed) ∧
      (e.input = .terminal → ∃ text, s.ends.typing.text = some text ∧
        s.goneText ++ text ++ s.dueText = s.typed.filterMap Typing.charOf?) ∧
      (e.input ≠ .terminal → s.ends.typing.text = none) ∧
      (∀ act t, Move act s t → ∀ j, act.party? ≠ some (.keyboard j) →
        t.gone j = s.gone j ∧ s.buffer j <+: t.buffer j) ∧
      (s.handout = none → ∀ (call : Access) (f : Ends), call.ends? s.ends = some f →
        ∃ t, Reach e t ∧ t.handout = none ∧ t.ends = f ∧ call.Told s t ∧
          ∀ j, call.party ≠ .keyboard j → t.gone j = s.gone j ∧ s.buffer j <+: t.buffer j) ∧
      (s.handout = none → ∀ (c : Chain) (i : Nat) (d : Chain), c.ends = s.ends → c.step i = some d →
        ∃ t, Reach e t ∧ t.handout = none ∧ t.ends = d.ends ∧
          ∀ j, j ≠ i → t.gone j = s.gone j ∧ s.buffer j <+: t.buffer j) := by
  have hb := balanced_of_reach he h
  refine ⟨hb.length, hb.keys, ?_, ?_, fun act t hm j => hm.keeps, ?_, ?_⟩
  · intro hin
    obtain ⟨text, htext⟩ := Option.isSome_iff_exists.1 (hb.hears.2 hin)
    exact ⟨text, htext, hb.text text htext⟩
  · intro hin
    exact Option.not_isSome_iff_eq_none.1 (mt hb.hears.1 hin)
  · intro hidle call f hcall
    obtain ⟨t, ht, htold⟩ := exists_called hidle hcall
    refine ⟨t, h.run ht.run, ht.idle, ht.ends_eq, htold, fun j hj => ht.run.keeps hj⟩
  · intro hidle c i d hends hstep
    obtain ⟨t, ht⟩ := Chain.leads_of_step hstep s hidle hends.symm
    refine ⟨t, h.run ht.run, ht.idle, ht.ends_eq, fun j hj => ht.run.keeps fun hown => hj (hown j rfl)⟩

/-- Two stages at a terminal. -/
def pairAtTerminal : Pipeline where
  invocations := [.failed (.parse .emptyLine), .failed (.parse .emptyLine)]
  input := .terminal
  output := .null
  errorSink := .null
  token := 1
  guard := ⟨0, 0⟩
  setting := { registry := {} }

/-- The first stage reads a key while the second one has not got it. -/
theorem gone_append_buffer_of_handout :
    let w : World := .detached ⟨.empty, ""⟩ none { keys := .batches [none, some [.char 'a', .char '\r', .up]] }
    let e := (pairAtTerminal.start w).ends
    ∃ s, e.Fresh ∧ Reach e s ∧ s.gone 0 = [.char 'a'] ∧ s.buffer 1 = [] ∧
      s.due 1 = [.char 'a', .char '\r', .up] ∧
      ∀ i < 2, s.gone i ++ s.buffer i ++ s.due i = [.char 'a', .char '\r', .up] := by
  intro w e
  have he := Pipeline.fresh_ends_start pairAtTerminal w
  have h := (Reach.start (e := e)).move (.look _ _ _ rfl rfl)
  have h := h.move (.handKeys _ _ rfl (by decide))
  have h := h.move (.takeKey _ 0 _ _ rfl)
  obtain ⟨-, hkeys, -⟩ := gone_append_buffer he h
  exact ⟨_, he, h, rfl, rfl, rfl, hkeys⟩

end KeyTraffic

end CommandShell
