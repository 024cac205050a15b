import CommandShell.Proofs.Chain.KeyTraffic
import CommandShell.Proofs.Link.Traffic

/-!
Reading keys and text, as runs of single acts.  Main statement: whatever is called while nothing is handed out
is made of acts of the one who calls, and what the call answers is what he has taken.
-/

namespace CommandShell.KeyTraffic

variable {s t u : KeyTraffic} {e f : Ends} {i : Nat} {own own' : Party → Prop}

/-- A call that has been made while nothing was handed out, and has led to the given ends. -/
structure Called (own : Party → Prop) (s : KeyTraffic) (ends : Ends) (t : KeyTraffic) : Prop where
  run : Run own s t
  idle : t.handout = none
  ends_eq : t.ends = ends

theorem Called.refl (hidle : s.handout = none) : Called own s s.ends s := ⟨.refl, hidle, rfl⟩

theorem Called.single {act : Act} {p : Party} (hm : Move act s t) (hp : act.party? = some p) (hown : own p)
    (hidle : t.handout = none) : Called own s t.ends t := by
  refine ⟨.single ⟨act, ?_, hm⟩, hidle, rfl⟩
  intro q hq
  rw [hp, Option.some_inj] at hq
  exact hq ▸ hown

theorem Called.trans (h : Called own s e t) (h' : Called own t f u) : Called own s f u :=
  ⟨Relation.ReflTransGen.trans h.run h'.run, h'.idle, h'.ends_eq⟩

theorem Called.mono (h : Called own s e t) (hown : ∀ p, own p → own' p) : Called own' s e t :=
  ⟨h.run.mono hown, h.idle, h.ends_eq⟩

/-- The keys come to the stages after the first ones, and to the text. -/
theorem exists_handed {before rest : List (List Key)} {h : Handout} (hout : s.handout = some h)
    (hkeys : s.ends.typing.keys = before ++ rest) (hserved : h.served = before.length) :
    ∃ t, Called (fun _ => False) s { s.ends with typing := {
      keys := before ++ rest.map (· ++ h.keys), text := (s.ends.typing.pushText h.keys).text } } t := by
  induction rest generalizing before s h with
  | nil =>
      have hall : s.ends.typing.keys.length ≤ h.served := by simp [hkeys, hserved]
      have hm := Move.handText s h hout hall
      refine ⟨_, .single ⟨.hand, nofun, hm⟩, rfl, ?_⟩
      simp [Typing.pushText, hkeys]
  | cons keys rest ih =>
      have hmore : h.served < s.ends.typing.keys.length := by simp [hkeys, hserved]
      obtain ⟨u, hm, hout', hends⟩ : ∃ u, Move .hand s u ∧ u.handout = some ⟨h.keys, h.served + 1⟩ ∧
          u.ends = { s.ends with typing := s.ends.typing.pushKeys h.served h.keys } :=
        ⟨_, .handKeys s h hout hmore, rfl, rfl⟩
      have hkeys' : u.ends.typing.keys = (before ++ [keys ++ h.keys]) ++ rest := by
        simp [hends, Typing.pushKeys, hkeys, hserved, List.modify_eq_take_cons_drop]
      obtain ⟨t, ht⟩ := ih hout' hkeys' (by simp [hserved])
      refine ⟨t, .head ⟨.hand, nofun, hm⟩ ht.run, ht.idle, ?_⟩
      rw [ht.ends_eq, hends]
      simp [Typing.pushKeys, Typing.pushText]

/-- The keys have been read or forgotten by a stage. -/
def TookKeys (i : Nat) (s : KeyTraffic) (keys : List Key) (t : KeyTraffic) : Prop := t.gone i = s.gone i ++ keys

theorem TookKeys.refl (i : Nat) (s : KeyTraffic) : TookKeys i s [] s := (List.append_nil _).symm

theorem TookKeys.trans {as bs : List Key} (h : TookKeys i s as t) (h' : TookKeys i t bs u) :
    TookKeys i s (as ++ bs) u := by
  rw [TookKeys, h', h, List.append_assoc]

/-- The text has been read or forgotten by the first stage, unless it is not typed text. -/
structure TookText (s : KeyTraffic) (text : List Char) (t : KeyTraffic) : Prop where
  terminal_iff : t.ends.input = .terminal ↔ s.ends.input = .terminal
  gone : s.ends.input = .terminal → t.goneText = s.goneText ++ text

theorem TookText.refl (s : KeyTraffic) : TookText s [] s := ⟨Iff.rfl, fun _ => (List.append_nil _).symm⟩

theorem TookText.trans {as bs : List Char} (h : TookText s as t) (h' : TookText t bs u) : TookText s (as ++ bs) u := by
  refine ⟨h'.terminal_iff.trans h.terminal_iff, fun hin => ?_⟩
  rw [h'.gone (h.terminal_iff.2 hin), h.gone hin, List.append_assoc]

theorem exists_pump (own : Party → Prop) (hidle : s.handout = none) :
    ∃ t, Called own s s.ends.pump.2 t ∧ (∀ i, TookKeys i s [] t) ∧ TookText s [] t := by
  rcases hlook : s.ends.world.readKeys with ⟨keys, world⟩
  obtain ⟨u, hm, hout, hends⟩ : ∃ u, Move .look s u ∧ u.handout = Handout.ofBatch keys ∧
      u.ends = { s.ends with world } := ⟨_, .look s keys world hidle hlook, rfl, rfl⟩
  obtain ⟨t, ht⟩ : ∃ t, Called (fun _ => False) s s.ends.pump.2 t := by
    rcases keys with _ | _ | ⟨k, ks⟩
    · refine ⟨u, .single ⟨.look, nofun, hm⟩, hout, ?_⟩
      simp [Ends.pump, hlook, hends]
    · refine ⟨u, .single ⟨.look, nofun, hm⟩, hout, ?_⟩
      simp [Ends.pump, hlook, hends]
    · obtain ⟨t, ht⟩ := exists_handed hout (List.nil_append _).symm rfl
      refine ⟨t, .head ⟨.look, nofun, hm⟩ ht.run, ht.idle, ?_⟩
      rw [ht.ends_eq]
      simp [Ends.pump, hlook, hends, Typing.push, Typing.pushText]
  refine ⟨t, ht.mono fun _ => False.elim, ?_, ht.run.terminal_iff, ?_⟩
  · intro i
    rw [TookKeys, (ht.run.keeps id).1, List.append_nil]
  · rw [(ht.run.keepsText id).1, List.append_nil]
    exact fun _ => rfl

/-- What is tried again and again is tried until something has been taken. -/
theorem exists_await {α : Type} {attempt : Ends → Take α Ends} {R : KeyTraffic → List α → KeyTraffic → Prop}
    (hrefl : ∀ s, R s [] s) (htrans : ∀ {s t u as bs}, R s as t → R t bs u → R s (as ++ bs) u)
    (hattempt : ∀ s, s.handout = none →
      ∃ t, Called own s (attempt s.ends).source t ∧ R s (attempt s.ends).item?.toList t)
    (fuel : Nat) (hidle : s.handout = none) : ∃ t, Called own s (Ends.await attempt fuel s.ends).source t ∧
      R s (Ends.await attempt fuel s.ends).item?.toList t := by
  induction fuel generalizing s with
  | zero => exact ⟨s, .refl hidle, hrefl s⟩
  | succ fuel ih =>
      obtain ⟨t, ht, htook⟩ := hattempt s hidle
      rw [Ends.await]
      split
      · next hblocked =>
          rw [hblocked] at ht htook
          obtain rfl := ht.ends_eq
          split
          · exact ⟨t, ht, htook⟩
          · obtain ⟨u, hu, htook'⟩ := ih ht.idle
            exact ⟨u, ht.trans hu, htrans htook htook'⟩
      · exact ⟨t, ht, htook⟩

/-- A line that has been begun is made a whole one by the characters among the keys, the last of which is
Enter. -/
def MakesLine (line : String) (keys : List Key) (text : String) : Prop :=
  ∃ typed c, (c = '\n' ∨ c = '\r') ∧ keys = typed ++ [.char c] ∧
    text.toList = line.toList ++ typed.filterMap Typing.charOf?

theorem MakesLine.enter {line : String} {c : Char} (hc : c = '\n' ∨ c = '\r') : MakesLine line [.char c] line :=
  ⟨[], c, hc, rfl, (List.append_nil _).symm⟩

theorem MakesLine.cons {line line' text : String} {k : Key} {keys : List Key}
    (hline : line'.toList = line.toList ++ [k].filterMap Typing.charOf?) (h : MakesLine line' keys text) :
    MakesLine line (k :: keys) text := by
  obtain ⟨typed, c, hc, rfl, htyped⟩ := h
  refine ⟨k :: typed, c, hc, rfl, ?_⟩
  rw [htyped, hline, List.append_assoc, ← List.filterMap_append, List.singleton_append]

section Keyboard

variable (hown : own (.keyboard i))

include hown

theorem exists_popKey (hidle : s.handout = none) :
    ∃ t, Called own s (s.ends.popKey i).2 t ∧ TookKeys i s (s.ends.popKey i).1.toList t := by
  rcases hpop : s.ends.popKey i with ⟨_ | k, ends⟩
  · obtain rfl := Ends.popKey_eq_none hpop
    exact ⟨s, .refl hidle, .refl i s⟩
  · exact ⟨_, .single (.takeKey s i k ends hpop) rfl hown hidle, Function.update_self _ _ _⟩

theorem exists_tryKey (hidle : s.handout = none) :
    ∃ t, Called own s (s.ends.tryKey i).2 t ∧ TookKeys i s (s.ends.tryKey i).1.toList t := by
  obtain ⟨t, ht, htook⟩ := exists_popKey hown hidle
  rw [Ends.tryKey]
  rcases hpop : s.ends.popKey i with ⟨_ | k, ends⟩
  · rw [hpop] at ht htook
    obtain rfl := ht.ends_eq
    dsimp only
    split
    · obtain ⟨u, hu, hpumped, -⟩ := exists_pump own ht.idle
      obtain ⟨v, hv, htook'⟩ := exists_popKey hown hu.idle
      rw [hu.ends_eq] at hv htook'
      exact ⟨v, ht.trans (hu.trans hv), htook.trans ((hpumped i).trans htook')⟩
    · exact ⟨t, ht, htook⟩
  · rw [hpop] at ht htook
    exact ⟨t, ht, htook⟩

theorem exists_readKey (hidle : s.handout = none) :
    ∃ t, Called own s (s.ends.readKey i).source t ∧ TookKeys i s (s.ends.readKey i).item?.toList t := by
  obtain ⟨t, ht, htook⟩ := exists_tryKey hown hidle
  rw [Ends.readKey]
  rcases htry : s.ends.tryKey i with ⟨_ | k, ends⟩
  · rw [htry] at ht htook
    dsimp only
    split <;> exact ⟨t, ht, htook⟩
  · rw [htry] at ht htook
    exact ⟨t, ht, htook⟩

theorem exists_awaitKey (fuel : Nat) (hidle : s.handout = none) :
    ∃ t, Called own s (Ends.await (Ends.readKey · i) fuel s.ends).source t ∧
      TookKeys i s (Ends.await (Ends.readKey · i) fuel s.ends).item?.toList t :=
  exists_await (TookKeys.refl i) TookKeys.trans (fun _ => exists_readKey hown) fuel hidle

theorem exists_readTypedLine (fuel : Nat) (line : String) (hidle : s.handout = none) :
    ∃ t keys, Called own s (Ends.readTypedLine i fuel line s.ends).2 t ∧ TookKeys i s keys t ∧
      ∀ text, (Ends.readTypedLine i fuel line s.ends).1 = some text → MakesLine line keys text := by
  induction fuel generalizing s line with
  | zero => exact ⟨s, [], .refl hidle, .refl i s, nofun⟩
  | succ fuel ih =>
      obtain ⟨t, ht, htook⟩ := exists_awaitKey hown fuel hidle
      rw [Ends.readTypedLine]
      rcases hawait : Ends.await (Ends.readKey · i) fuel s.ends with ⟨k, ends⟩ | ends | ends
      · rw [hawait] at ht htook
        obtain rfl := ht.ends_eq
        -- a key that is not Enter is read, and then the rest of the line
        have hmore : ∀ line' : String, line'.toList = line.toList ++ [k].filterMap Typing.charOf? →
            ∃ u keys, Called own s (Ends.readTypedLine i fuel line' t.ends).2 u ∧ TookKeys i s keys u ∧
              ∀ text, (Ends.readTypedLine i fuel line' t.ends).1 = some text → MakesLine line keys text := by
          intro line' hline
          obtain ⟨u, keys, hu, htook', hanswer⟩ := ih line' ht.idle
          exact ⟨u, k :: keys, ht.trans hu, htook.trans htook', fun text htext => .cons hline (hanswer text htext)⟩
        cases k with
        | char c =>
            dsimp only
            split
            · next henter =>
                refine ⟨t, [.char c], ht, htook, ?_⟩
                rintro text ⟨⟩
                exact .enter (by simpa using henter)
            · next henter =>
                refine hmore (line.push c) ?_
                have hc : c ≠ '\r' := fun hc => henter (by simp [hc])
                simp [Typing.charOf?, hc]
        | up | down | left | right | home | finish => exact hmore line (List.append_nil _).symm
      all_goals
        rw [hawait] at ht htook
        exact ⟨t, [], ht, htook, nofun⟩

theorem exists_dropKeys (hidle : s.handout = none) :
    ∃ t, Called own s (s.ends.dropKeys i) t ∧ t.buffer i = [] := by
  refine ⟨_, .single (.dropKeys s i) rfl hown hidle, ?_⟩
  simp only [buffer, Ends.dropKeys, List.getElem?_set, if_true]
  split <;> rfl

theorem exists_flushKeys (hidle : s.handout = none) :
    ∃ t, Called own s (s.ends.flushKeys i) t ∧ t.buffer i = [] := by
  rw [Ends.flushKeys]
  split
  · obtain ⟨t, ht, -⟩ := exists_pump own hidle
    obtain ⟨u, hu, hempty⟩ := exists_dropKeys hown ht.idle
    rw [ht.ends_eq] at hu
    exact ⟨u, ht.trans hu, hempty⟩
  · exact exists_dropKeys hown hidle

end Keyboard

section Input

variable (hown : own .input)

include hown

theorem exists_popText (hidle : s.handout = none) :
    ∃ t, Called own s s.ends.popText.2 t ∧ TookText s s.ends.popText.1.toList t := by
  rcases hpop : s.ends.popText with ⟨_ | c, ends⟩
  · obtain rfl := Ends.popText_eq_none hpop
    exact ⟨s, .refl hidle, .refl s⟩
  · have hm := Move.takeChar s c ends hpop
    exact ⟨_, .single hm rfl hown hidle, hm.terminal_iff, fun _ => rfl⟩

theorem exists_readFile {rest rest' : List Char} (hin : s.ends.input = .redirected rest) (hidle : s.handout = none)
    (text : List Char) : ∃ t, Called own s { s.ends with input := .redirected rest' } t ∧ TookText s text t := by
  have hm := Move.readFile s rest rest' hin
  exact ⟨_, .single hm rfl hown hidle, hm.terminal_iff, by simp [hin]⟩

theorem exists_tryRead (hidle : s.handout = none) :
    ∃ t, Called own s s.ends.tryRead.2 t ∧ TookText s s.ends.tryRead.1.toList t := by
  obtain ⟨t, ht, htook⟩ := exists_popText hown hidle
  rw [Ends.tryRead]
  split
  · exact ⟨s, .refl hidle, .refl s⟩
  · next rest hin => exact exists_readFile hown hin hidle _
  · rcases hpop : s.ends.popText with ⟨_ | c, ends⟩
    · rw [hpop] at ht htook
      obtain rfl := ht.ends_eq
      obtain ⟨u, hu, -, hpumped⟩ := exists_pump own ht.idle
      obtain ⟨v, hv, htook'⟩ := exists_popText hown hu.idle
      rw [hu.ends_eq] at hv htook'
      exact ⟨v, ht.trans (hu.trans hv), htook.trans (hpumped.trans htook')⟩
    · rw [hpop] at ht htook
      exact ⟨t, ht, htook⟩

theorem exists_readChar (hidle : s.handout = none) :
    ∃ t, Called own s s.ends.readChar.source t ∧ TookText s s.ends.readChar.item?.toList t := by
  obtain ⟨t, ht, htook⟩ := exists_popText hown hidle
  rcases hin : s.ends.input with _ | rest | _
  · simp only [Ends.readChar, hin]
    split
    · exact ⟨s, .refl hidle, .refl s⟩
    · rcases hpop : s.ends.popText with ⟨_ | c, ends⟩
      · rw [hpop] at ht htook
        obtain rfl := ht.ends_eq
        obtain ⟨u, hu, -, hpumped⟩ := exists_pump own ht.idle
        obtain ⟨v, hv, htook'⟩ := exists_popText hown hu.idle
        rw [hu.ends_eq] at hv htook'
        dsimp only
        split
        · split
          · exact ⟨u, ht.trans hu, htook.trans hpumped⟩
          · rcases hpop : t.ends.pump.2.popText with ⟨_ | c, ends⟩
            all_goals
              rw [hpop] at hv htook'
              exact ⟨v, ht.trans (hu.trans hv), htook.trans (hpumped.trans htook')⟩
        · exact ⟨u, ht.trans hu, htook.trans hpumped⟩
      · rw [hpop] at ht htook
        exact ⟨t, ht, htook⟩
  · simp only [Ends.readChar, hin]
    split <;> exact exists_readFile hown hin hidle _
  · simp only [Ends.readChar, hin]
    exact ⟨s, .refl hidle, .refl s⟩

theorem exists_awaitChar (fuel : Nat) (hidle : s.handout = none) :
    ∃ t, Called own s (Ends.await Ends.readChar fuel s.ends).source t ∧
      TookText s (Ends.await Ends.readChar fuel s.ends).item?.toList t :=
  exists_await TookText.refl TookText.trans (fun _ => exists_readChar hown) fuel hidle

/-- What a read is fed has been taken. -/
theorem exists_fed {r : Reading} {fed : Option (Option Char)} {fuel : Nat} {ends : Ends}
    (h : Reading.Fed Ends.tryRead (Ends.await Ends.readChar fuel) r s.ends fed ends) (hidle : s.handout = none) :
    ∃ t, Called own s ends t ∧ TookText s fed.join.toList t := by
  cases h with
  | tried c _ heager htry =>
      have htried := exists_tryRead hown hidle
      rwa [htry] at htried
  | got c _ hwait htake | ended _ hwait htake | blocked _ hwait htake =>
      have hread := exists_awaitChar hown fuel hidle
      rwa [htake] at hread

/-- A read that keeps all characters answers with what it has taken. -/
theorem exists_run {r : Reading} {fuel n : Nat} {answer : Option String} {ends : Ends}
    (h : r.run Ends.tryRead (Ends.await Ends.readChar fuel) n s.ends = some (answer, ends))
    (hidle : s.handout = none) :
    ∃ t text, Called own s ends t ∧ TookText s text t ∧
      ((∀ line, r ≠ .line line) → (answer.getD "").toList = r.held ++ text) := by
  induction n generalizing s r with
  | zero => cases h
  | succ n ih =>
      rw [Reading.run] at h
      rcases hstep : r.step Ends.tryRead (Ends.await Ends.readChar fuel) s.ends with ⟨_ | next, ends'⟩
      · rw [hstep] at h
        cases h
      · obtain ⟨fed, hfed, hnext⟩ := Reading.fed_of_step hstep
        obtain ⟨t, ht, htook⟩ := exists_fed hown hfed hidle
        obtain rfl := ht.ends_eq
        obtain ⟨c, rfl, rfl⟩ := Option.map_eq_some_iff.1 hnext.symm
        rw [hstep] at h
        rcases hfeed : r.feed c with r' | text
        · rw [hfeed] at h
          obtain ⟨u, text, hu, htook', hanswer⟩ := ih h ht.idle
          refine ⟨u, c.toList ++ text, ht.trans hu, htook.trans htook', fun hraw => ?_⟩
          obtain ⟨hheld, hraw'⟩ := Reading.held_of_more hraw hfeed
          rw [hanswer hraw', hheld, List.append_assoc]
        · rw [hfeed] at h
          cases h
          exact ⟨t, c.toList, ht, htook, fun hraw => Reading.held_of_feed_done hraw hfeed⟩

theorem exists_dropText (hidle : s.handout = none) :
    ∃ t, Called own s s.ends.dropText t ∧ ∀ text, t.ends.typing.text = some text → text = [] := by
  refine ⟨_, .single (.dropText s) rfl hown hidle, ?_⟩
  intro text htext
  obtain ⟨-, -, rfl⟩ := Option.map_eq_some_iff.1 htext
  rfl

theorem exists_flushInput (hidle : s.handout = none) : ∃ t, Called own s s.ends.flushInput t ∧
    (s.ends.input = .terminal → ∀ text, t.ends.typing.text = some text → text = []) := by
  rw [Ends.flushInput]
  split
  · next hin => exact ⟨s, .refl hidle, by simp [hin]⟩
  · next rest hin =>
      obtain ⟨t, ht, -⟩ := exists_readFile hown hin hidle []
      exact ⟨t, ht, by simp [hin]⟩
  · obtain ⟨t, ht, -⟩ := exists_pump own hidle
    obtain ⟨u, hu, hempty⟩ := exists_dropText hown ht.idle
    rw [ht.ends_eq] at hu
    exact ⟨u, ht.trans hu, fun _ => hempty⟩

end Input

/-- What the keyboards, the input and the pump offer to be called.  The fuel is how often a call that waits
may try again. -/
inductive Access where
  | pump
  | tryKey (stage : Nat)
  | readKey (stage fuel : Nat)
  | readTypedLine (stage fuel : Nat)
  | flushKeys (stage : Nat)
  | tryRead
  | readChar (fuel : Nat)
  | read (fuel : Nat) (extent : Extent)
  | flushInput

namespace Access

/-- Who makes the call. -/
def party : Access → Party
  | .pump => .others
  | .tryKey i | .readKey i _ | .readTypedLine i _ | .flushKeys i => .keyboard i
  | .tryRead | .readChar _ | .read _ _ | .flushInput => .input

/-- The ends when the call returns; none if the fuel of a longer read runs out. -/
def ends? : Access → Ends → Option Ends
  | .pump, e => some e.pump.2
  | .tryKey i, e => some (e.tryKey i).2
  | .readKey i fuel, e => some (Ends.await (Ends.readKey · i) fuel e).source
  | .readTypedLine i fuel, e => some (Ends.readTypedLine i fuel "" e).2
  | .flushKeys i, e => some (e.flushKeys i)
  | .tryRead, e => some e.tryRead.2
  | .readChar fuel, e => some (Ends.await Ends.readChar fuel e).source
  | .read fuel extent, e => (e.read fuel extent).map (·.2)
  | .flushInput, e => some e.flushInput

/-- The answer of the call is what has been taken meanwhile: keys, the characters of a line up to Enter, or
typed text.  After a flush nothing is left. -/
def Told : Access → KeyTraffic → KeyTraffic → Prop
  | .pump, s, t => (∀ i, TookKeys i s [] t) ∧ TookText s [] t
  | .tryKey i, s, t => TookKeys i s (s.ends.tryKey i).1.toList t
  | .readKey i fuel, s, t => TookKeys i s (Ends.await (Ends.readKey · i) fuel s.ends).item?.toList t
  | .readTypedLine i fuel, s, t => ∀ line, (Ends.readTypedLine i fuel "" s.ends).1 = some line →
      ∃ keys, MakesLine "" keys line ∧ TookKeys i s keys t
  | .flushKeys i, _, t => t.buffer i = []
  | .tryRead, s, t => TookText s s.ends.tryRead.1.toList t
  | .readChar fuel, s, t => TookText s (Ends.await Ends.readChar fuel s.ends).item?.toList t
  | .read fuel extent, s, t => extent ≠ .line → ∀ answer f, s.ends.read fuel extent = some (answer, f) →
      TookText s (answer.getD "").toList t
  | .flushInput, s, t => s.ends.input = .terminal → ∀ text, t.ends.typing.text = some text → text = []

end Access

theorem exists_called {call : Access} {f : Ends} (hidle : s.handout = none) (hcall : call.ends? s.ends = some f) :
    ∃ t, Called (call.party = ·) s f t ∧ call.Told s t := by
  cases call with
  | pump =>
      cases hcall
      exact exists_pump _ hidle
  | tryKey i =>
      cases hcall
      exact exists_tryKey rfl hidle
  | readKey i fuel =>
      cases hcall
      exact exists_awaitKey rfl fuel hidle
  | readTypedLine i fuel =>
      cases hcall
      obtain ⟨t, keys, ht, htook, hline⟩ := exists_readTypedLine (Eq.refl (Party.keyboard i)) fuel "" hidle
      exact ⟨t, ht, fun line hanswer => ⟨keys, hline line hanswer, htook⟩⟩
  | flushKeys i =>
      cases hcall
      exact exists_flushKeys rfl hidle
  | tryRead =>
      cases hcall
      exact exists_tryRead rfl hidle
  | readChar fuel =>
      cases hcall
      exact exists_awaitChar rfl fuel hidle
  | read fuel extent =>
      obtain ⟨⟨answer, f⟩, hread, rfl⟩ := Option.map_eq_some_iff.1 hcall
      obtain ⟨t, text, ht, htook, hanswer⟩ := exists_run (Eq.refl Party.input) hread hidle
      refine ⟨t, ht, ?_⟩
      intro hraw answer' f' hread'
      cases hread.symm.trans hread'
      have hstart : ∀ line, Reading.start extent ≠ .line line := by
        cases extent with
        | character | chunk | all => exact nofun
        | line => exact absurd rfl hraw
      rwa [hanswer hstart, Reading.held_start]
  | flushInput =>
      cases hcall
      exact exists_flushInput rfl hidle

end CommandShell.KeyTraffic
