import CommandShell.Proofs.Chain.KeyCalls

/-!
What reading does around a chain.  Main statement: whatever is read, typed text, keys or the input, of the
world only the terminal is looked at for keys, and the output is left alone.
-/

namespace CommandShell

/-- The second world is the first one after keys have been looked for, any number of times. -/
abbrev World.Looked : World → World → Prop := Relation.ReflTransGen fun w v => v = w.readKeys.2

namespace Ends

/-- The second ends are the first ones after something has been read. -/
structure Read (e f : Ends) : Prop where
  token : f.token = e.token
  output : f.output = e.output
  world : e.world.Looked f.world

variable {e f g : Ends}

/-- What is typed and what is left of the input may differ. -/
theorem Read.of_eq (htoken : f.token = e.token) (houtput : f.output = e.output) (hworld : f.world = e.world) :
    e.Read f :=
  ⟨htoken, houtput, hworld ▸ .refl⟩

theorem Read.refl (e : Ends) : e.Read e := .of_eq rfl rfl rfl

theorem Read.trans (h : e.Read f) (h' : f.Read g) : e.Read g :=
  ⟨h'.token.trans h.token, h'.output.trans h.output, Relation.ReflTransGen.trans h.world h'.world⟩

open KeyTraffic in
/-- Whoever reads leaves all else to others. -/
theorem Read.of_move {s t : KeyTraffic} {act : Act} (hm : Move act s t) (hact : act.party? ≠ some .others) :
    s.ends.Read t.ends := by
  cases hm with
  | look s keys world hidle hlook =>
      have hlooked : s.ends.world.Looked s.ends.world.readKeys.2 := .single rfl
      rw [hlook] at hlooked
      exact ⟨rfl, rfl, hlooked⟩
  | takeKey s i k ends hpop =>
      obtain ⟨rest, -, rfl⟩ := popKey_eq_some.1 hpop
      exact .of_eq rfl rfl rfl
  | takeChar s c ends hpop =>
      obtain ⟨rest, -, rfl⟩ := popText_eq_some.1 hpop
      exact .of_eq rfl rfl rfl
  | handKeys | handText | dropKeys | dropText | readFile => exact .of_eq rfl rfl rfl
  | around => exact absurd rfl hact

open KeyTraffic in
theorem Read.of_run {own : Party → Prop} {s t : KeyTraffic} (h : Run own s t) (hown : ¬own .others) :
    s.ends.Read t.ends := by
  induction h with
  | refl => exact .refl _
  | tail _ hstep ih =>
      obtain ⟨act, hact, hm⟩ := hstep
      exact ih.trans (.of_move hm fun hothers => hown (hact _ hothers))

open KeyTraffic in
/-- A party that reads has come to some ends. -/
theorem Read.of_called {p : Party} {t : KeyTraffic} (h : Called (· = p) { ends := e } f t) (hp : p ≠ .others) :
    e.Read f := by
  rw [← h.ends_eq]
  exact .of_run h.run (Ne.symm hp)

theorem read_tryRead (e : Ends) : e.Read e.tryRead.2 := by
  obtain ⟨t, ht, -⟩ := @KeyTraffic.exists_tryRead { ends := e } (· = .input) rfl rfl
  exact .of_called ht nofun

theorem read_readChar (e : Ends) : e.Read e.readChar.source := by
  obtain ⟨t, ht, -⟩ := @KeyTraffic.exists_readChar { ends := e } (· = .input) rfl rfl
  exact .of_called ht nofun

theorem read_readKey (e : Ends) (i : Nat) : e.Read (e.readKey i).source := by
  obtain ⟨t, ht, -⟩ := @KeyTraffic.exists_readKey { ends := e } i (· = .keyboard i) rfl rfl
  exact .of_called ht nofun

theorem read_flushKeys (e : Ends) (i : Nat) : e.Read (e.flushKeys i) := by
  obtain ⟨t, ht, -⟩ := @KeyTraffic.exists_flushKeys { ends := e } i (· = .keyboard i) rfl rfl
  exact .of_called ht nofun

end Ends

namespace Chain

theorem read_of_fed {c d : Chain} {i : Nat} {r : Reading} {fed : Option (Option Char)}
    (h : Reading.Fed (tryRead i) (readChar i) r c fed d) : c.ends.Read d.ends :=
  ends_of_fed .refl Ends.read_tryRead Ends.read_readChar h

end Chain

end CommandShell
