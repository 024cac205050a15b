import CommandShell.Proofs.Schema.Binding

/-!
The order in which options are given.  Main statement: it makes no difference to what is bound and none to the
fault that is found, as long as the small names of the options are different.
-/

namespace CommandShell

open Text Line

variable {given given' : List RawOption}

/-- Options with different small names are under these names in any order. -/
theorem byName_perm (hgiven : (given.map (lowercase ·.name)).Nodup) (hperm : given.Perm given') :
    byName given = byName given' := by
  have hgiven' : (given'.map (lowercase ·.name)).Nodup := (hperm.map _).nodup_iff.1 hgiven
  refine Dict.ext_get? fun k => Option.ext fun o => ?_
  rw [get?_byName_eq_some_iff hgiven, get?_byName_eq_some_iff hgiven', hperm.mem_iff]

/-- A schema sees the given options by their small names only. -/
theorem Schema.bindOptions_congr (s : Schema) (h : byName given = byName given') :
    s.bindOptions given = s.bindOptions given' := by
  rw [bindOptions, bindOptions, ← byName, ← byName, h]

/-- The values alone select the schema. -/
theorem Signature.select_eq (sig : Signature) (values : List String) (given : List RawOption) :
    sig.select ⟨values, given⟩ = (sig.select ⟨values, []⟩).map fun (s, rest) => (s, ⟨rest.positional, given⟩) := by
  rw [select, select]
  dsimp only
  cases values.head?.bind sig.find? with
  | some s => rfl
  | none =>
      cases sig.root with
      | some root => rfl
      | none =>
          dsimp only
          split
          · rfl
          · cases values <;> rfl

/-- Only the selected schema sees the given options, and only after it has taken the values. -/
theorem bind_eq (sig : Signature) (values : List String) (given : List RawOption) :
    bind sig ⟨values, given⟩ = (sig.select ⟨values, []⟩).bind fun (s, rest) =>
      (s.bindArguments rest.positional).bind fun arguments => (s.bindOptions given).map (⟨s.label, arguments, ·⟩) := by
  rw [bind, Signature.select_eq]
  cases sig.select ⟨values, []⟩ with
  | error e => rfl
  | ok selected =>
      obtain ⟨s, rest⟩ := selected
      simp only [Except.map, Except.bind]
      cases s.bindArguments rest.positional <;> rfl

/-- Options that are given in another order are bound alike, or the same fault is found. -/
theorem bind_eq_of_perm {raw raw' : RawArguments} (hvalues : raw.positional = raw'.positional)
    (hperm : raw.options.Perm raw'.options) (hgiven : (raw.options.map (lowercase ·.name)).Nodup)
    (sig : Signature) : bind sig raw = bind sig raw' := by
  obtain ⟨values, given⟩ := raw
  obtain ⟨values', given'⟩ := raw'
  cases hvalues
  have hname : byName given = byName given' := byName_perm hgiven hperm
  have hoptions (s : Schema) : s.bindOptions given = s.bindOptions given' := s.bindOptions_congr hname
  simp only [bind_eq, hoptions]

/-- Of two options that are not declared, the one that is typed first is reported in both orders. -/
theorem bind_eq_of_perm_of_unexpected :
    let first : RawArguments := ⟨["tally", "7"], [⟨"zz", none, 9⟩, ⟨"kind", some "x", 13⟩, ⟨"b", none, 21⟩]⟩
    let second : RawArguments := ⟨["tally", "7"], [⟨"b", none, 21⟩, ⟨"kind", some "x", 13⟩, ⟨"zz", none, 9⟩]⟩
    first.options.Perm second.options ∧ (first.options.map (lowercase ·.name)).Nodup ∧
      bind ⟨none, [tally]⟩ first = .error (.unexpectedOption (some "tally") "zz") ∧
      bind ⟨none, [tally]⟩ first = bind ⟨none, [tally]⟩ second := by
  intro first second
  have hperm : first.options.Perm second.options := by decide
  have hgiven : (first.options.map (lowercase ·.name)).Nodup := by decide
  exact ⟨hperm, hgiven, by rfl, @bind_eq_of_perm first second rfl hperm hgiven _⟩

end CommandShell
