import CommandShell.Proofs.Schema.Options

/-!
Which arguments fit a signature and what is bound then.  Main statement: arguments are bound exactly if a
schema is selected that accepts them.
-/

namespace CommandShell

open Text Line

/-- The entry that an argument makes. -/
structure BindsArgument (p : Parameter × String) (e : String × Value) : Prop where
  name : e.1 = p.1.name
  value : p.1.convert p.2 = .ok e.2

namespace Schema

variable {s : Schema}

theorem convertAll_eq_ok_iff {ps : List (Parameter × String)} {vs vs' : ValueSet}
    (hnames : ∀ p ∈ ps, lowercase p.1.name = p.1.name) :
    convertAll ps vs = .ok vs' ↔ ∃ es, List.Forall₂ BindsArgument ps es ∧ vs' = ⟨vs.entries ++ es⟩ := by
  induction ps generalizing vs with
  | nil => simp [convertAll, eq_comm]
  | cons p ps ih =>
      obtain ⟨p, text⟩ := p
      obtain ⟨hname, hnames⟩ := List.forall_mem_cons.1 hnames
      rw [convertAll]
      cases hv : p.convert text with
      | error reason =>
          constructor
          · rintro ⟨⟩
          · rintro ⟨es, hes, -⟩
            cases hes with
            | cons hbinds _ => cases hv.symm.trans hbinds.value
      | ok value =>
          rw [ih hnames, ValueSet.push, hname]
          constructor
          · rintro ⟨es, hes, rfl⟩
            exact ⟨(p.name, value) :: es, .cons ⟨rfl, hv⟩ hes, by simp⟩
          · rintro ⟨es, hes, rfl⟩
            obtain ⟨⟨name, v⟩, es, ⟨rfl, hv'⟩, hrest, rfl⟩ := List.forall₂_cons_left_iff.1 hes
            cases hv.symm.trans hv'
            exact ⟨es, hrest, by simp⟩

theorem bindArguments_eq_ok_iff {values : List String} {vs : ValueSet} (h : s.WellNamed) :
    s.bindArguments values = .ok vs ↔ s.required.length ≤ values.length ∧
      values.length ≤ s.parameters.length ∧
      List.Forall₂ BindsArgument (s.parameters.zip values) vs.entries := by
  have hlength : s.parameters.length = s.required.length + s.optional.length := List.length_append
  rw [bindArguments, hlength]
  split
  · next hfew => exact ⟨nofun, fun h => absurd h.1 (Nat.not_le.2 hfew)⟩
  split
  · next hmany => exact ⟨nofun, fun h => absurd h.2.1 (Nat.not_le.2 hmany)⟩
  · next hfew hmany =>
      rw [convertAll_eq_ok_iff fun p hp => h.parameter p.1 (List.of_mem_zip hp).1]
      constructor
      · rintro ⟨es, hes, rfl⟩
        exact ⟨Nat.not_lt.1 hfew, Nat.not_lt.1 hmany, hes⟩
      · rintro ⟨-, -, hes⟩
        exact ⟨vs.entries, hes, rfl⟩

end Schema

theorem OptionSpec.exists_reads_iff {spec : OptionSpec} {o : RawOption} :
    (∃ v, spec.Reads o v) ↔ o.value.isSome = spec.hasValue ∧
      ∀ convert text, spec.convert = some convert → o.value = some text → ∃ v, convert text = .ok v := by
  obtain ⟨name, description, convert⟩ := spec
  obtain ⟨given, value, position⟩ := o
  constructor
  · rintro ⟨v, hv⟩
    cases hv with
    | value hconvert htext hv =>
        cases hconvert
        cases htext
        refine ⟨rfl, ?_⟩
        rintro _ _ ⟨⟩ ⟨⟩
        exact ⟨v, hv⟩
    | flag hconvert hvalue =>
        cases hconvert
        cases hvalue
        exact ⟨rfl, nofun⟩
  · rintro ⟨hvalued, hread⟩
    rcases convert with _ | convert <;> rcases value with _ | text
    · exact ⟨_, .flag rfl rfl⟩
    · cases hvalued
    · cases hvalued
    · obtain ⟨v, hv⟩ := hread convert text rfl rfl
      exact ⟨v, .value rfl rfl hv⟩

/-- Some values and options fit a schema. -/
structure Schema.Accepts (s : Schema) (values : List String) (given : List RawOption) : Prop where
  enough : s.required.length ≤ values.length
  notTooMany : values.length ≤ s.parameters.length
  requiredGiven : ∀ name ∈ s.requiredOptions.keys, ∃ o ∈ given, lowercase o.name = name
  declared : ∀ o ∈ given, ∃ spec, (lowercase o.name, spec) ∈ s.optionSpecs
  valued : ∀ o ∈ given, ∀ spec, (lowercase o.name, spec) ∈ s.optionSpecs → o.value.isSome = spec.hasValue
  argumentsRead : ∀ p ∈ s.parameters.zip values, ∃ v, p.1.convert p.2 = .ok v
  optionsRead : ∀ o ∈ given, ∀ spec convert text, (lowercase o.name, spec) ∈ s.optionSpecs →
    spec.convert = some convert → o.value = some text → ∃ v, convert text = .ok v

/-- The binding holds what a schema makes of some values and options: each parameter that has a value, in
order, and each given option once, in the order in which the schema holds the options. -/
structure Schema.Binds (s : Schema) (values : List String) (given : List RawOption) (b : Binding) : Prop where
  arguments : List.Forall₂ BindsArgument (s.parameters.zip values) b.arguments.entries
  options : ∃ pairs : List ((String × OptionSpec) × RawOption), (pairs.map (·.1)).Sublist s.optionSpecs ∧
    (pairs.map (·.2)).Perm given ∧ (∀ p ∈ pairs, lowercase p.2.name = p.1.1) ∧
    List.Forall₂ BindsOption pairs b.options.entries

theorem Schema.WellNamed.accepts_iff {s : Schema} {values : List String} {given : List RawOption} (h : s.WellNamed)
    (hgiven : (given.map (lowercase ·.name)).Nodup) :
    s.Accepts values given ↔
      (∃ arguments, s.bindArguments values = .ok arguments) ∧ ∃ options, s.bindOptions given = .ok options := by
  have harguments : (∃ vs : ValueSet, List.Forall₂ BindsArgument (s.parameters.zip values) vs.entries) ↔
      ∀ p ∈ s.parameters.zip values, ∃ v, p.1.convert p.2 = .ok v := by
    constructor
    · rintro ⟨vs, hvs⟩ p hp
      obtain ⟨e, -, hv⟩ := exists_forall₂_iff.1 ⟨vs.entries, hvs⟩ p hp
      exact ⟨e.2, hv⟩
    · intro hread
      obtain ⟨es, hes⟩ := exists_forall₂_iff.2 fun p hp =>
        (hread p hp).elim fun v hv => ⟨(p.1.name, v), BindsArgument.mk rfl hv⟩
      exact ⟨⟨es⟩, hes⟩
  simp only [bindArguments_eq_ok_iff h, exists_and_left, harguments, exists_bindOptions_iff h hgiven,
    OptionSpec.exists_reads_iff]
  constructor
  · rintro ⟨henough, hnotTooMany, hrequired, hdeclared, hvalued, harguments, hoptions⟩
    exact ⟨⟨henough, hnotTooMany, harguments⟩, hrequired, hdeclared, fun o ho spec hspec =>
      ⟨hvalued o ho spec hspec, fun convert text => hoptions o ho spec convert text hspec⟩⟩
  · rintro ⟨⟨henough, hnotTooMany, harguments⟩, hrequired, hdeclared, hoptions⟩
    exact ⟨henough, hnotTooMany, hrequired, hdeclared, fun o ho spec hspec => (hoptions o ho spec hspec).1,
      harguments, fun o ho spec convert text hspec => (hoptions o ho spec hspec).2 convert text⟩

theorem Schema.WellNamed.binds {s : Schema} {values : List String} {given : List RawOption} {b : Binding}
    (h : s.WellNamed) (hgiven : (given.map (lowercase ·.name)).Nodup)
    (harguments : s.bindArguments values = .ok b.arguments) (hoptions : s.bindOptions given = .ok b.options) :
    s.Binds values given b := by
  obtain ⟨-, -, hentries⟩ := (bindArguments_eq_ok_iff h).1 harguments
  obtain ⟨-, hdeclared, hes⟩ := (bindOptions_eq_ok_iff h).1 hoptions
  refine ⟨hentries, givenFor (byName given) s.optionSpecs, map_fst_givenFor _ _,
    givenFor_perm hgiven h.nodup_optionSpecs hdeclared, fun p hp => ?_, hes⟩
  exact (mem_of_get?_byName (mem_givenFor.1 hp).2).2

theorem bind_eq_ok_iff {sig : Signature} {raw : RawArguments} {b : Binding} (h : sig.WellNamed) :
    bind sig raw = .ok b ↔ ∃ s values, sig.Selects raw.positional s values ∧
      s.bindArguments values = .ok b.arguments ∧ s.bindOptions raw.options = .ok b.options ∧
      b.subcommand = s.label := by
  constructor
  · intro hbind
    rw [bind] at hbind
    split at hbind
    · cases hbind
    next s rest hselect =>
    split at hbind
    · cases hbind
    next arguments harguments =>
    obtain ⟨hselects, hsame⟩ := h.select_eq_ok_iff.1 hselect
    rw [hsame] at hbind
    cases hoptions : s.bindOptions raw.options with
    | error e =>
        rw [hoptions] at hbind
        cases hbind
    | ok options =>
        rw [hoptions] at hbind
        cases hbind
        exact ⟨s, rest.positional, hselects, harguments, hoptions, rfl⟩
  · rintro ⟨s, values, hselects, harguments, hoptions, hlabel⟩
    have hselect : sig.select raw = .ok (s, ⟨values, raw.options⟩) := h.select_eq_ok_iff.2 ⟨hselects, rfl⟩
    obtain ⟨subcommand, arguments, options⟩ := b
    cases hlabel
    rw [bind, hselect]
    dsimp only
    rw [harguments]
    dsimp only
    rw [hoptions]
    rfl

theorem Signature.WellNamed.selects_unique {sig : Signature} {s t : Schema} {values rest rest' : List String}
    (h : sig.WellNamed) (hs : sig.Selects values s rest) (ht : sig.Selects values t rest') :
    s = t ∧ rest = rest' := by
  have hs' : sig.select ⟨values, []⟩ = .ok (s, ⟨rest, []⟩) := h.select_eq_ok_iff.2 ⟨hs, rfl⟩
  have ht' : sig.select ⟨values, []⟩ = .ok (t, ⟨rest', []⟩) := h.select_eq_ok_iff.2 ⟨ht, rfl⟩
  cases hs'.symm.trans ht'
  exact ⟨rfl, rfl⟩

/-- Binding is exact: it succeeds if a schema is selected that accepts the values and the options, and then
it holds what this schema makes of them. -/
theorem bind_exact {sig : Signature} {raw : RawArguments} (hsig : sig.Declared)
    (hraw : (raw.options.map (lowercase ·.name)).Nodup) :
    ((∃ b, bind sig raw = .ok b) ↔
      ∃ s values, sig.Selects raw.positional s values ∧ s.Accepts values raw.options) ∧
    ∀ b, bind sig raw = .ok b → ∀ s values, sig.Selects raw.positional s values →
      s.Binds values raw.options b ∧ b.schema sig = s := by
  have hnamed := hsig.wellNamed
  constructor
  · constructor
    · rintro ⟨b, hb⟩
      obtain ⟨s, values, hselects, harguments, hoptions, -⟩ := (bind_eq_ok_iff hnamed).1 hb
      exact ⟨s, values, hselects, ((hnamed.of_selects hselects).accepts_iff hraw).2 ⟨⟨_, harguments⟩, _, hoptions⟩⟩
    · rintro ⟨s, values, hselects, haccepts⟩
      obtain ⟨⟨arguments, harguments⟩, options, hoptions⟩ := ((hnamed.of_selects hselects).accepts_iff hraw).1 haccepts
      exact ⟨⟨s.label, arguments, options⟩,
        (bind_eq_ok_iff hnamed).2 ⟨s, values, hselects, harguments, hoptions, rfl⟩⟩
  · intro b hb s values hselects
    obtain ⟨t, rest, hselects', harguments, hoptions, hlabel⟩ := (bind_eq_ok_iff hnamed).1 hb
    obtain ⟨rfl, rfl⟩ := hnamed.selects_unique hselects hselects'
    exact ⟨(hnamed.of_selects hselects).binds hraw harguments hoptions, hnamed.schema_eq hselects hlabel⟩

/-- A subcommand with a number, an option that must be given and a flag. -/
def tally : Schema where
  name := "tally"
  required := [⟨"n", "", .number ⟨false, 8⟩⟩]
  requiredOptions := Dict.empty.insert "kind" ⟨"kind", "", some .text⟩
  optionalOptions := Dict.empty.insert "all" ⟨"all", "", none⟩

theorem tally_declared : tally.Declared := by
  have hname : Schema.subcommand "Tally" "" = .ok ⟨"tally", "", [], [], .empty, .empty⟩ := by rfl
  have hn : Schema.add ⟨"tally", "", [], [], .empty, .empty⟩ (.required "N" "" (.number ⟨false, 8⟩)) =
      .ok ⟨"tally", "", tally.required, [], .empty, .empty⟩ := by rfl
  have hkind : Schema.add ⟨"tally", "", tally.required, [], .empty, .empty⟩ (.requiredOption "kind" "" .text) =
      .ok ⟨"tally", "", tally.required, [], tally.requiredOptions, .empty⟩ := by rfl
  have hall : Schema.add ⟨"tally", "", tally.required, [], tally.requiredOptions, .empty⟩ (.flag "All" "") =
      .ok tally := by rfl
  exact .add (.add (.add (.subcommand hname) hn) hkind) hall

theorem bind_exact_of_tally :
    (Signature.mk none [tally]).Declared ∧
      ∃ b, bind ⟨none, [tally]⟩ ⟨["TALLY", "7"], [⟨"ALL", none, 9⟩, ⟨"kind", some "x", 14⟩]⟩ = .ok b ∧
        tally.Binds ["7"] [⟨"ALL", none, 9⟩, ⟨"kind", some "x", 14⟩] b ∧
        b.options.entries = [("kind", .text "x"), ("all", .truth true)] := by
  have hsig : (Signature.mk none [tally]).Declared :=
    .withSubcommand (.empty) tally_declared rfl
  have hbind : bind ⟨none, [tally]⟩ ⟨["TALLY", "7"], [⟨"ALL", none, 9⟩, ⟨"kind", some "x", 14⟩]⟩ =
      .ok ⟨some "tally", ⟨[("n", .number ⟨false, 8⟩ 7)]⟩, ⟨[("kind", .text "x"), ("all", .truth true)]⟩⟩ := by rfl
  have hselects : (Signature.mk none [tally]).Selects ["TALLY", "7"] tally ["7"] :=
    .subcommand (List.mem_singleton_self _) (by rfl)
  have hresult := (bind_exact hsig (by decide)).2 _ hbind tally ["7"] hselects
  exact ⟨hsig, _, hbind, hresult.1, rfl⟩

end CommandShell
