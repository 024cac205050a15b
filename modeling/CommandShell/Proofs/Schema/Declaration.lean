import CommandShell.Proofs.Dict
import CommandShell.Proofs.Lists
import CommandShell.Proofs.Text.Lowercase
import CommandShell.Schema.Binding

/-!
What declarations make sure of: names are small and different, and a name selects one subcommand at most.
-/

namespace CommandShell

open Text Line

namespace Schema

/-- The schemas that can be declared. -/
inductive Declared : Schema → Prop
  | root : Declared root
  | subcommand {name description s} : Schema.subcommand name description = .ok s → Declared s
  | add {s t item} : Declared s → s.add item = .ok t → Declared t

/-- All options in the order in which they are bound, with their names. -/
def optionSpecs (s : Schema) : List (String × OptionSpec) :=
  s.requiredOptions.entries ++ s.optionalOptions.entries

/-- Names are small, and no option has the name of another one. -/
structure WellNamed (s : Schema) : Prop where
  parameter : ∀ p ∈ s.parameters, lowercase p.name = p.name
  option : ∀ name, s.hasOption name = true → lowercase name = name
  once : ∀ name, s.requiredOptions.contains name = true → s.optionalOptions.contains name = false

theorem wellNamed_of_empty {s : Schema} (hrequired : s.required = []) (hoptional : s.optional = [])
    (hrequiredOptions : s.requiredOptions = .empty) (hoptionalOptions : s.optionalOptions = .empty) :
    s.WellNamed := by
  refine ⟨?_, ?_, ?_⟩
  · rw [parameters, hrequired, hoptional]
    exact fun p hp => nomatch hp
  · intro name h
    rw [hasOption, hrequiredOptions, hoptionalOptions] at h
    cases h
  · intro name _
    rw [hoptionalOptions]
    rfl

section Add

variable {s t : Schema} {name description : String}

theorem addOption_eq_ok {required : Bool} {convert : Option Converter}
    (h : s.addOption required name description convert = .ok t) :
    s.hasOption (lowercase name) = false ∧ t.parameters = s.parameters ∧
      (∀ k, t.requiredOptions.contains k = (required && k == lowercase name || s.requiredOptions.contains k)) ∧
      ∀ k, t.optionalOptions.contains k = (!required && k == lowercase name || s.optionalOptions.contains k) := by
  rw [addOption] at h
  split at h
  · cases h
  · next hnew =>
      refine ⟨Bool.eq_false_iff.2 hnew, ?_⟩
      split at h
      · next hrequired =>
          cases h
          rw [hrequired]
          exact ⟨rfl, fun k => Dict.contains_insert, fun k => rfl⟩
      · next hoptional =>
          cases h
          rw [Bool.eq_false_iff.2 hoptional]
          exact ⟨rfl, fun k => rfl, fun k => Dict.contains_insert⟩

theorem WellNamed.addOption {required : Bool} {convert : Option Converter} (h : s.WellNamed)
    (ht : s.addOption required name description convert = .ok t) : t.WellNamed := by
  obtain ⟨hnew, hparameters, hrequired, hoptional⟩ := addOption_eq_ok ht
  rw [hasOption, Bool.or_eq_false_iff] at hnew
  refine ⟨hparameters ▸ h.parameter, fun k hk => ?_, fun k hk => ?_⟩
  · by_cases heq : k = lowercase name
    · rw [heq, lowercase_lowercase]
    · refine h.option k ?_
      simpa [hasOption, hrequired, hoptional, heq] using hk
  · by_cases heq : k = lowercase name
    · subst heq
      cases required with
      | false => simp [hrequired, hnew.1] at hk
      | true => simp [hoptional, hnew.2]
    · have hrest : s.requiredOptions.contains k = true := by simpa [hrequired, heq] using hk
      simp [hoptional, heq, h.once k hrest]

theorem WellNamed.addParameter (h : s.WellNamed) (p : Parameter) (hp : lowercase p.name = p.name)
    (hparameters : ∀ q ∈ t.parameters, q = p ∨ q ∈ s.parameters)
    (hrequired : t.requiredOptions = s.requiredOptions) (hoptional : t.optionalOptions = s.optionalOptions) :
    t.WellNamed := by
  refine ⟨fun q hq => ?_, ?_, ?_⟩
  · rcases hparameters q hq with rfl | hq
    · exact hp
    · exact h.parameter q hq
  · intro k hk
    rw [hasOption, hrequired, hoptional] at hk
    exact h.option k hk
  · rw [hrequired, hoptional]
    exact h.once

theorem WellNamed.add {item : Item} (h : s.WellNamed) (ht : s.add item = .ok t) : t.WellNamed := by
  cases item with
  | required name description convert =>
      rw [Schema.add] at ht
      split at ht
      · cases ht
      split at ht
      · cases ht
      · cases ht
        refine h.addParameter ⟨_, description, convert⟩ (lowercase_lowercase name) (fun q hq => ?_) rfl rfl
        simp only [parameters, List.mem_append, List.mem_singleton] at hq ⊢
        tauto
  | optional name description convert =>
      rw [Schema.add] at ht
      split at ht
      · cases ht
      · cases ht
        refine h.addParameter ⟨_, description, convert⟩ (lowercase_lowercase name) (fun q hq => ?_) rfl rfl
        simp only [parameters, List.mem_append, List.mem_singleton] at hq ⊢
        tauto
  | requiredOption | option | flag => exact h.addOption ht

end Add

theorem Declared.wellNamed {s : Schema} (h : s.Declared) : s.WellNamed := by
  induction h with
  | root => exact wellNamed_of_empty rfl rfl rfl rfl
  | subcommand hs =>
      rw [Schema.subcommand] at hs
      split at hs
      · cases hs
      · cases hs
        exact wellNamed_of_empty rfl rfl rfl rfl
  | add _ ht ih => exact ih.add ht

theorem WellNamed.nodup_optionSpecs {s : Schema} (h : s.WellNamed) : (s.optionSpecs.map (·.1)).Nodup := by
  rw [optionSpecs, List.map_append]
  refine List.nodup_append.2 ⟨s.requiredOptions.nodup_keys, s.optionalOptions.nodup_keys, ?_⟩
  rintro k hrequired _ hoptional rfl
  have hnone := h.once k (Dict.contains_iff.2 hrequired)
  rw [Bool.eq_false_iff] at hnone
  exact hnone (Dict.contains_iff.2 hoptional)

theorem WellNamed.lowercase_of_mem {s : Schema} (h : s.WellNamed) :
    ∀ e ∈ s.optionSpecs, lowercase e.1 = e.1 := by
  intro e he
  refine h.option e.1 (Bool.or_eq_true_iff.2 ?_)
  rcases List.mem_append.1 he with he | he
  · exact .inl (Dict.contains_iff.2 (List.mem_map_of_mem he))
  · exact .inr (Dict.contains_iff.2 (List.mem_map_of_mem he))

section Options

variable {s t : Schema}

/-- Every option is kept under its own name, and those that must be given have a value. -/
structure OptionsNamed (s : Schema) : Prop where
  named : ∀ e ∈ s.optionSpecs, e.2.name = e.1
  valued : ∀ e ∈ s.requiredOptions.entries, e.2.hasValue = true

theorem optionsNamed_of_empty (hrequired : s.requiredOptions = .empty) (hoptional : s.optionalOptions = .empty) :
    s.OptionsNamed := by
  constructor
  · rw [optionSpecs, hrequired, hoptional]
    exact nofun
  · rw [hrequired]
    exact nofun

theorem OptionsNamed.addOption {required : Bool} {name description : String} {convert : Option Converter}
    (h : s.OptionsNamed) (hvalued : required = true → convert.isSome = true)
    (ht : s.addOption required name description convert = .ok t) : t.OptionsNamed := by
  rw [Schema.addOption] at ht
  split at ht
  · cases ht
  split at ht
  · next hrequired =>
      cases ht
      constructor
      · intro e he
        rcases List.mem_append.1 he with he | he
        · rcases Dict.mem_insertEntry he with rfl | he
          · rfl
          · exact h.named e (List.mem_append_left _ he)
        · exact h.named e (List.mem_append_right _ he)
      · intro e he
        rcases Dict.mem_insertEntry he with rfl | he
        · exact hvalued hrequired
        · exact h.valued e he
  · cases ht
    refine ⟨fun e he => ?_, h.valued⟩
    rcases List.mem_append.1 he with he | he
    · exact h.named e (List.mem_append_left _ he)
    · rcases Dict.mem_insertEntry he with rfl | he
      · rfl
      · exact h.named e (List.mem_append_right _ he)

theorem OptionsNamed.add {item : Item} (h : s.OptionsNamed) (ht : s.add item = .ok t) : t.OptionsNamed := by
  cases item with
  | required =>
      rw [Schema.add] at ht
      split at ht
      · cases ht
      split at ht
      · cases ht
      · cases ht
        exact ⟨h.named, h.valued⟩
  | optional =>
      rw [Schema.add] at ht
      split at ht
      · cases ht
      · cases ht
        exact ⟨h.named, h.valued⟩
  | requiredOption => exact h.addOption (fun _ => rfl) ht
  | option | flag =>
      refine h.addOption ?_ ht
      nofun

theorem Declared.optionsNamed (h : s.Declared) : s.OptionsNamed := by
  induction h with
  | root => exact optionsNamed_of_empty rfl rfl
  | subcommand hs =>
      rw [Schema.subcommand] at hs
      split at hs
      · cases hs
      · cases hs
        exact optionsNamed_of_empty rfl rfl
  | add _ ht ih => exact ih.add ht

end Options

end Schema

namespace Signature

/-- The signatures that can be declared. -/
inductive Declared : Signature → Prop
  | empty : Declared {}
  | withRoot {sig s t} : Declared sig → s.Declared → sig.withRoot s = .ok t → Declared t
  | withSubcommand {sig s t} : Declared sig → s.Declared → sig.withSubcommand s = .ok t → Declared t
  | normalized {sig} : Declared sig → Declared sig.normalized

/-- A root has no name, and no subcommand has the name of another one. -/
structure WellNamed (sig : Signature) : Prop where
  schema : ∀ s ∈ sig.schemas, s.WellNamed
  root : ∀ s ∈ sig.root, s.isSubcommand = false
  subcommand : ∀ s ∈ sig.subcommands, s.isSubcommand = true
  once : (sig.subcommands.map fun s => foldAscii s.name).Nodup

theorem find?_eq_none_iff {sig : Signature} {name : String} :
    sig.find? name = none ↔ ∀ s ∈ sig.subcommands, eqIgnoringCase s.name name = false := by
  simp [find?]

theorem Declared.wellNamed {sig : Signature} (h : sig.Declared) : sig.WellNamed := by
  induction h with
  | empty => exact ⟨nofun, nofun, nofun, List.nodup_nil⟩
  | @withRoot sig s t _ hs ht ih =>
      rw [Signature.withRoot] at ht
      split at ht
      · cases ht
      split at ht
      · cases ht
      · next hname _ =>
          cases ht
          refine ⟨fun r hr => ?_, ?_, ih.subcommand, ih.once⟩
          · rcases List.mem_cons.1 hr with rfl | hr
            · exact hs.wellNamed
            · exact ih.schema r (List.mem_append_right _ hr)
          · rintro r ⟨⟩
            exact Bool.eq_false_iff.2 hname
  | @withSubcommand sig s t _ hs ht ih =>
      rw [Signature.withSubcommand] at ht
      split at ht
      · cases ht
      split at ht
      · cases ht
      · next hname hnew =>
          cases ht
          rw [Option.isSome_iff_ne_none, not_not, find?_eq_none_iff] at hnew
          refine ⟨fun r hr => ?_, ih.root, fun r hr => ?_, ?_⟩
          · rw [schemas, ← List.append_assoc, List.mem_append] at hr
            rcases hr with hr | hr
            · exact ih.schema r hr
            · rw [List.mem_singleton.1 hr]
              exact hs.wellNamed
          · rcases List.mem_append.1 hr with hr | hr
            · exact ih.subcommand r hr
            · rw [List.mem_singleton.1 hr]
              simpa using hname
          · refine nodup_map_concat ih.once fun r hr heq => ?_
            exact absurd (eqIgnoringCase_iff.2 heq) (Bool.eq_false_iff.1 (hnew r hr))
  | @normalized sig _ ih =>
      rw [Signature.normalized]
      split
      · refine ⟨fun r hr => ?_, ?_, ih.subcommand, ih.once⟩
        · rcases List.mem_cons.1 hr with rfl | hr
          · exact Schema.Declared.root.wellNamed
          · exact ih.schema r (List.mem_append_right _ hr)
        · rintro r ⟨⟩
          rfl
      · exact ih

/-- The schema that some values select, and the values left for it: a first value that names a subcommand
is used up. -/
inductive Selects (sig : Signature) : List String → Schema → List String → Prop
  | subcommand {s name values} : s ∈ sig.subcommands → eqIgnoringCase s.name name = true →
      Selects sig (name :: values) s values
  | root {s values} : (∀ name ∈ values.head?, ∀ t ∈ sig.subcommands, eqIgnoringCase t.name name = false) →
      sig.root = some s → Selects sig values s values
  | bare {values} : sig.root = none → sig.subcommands = [] → Selects sig values .root values

theorem WellNamed.find?_eq_some_iff {sig : Signature} {s : Schema} {name : String} (h : sig.WellNamed) :
    sig.find? name = some s ↔ s ∈ sig.subcommands ∧ eqIgnoringCase s.name name = true := by
  constructor
  · intro hfind
    have hname : eqIgnoringCase s.name name = true := by
      simpa using List.find?_some hfind
    exact ⟨List.mem_of_find?_eq_some hfind, hname⟩
  · rintro ⟨hs, hname⟩
    cases hfind : sig.find? name with
    | none => exact absurd hname (Bool.eq_false_iff.1 (find?_eq_none_iff.1 hfind s hs))
    | some t =>
        have hother : eqIgnoringCase t.name name = true := by
          simpa using List.find?_some hfind
        rw [eqIgnoringCase_iff] at hname hother
        rw [List.inj_on_of_nodup_map h.once (List.mem_of_find?_eq_some hfind) hs (hother.trans hname.symm)]

theorem WellNamed.select_eq_ok_iff {sig : Signature} {raw rest : RawArguments} {s : Schema} (h : sig.WellNamed) :
    sig.select raw = .ok (s, rest) ↔ sig.Selects raw.positional s rest.positional ∧ rest.options = raw.options := by
  obtain ⟨values, options⟩ := raw
  obtain ⟨values', options'⟩ := rest
  rw [select]
  cases hfind : values.head?.bind sig.find? with
  | some t =>
      obtain ⟨name, hname, ht⟩ := Option.bind_eq_some_iff.1 hfind
      obtain ⟨values, rfl⟩ := List.head?_eq_some_iff.1 hname
      obtain ⟨hmem, heq⟩ := h.find?_eq_some_iff.1 ht
      constructor
      · rintro ⟨⟩
        exact ⟨.subcommand hmem heq, rfl⟩
      · rintro ⟨hselects, rfl⟩
        cases hselects with
        | subcommand hs hs' =>
            cases (h.find?_eq_some_iff.2 ⟨hs, hs'⟩).symm.trans ht
            rfl
        | root hnone => exact absurd heq (Bool.eq_false_iff.1 (hnone name rfl t hmem))
        | bare _ hnone =>
            rw [hnone] at hmem
            cases hmem
  | none =>
      have hnot : ∀ name ∈ values.head?, ∀ t ∈ sig.subcommands, eqIgnoringCase t.name name = false :=
        fun name hname => find?_eq_none_iff.1 (Option.bind_eq_none_iff.1 hfind name hname)
      cases hroot : sig.root with
      | some r =>
          constructor
          · rintro ⟨⟩
            exact ⟨.root hnot hroot, rfl⟩
          · rintro ⟨hselects, rfl⟩
            cases hselects with
            | subcommand hs hs' => exact absurd hs' (Bool.eq_false_iff.1 (hnot _ rfl _ hs))
            | root _ hs =>
                cases hroot.symm.trans hs
                rfl
            | bare hnone => cases hroot.symm.trans hnone
      | none =>
          rcases hsubs : sig.subcommands with _ | ⟨t, ts⟩
          · constructor
            · rintro ⟨⟩
              exact ⟨.bare hroot hsubs, rfl⟩
            · rintro ⟨hselects, rfl⟩
              cases hselects with
              | subcommand hs => rw [hsubs] at hs; cases hs
              | root _ hs => cases hroot.symm.trans hs
              | bare => rfl
          · constructor
            · cases values <;> rintro ⟨⟩
            · rintro ⟨hselects, rfl⟩
              cases hselects with
              | subcommand hs hs' => exact absurd hs' (Bool.eq_false_iff.1 (hnot _ rfl _ hs))
              | root _ hs => cases hroot.symm.trans hs
              | bare _ hnone => cases hsubs.symm.trans hnone

theorem WellNamed.of_selects {sig : Signature} {s : Schema} {values rest : List String} (h : sig.WellNamed)
    (hs : sig.Selects values s rest) : s.WellNamed := by
  cases hs with
  | subcommand hmem _ => exact h.schema s (List.mem_append_right _ hmem)
  | root _ hroot => exact h.schema s (List.mem_append_left _ (by simp [hroot]))
  | bare => exact Schema.Declared.root.wellNamed

theorem WellNamed.schema_eq {sig : Signature} {s : Schema} {values rest : List String} {b : Binding}
    (h : sig.WellNamed) (hs : sig.Selects values s rest) (hb : b.subcommand = s.label) : b.schema sig = s := by
  rw [Binding.schema, hb]
  cases hs with
  | subcommand hmem _ =>
      have hfind := h.find?_eq_some_iff.2 ⟨hmem, eqIgnoringCase_refl s.name⟩
      simp [Schema.label, h.subcommand s hmem, hfind]
  | root _ hroot => simp [Schema.label, h.root s hroot, hroot]
  | bare hroot _ =>
      rw [show Schema.root.label = none from rfl, hroot]
      rfl

end Signature

end CommandShell
