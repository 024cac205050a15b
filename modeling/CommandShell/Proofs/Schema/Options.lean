import CommandShell.Proofs.Schema.Declaration
import Mathlib.Data.List.Dedup
import Mathlib.Data.List.Perm.Subperm

/-!
The options that a schema binds.  Main statement: they are bound exactly if each required one is given, each
given one is declared and its value fits, and then each entry comes from a given option of its name.
-/

namespace CommandShell

open Text Line

/-- The option fits its declaration: its converter reads its value, or it is a flag and has none. -/
inductive OptionSpec.Reads (spec : OptionSpec) (o : RawOption) : Value → Prop
  | value {convert text v} : spec.convert = some convert → o.value = some text → convert text = .ok v →
      Reads spec o v
  | flag : spec.convert = none → o.value = none → Reads spec o (.truth true)

/-- The entry that a given option makes. -/
structure BindsOption (p : (String × OptionSpec) × RawOption) (e : String × Value) : Prop where
  name : e.1 = p.1.1
  value : p.1.2.Reads p.2 e.2

/-- The given options under their small names. -/
def byName (given : List RawOption) : Dict RawOption :=
  Dict.ofList (given.map fun o => (lowercase o.name, o))

/-- Each declared option that is given, with the option given for it. -/
def givenFor (rest : Dict RawOption) (specs : List (String × OptionSpec)) :
    List ((String × OptionSpec) × RawOption) :=
  specs.filterMap fun e => (rest.get? e.1).map (e, ·)

section Given

variable {given : List RawOption} {specs : List (String × OptionSpec)} {k : String} {o : RawOption}

theorem get?_byName (given : List RawOption) (k : String) :
    (byName given).get? k = given.reverse.find? (lowercase ·.name == k) := by
  rw [byName, Dict.get?_ofList, ← List.map_reverse, List.find?_map, Option.map_map]
  exact Option.map_id'

theorem mem_of_get?_byName (h : (byName given).get? k = some o) : o ∈ given ∧ lowercase o.name = k := by
  rw [get?_byName] at h
  exact ⟨List.mem_reverse.1 (List.mem_of_find?_eq_some h), by simpa using List.find?_some h⟩

theorem get?_byName_ne_none_iff : (byName given).get? k ≠ none ↔ ∃ o ∈ given, lowercase o.name = k := by
  rw [get?_byName, Ne, List.find?_eq_none]
  simp

theorem get?_byName_eq_some_iff (hgiven : (given.map (lowercase ·.name)).Nodup) :
    (byName given).get? k = some o ↔ o ∈ given ∧ lowercase o.name = k := by
  refine ⟨mem_of_get?_byName, ?_⟩
  rintro ⟨ho, rfl⟩
  obtain ⟨o', hget⟩ := Option.ne_none_iff_exists'.1 (get?_byName_ne_none_iff.2 ⟨o, ho, rfl⟩)
  obtain ⟨ho', hname⟩ := mem_of_get?_byName hget
  rw [hget, List.inj_on_of_nodup_map hgiven ho' ho hname]

/-- Every given option is one of those declared. -/
def AllDeclared (given : List RawOption) (specs : List (String × OptionSpec)) : Prop :=
  ∀ o ∈ given, ∃ spec, (lowercase o.name, spec) ∈ specs

theorem allDeclared_iff :
    AllDeclared given specs ↔ ∀ k, (byName given).get? k ≠ none → k ∈ specs.map (·.1) := by
  constructor
  · intro hall k hk
    obtain ⟨o, ho, rfl⟩ := get?_byName_ne_none_iff.1 hk
    obtain ⟨spec, hspec⟩ := hall o ho
    exact List.mem_map_of_mem hspec
  · intro hall o ho
    obtain ⟨⟨name, spec⟩, hmem, rfl⟩ := List.mem_map.1 (hall _ (get?_byName_ne_none_iff.2 ⟨o, ho, rfl⟩))
    exact ⟨spec, hmem⟩

theorem mem_givenFor {rest : Dict RawOption} {p : (String × OptionSpec) × RawOption} :
    p ∈ givenFor rest specs ↔ p.1 ∈ specs ∧ rest.get? p.1.1 = some p.2 := by
  obtain ⟨e, o⟩ := p
  rw [givenFor, List.mem_filterMap]
  constructor
  · rintro ⟨e', he', heq⟩
    obtain ⟨o', ho', ⟨⟩⟩ := Option.map_eq_some_iff.1 heq
    exact ⟨he', ho'⟩
  · rintro ⟨he, ho⟩
    exact ⟨e, he, by rw [ho]; rfl⟩

theorem map_fst_givenFor (rest : Dict RawOption) (specs : List (String × OptionSpec)) :
    ((givenFor rest specs).map (·.1)).Sublist specs := by
  induction specs with
  | nil => exact List.Sublist.slnil
  | cons e specs ih =>
      cases hget : rest.get? e.1 with
      | none =>
          rw [givenFor, List.filterMap_cons_none (by rw [hget]; rfl)]
          exact ih.cons e
      | some o =>
          rw [givenFor, List.filterMap_cons_some (by rw [hget]; rfl)]
          exact ih.cons_cons e

/-- The names of the given options that are bound. -/
theorem names_givenFor (given : List RawOption) (specs : List (String × OptionSpec)) :
    ((givenFor (byName given) specs).map (·.2)).map (lowercase ·.name) =
      ((givenFor (byName given) specs).map (·.1)).map (·.1) := by
  rw [List.map_map, List.map_map]
  refine List.map_congr_left fun p hp => ?_
  exact (mem_of_get?_byName (mem_givenFor.1 hp).2).2

theorem nodup_givenFor (given : List RawOption) (hspecs : (specs.map (·.1)).Nodup) :
    (((givenFor (byName given) specs).map (·.2)).map (lowercase ·.name)).Nodup := by
  rw [names_givenFor]
  exact hspecs.sublist ((map_fst_givenFor _ _).map _)

theorem givenFor_subperm (given : List RawOption) (hspecs : (specs.map (·.1)).Nodup) :
    ((givenFor (byName given) specs).map (·.2)).Subperm given := by
  refine List.subperm_of_subset (nodup_givenFor given hspecs).of_map fun o ho => ?_
  obtain ⟨p, hp, rfl⟩ := List.mem_map.1 ho
  exact (mem_of_get?_byName (mem_givenFor.1 hp).2).1

theorem names_perm_dedup (hspecs : (specs.map (·.1)).Nodup) (hdeclared : AllDeclared given specs) :
    (((givenFor (byName given) specs).map (·.2)).map (lowercase ·.name)).Perm
      (given.map (lowercase ·.name)).dedup := by
  refine (List.perm_ext_iff_of_nodup (nodup_givenFor given hspecs) (List.nodup_dedup _)).2 fun k => ?_
  rw [List.mem_dedup]
  constructor
  · exact fun hk => List.map_subset _ (givenFor_subperm given hspecs).subset hk
  · intro hk
    obtain ⟨o, ho, rfl⟩ := List.mem_map.1 hk
    obtain ⟨spec, hspec⟩ := hdeclared o ho
    obtain ⟨o', hget⟩ := Option.ne_none_iff_exists'.1 (get?_byName_ne_none_iff.2 ⟨o, ho, rfl⟩)
    rw [names_givenFor, List.map_map]
    exact List.mem_map.2 ⟨((lowercase o.name, spec), o'), mem_givenFor.2 ⟨hspec, hget⟩, rfl⟩

theorem givenFor_perm (hgiven : (given.map (lowercase ·.name)).Nodup) (hspecs : (specs.map (·.1)).Nodup)
    (hdeclared : AllDeclared given specs) : ((givenFor (byName given) specs).map (·.2)).Perm given := by
  refine (givenFor_subperm given hspecs).perm_of_length_le ?_
  have hnames := (names_perm_dedup hspecs hdeclared).length_eq
  simp only [hgiven.dedup, List.length_map] at hnames ⊢
  exact hnames.ge

theorem map_fst_of_bindsOption {ps : List ((String × OptionSpec) × RawOption)} {es : List (String × Value)}
    (h : List.Forall₂ BindsOption ps es) : es.map (·.1) = (ps.map (·.1)).map (·.1) := by
  induction h with
  | nil => rfl
  | cons hbinds _ ih => rw [List.map_cons, List.map_cons, List.map_cons, ih, hbinds.name]

end Given

namespace Schema

variable {s : Schema}

theorem optionValue_eq_ok_iff {spec : OptionSpec} {o : RawOption} {v : Value} :
    s.optionValue spec o = .ok v ↔ spec.Reads o v := by
  obtain ⟨name, description, convert⟩ := spec
  obtain ⟨given, value, position⟩ := o
  constructor
  · intro h
    rcases convert with _ | convert <;> rcases value with _ | text
    · cases h
      exact .flag rfl rfl
    · cases h
    · cases h
    · refine .value rfl rfl ?_
      rw [optionValue] at h
      dsimp only at h
      split at h
      · cases h
      · next hv =>
          cases h
          exact hv
  · intro h
    cases h with
    | value hconvert htext hv =>
        cases hconvert
        cases htext
        rw [optionValue]
        dsimp only
        rw [hv]
    | flag hconvert hvalue =>
        cases hconvert
        cases hvalue
        rfl

/-- The dictionary without the options of some names. -/
def without (rest : Dict RawOption) (specs : List (String × OptionSpec)) : Dict RawOption :=
  specs.foldl (fun d e => d.erase e.1) rest

theorem get?_without_eq_none_iff {rest : Dict RawOption} {specs : List (String × OptionSpec)} {k : String} :
    (without rest specs).get? k = none ↔ k ∈ specs.map (·.1) ∨ rest.get? k = none := by
  rw [without]
  induction specs generalizing rest with
  | nil => simp
  | cons e specs ih =>
      rw [List.foldl_cons, ih, Dict.get?_erase, List.map_cons, List.mem_cons]
      by_cases hk : k = e.1 <;> simp [hk]

theorem givenFor_erase {rest : Dict RawOption} {specs : List (String × OptionSpec)} {k : String}
    (hk : k ∉ specs.map (·.1)) : givenFor (rest.erase k) specs = givenFor rest specs := by
  refine List.filterMap_congr fun e he => ?_
  rw [Dict.get?_erase, if_neg]
  rintro rfl
  exact hk (List.mem_map_of_mem he)

theorem bindOptional_eq_ok_iff {st st' : OptionState} {specs : List (String × OptionSpec)}
    (hspecs : (specs.map (·.1)).Nodup) (hnames : ∀ e ∈ specs, lowercase e.1 = e.1) :
    s.bindOptional st specs = .ok st' ↔ ∃ es, List.Forall₂ BindsOption (givenFor st.rest specs) es ∧
      st' = ⟨⟨st.bound.entries ++ es⟩, without st.rest specs⟩ := by
  induction specs generalizing st with
  | nil => simp [bindOptional, givenFor, without, eq_comm]
  | cons e specs ih =>
      obtain ⟨name, spec⟩ := e
      obtain ⟨hname, hspecs⟩ := List.nodup_cons.1 hspecs
      obtain ⟨hsmall, hnames⟩ := List.forall_mem_cons.1 hnames
      rw [bindOptional, without, List.foldl_cons, ← without]
      cases hget : st.rest.get? name with
      | none =>
          have hgiven : givenFor st.rest ((name, spec) :: specs) = givenFor st.rest specs :=
            List.filterMap_cons_none (by rw [hget]; rfl)
          rw [hgiven, Dict.erase_of_get?_eq_none hget]
          exact ih hspecs hnames
      | some o =>
          have hgiven : givenFor st.rest ((name, spec) :: specs) =
              ((name, spec), o) :: givenFor (st.rest.erase name) specs := by
            rw [givenFor_erase hname]
            exact List.filterMap_cons_some (by rw [hget]; rfl)
          rw [hgiven]
          dsimp only
          rw [bindOption]
          cases hv : s.optionValue spec o with
          | error e =>
              constructor
              · rintro ⟨⟩
              · rintro ⟨es, hes, -⟩
                cases hes with
                | cons hbinds _ => cases hv.symm.trans (optionValue_eq_ok_iff.2 hbinds.value)
          | ok v =>
              refine (ih hspecs hnames).trans ?_
              simp only [ValueSet.push, hsmall]
              constructor
              · rintro ⟨es, hes, rfl⟩
                exact ⟨(name, v) :: es, .cons ⟨rfl, optionValue_eq_ok_iff.1 hv⟩ hes, by simp⟩
              · rintro ⟨es, hes, rfl⟩
                obtain ⟨⟨name, w⟩, es, ⟨rfl, hw⟩, hrest, rfl⟩ := List.forall₂_cons_left_iff.1 hes
                cases hv.symm.trans (optionValue_eq_ok_iff.2 hw)
                exact ⟨es, hrest, by simp⟩

theorem rest_of_bindOption {st st' : OptionState} {spec : OptionSpec} {name : String} {o : RawOption}
    (h : s.bindOption st spec name o = .ok st') : st'.rest = st.rest.erase name := by
  rw [bindOption] at h
  cases hv : s.optionValue spec o with
  | error e =>
      rw [hv] at h
      cases h
  | ok v =>
      rw [hv] at h
      cases h
      rfl

/-- Required options are bound like optional ones that are all given. -/
theorem bindRequired_eq_ok_iff {st st' : OptionState} {specs : List (String × OptionSpec)}
    (hspecs : (specs.map (·.1)).Nodup) :
    s.bindRequired st specs = .ok st' ↔
      (∀ e ∈ specs, st.rest.get? e.1 ≠ none) ∧ s.bindOptional st specs = .ok st' := by
  induction specs generalizing st with
  | nil => simp [bindRequired, bindOptional]
  | cons e specs ih =>
      obtain ⟨name, spec⟩ := e
      obtain ⟨hname, hspecs⟩ := List.nodup_cons.1 hspecs
      rw [bindRequired, bindOptional, List.forall_mem_cons]
      cases hget : st.rest.get? name with
      | none => simp
      | some o =>
          dsimp only
          cases hbind : s.bindOption st spec name o with
          | error e => simp
          | ok next =>
              have hsame : ∀ e ∈ specs, next.rest.get? e.1 = st.rest.get? e.1 := by
                intro e he
                rw [rest_of_bindOption hbind, Dict.get?_erase, if_neg]
                intro heq
                exact hname (List.mem_map.2 ⟨e, he, heq⟩)
              refine (ih hspecs).trans ?_
              simp +contextual [hsame]

theorem bindOptional_append (st : OptionState) (xs ys : List (String × OptionSpec)) :
    s.bindOptional st (xs ++ ys) = (s.bindOptional st xs).bind (s.bindOptional · ys) := by
  induction xs generalizing st with
  | nil => rfl
  | cons x xs ih =>
      rw [List.cons_append, bindOptional, bindOptional]
      cases st.rest.get? x.1 with
      | none => exact ih st
      | some o =>
          dsimp only
          cases s.bindOption st x.2 x.1 o with
          | error e => rfl
          | ok next => exact ih next

theorem firstGiven_eq_none_iff {os : List RawOption} : firstGiven os = none ↔ os = [] := by
  cases os with
  | nil => simp [firstGiven]
  | cons o os =>
      rw [firstGiven]
      split
      · simp
      · split <;> simp

theorem bindOptions_eq_ok_iff {given : List RawOption} {vs : ValueSet} (h : s.WellNamed) :
    s.bindOptions given = .ok vs ↔ (∀ name ∈ s.requiredOptions.keys, ∃ o ∈ given, lowercase o.name = name) ∧
      AllDeclared given s.optionSpecs ∧
      List.Forall₂ BindsOption (givenFor (byName given) s.optionSpecs) vs.entries := by
  have hkeys := s.requiredOptions.nodup_keys
  have hspecs := h.nodup_optionSpecs
  have hrequired : (∀ name ∈ s.requiredOptions.keys, ∃ o ∈ given, lowercase o.name = name) ↔
      ∀ e ∈ s.requiredOptions.entries, (byName given).get? e.1 ≠ none := by
    simp only [Dict.keys, List.forall_mem_map, get?_byName_ne_none_iff]
  rw [bindOptions, ← byName, hrequired, allDeclared_iff]
  constructor
  · intro h
    split at h
    · cases h
    next st hst =>
    split at h
    · cases h
    next st' hst' =>
    split at h
    · cases h
    next hfirst =>
    cases h
    obtain ⟨hgiven, hbound⟩ := (bindRequired_eq_ok_iff hkeys).1 hst
    have hall : s.bindOptional ⟨{}, byName given⟩ s.optionSpecs = .ok st' := by
      rw [optionSpecs, bindOptional_append, hbound]
      exact hst'
    obtain ⟨es, hes, rfl⟩ := (bindOptional_eq_ok_iff hspecs h.lowercase_of_mem).1 hall
    rw [firstGiven_eq_none_iff, Dict.values_eq_nil_iff] at hfirst
    exact ⟨hgiven, fun k hk => (get?_without_eq_none_iff.1 (hfirst k)).resolve_right hk, hes⟩
  · rintro ⟨hgiven, hdeclared, hes⟩
    have hall : s.bindOptional ⟨{}, byName given⟩ s.optionSpecs =
        .ok ⟨⟨[] ++ vs.entries⟩, without (byName given) s.optionSpecs⟩ :=
      (bindOptional_eq_ok_iff hspecs h.lowercase_of_mem).2 ⟨vs.entries, hes, rfl⟩
    rw [optionSpecs, bindOptional_append, ← optionSpecs] at hall
    cases hbound : s.bindOptional ⟨{}, byName given⟩ s.requiredOptions.entries with
    | error e =>
        rw [hbound] at hall
        cases hall
    | ok st =>
        have hoptional : s.bindOptional st s.optionalOptions.entries =
            .ok ⟨⟨[] ++ vs.entries⟩, without (byName given) s.optionSpecs⟩ := by
          rw [hbound] at hall
          exact hall
        have hfirst : firstGiven (without (byName given) s.optionSpecs).values = none := by
          rw [firstGiven_eq_none_iff, Dict.values_eq_nil_iff]
          intro k
          rw [get?_without_eq_none_iff, or_iff_not_imp_right]
          exact hdeclared k
        rw [(bindRequired_eq_ok_iff hkeys).2 ⟨hgiven, hbound⟩]
        dsimp only
        rw [hoptional]
        dsimp only
        rw [hfirst]
        rfl

/-- When all names are different, it is the options themselves that have to fit. -/
theorem exists_bindOptions_iff {given : List RawOption} (h : s.WellNamed)
    (hgiven : (given.map (lowercase ·.name)).Nodup) :
    (∃ vs, s.bindOptions given = .ok vs) ↔
      (∀ name ∈ s.requiredOptions.keys, ∃ o ∈ given, lowercase o.name = name) ∧
      AllDeclared given s.optionSpecs ∧
      ∀ o ∈ given, ∀ spec, (lowercase o.name, spec) ∈ s.optionSpecs → ∃ v, spec.Reads o v := by
  have hexists : (∃ vs : ValueSet, List.Forall₂ BindsOption (givenFor (byName given) s.optionSpecs) vs.entries) ↔
      ∀ p ∈ givenFor (byName given) s.optionSpecs, ∃ e, BindsOption p e := by
    rw [← exists_forall₂_iff]
    exact ⟨fun ⟨vs, hvs⟩ => ⟨vs.entries, hvs⟩, fun ⟨es, hes⟩ => ⟨⟨es⟩, hes⟩⟩
  simp only [bindOptions_eq_ok_iff h, exists_and_left, hexists]
  refine and_congr_right' (and_congr_right' ?_)
  constructor
  · intro hall o ho spec hspec
    obtain ⟨e, -, hv⟩ := hall ((lowercase o.name, spec), o)
      (mem_givenFor.2 ⟨hspec, (get?_byName_eq_some_iff hgiven).2 ⟨ho, rfl⟩⟩)
    exact ⟨e.2, hv⟩
  · intro hall p hp
    obtain ⟨hspec, hget⟩ := mem_givenFor.1 hp
    obtain ⟨ho, hname⟩ := mem_of_get?_byName hget
    obtain ⟨v, hv⟩ := hall p.2 ho p.1.2 (by rw [hname]; exact hspec)
    exact ⟨(p.1.1, v), rfl, hv⟩

end Schema

end CommandShell
