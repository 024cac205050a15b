import CommandShell.Line.Lexer
import CommandShell.Proofs.Schema.Binding

/-!
What is found under the name that it was declared with.  Main statement: a subcommand or a bound value is
found exactly if only the letters A to Z of the name have become small ones.
-/

namespace CommandShell

open Text Line

namespace Schema

variable {s t : Schema}

namespace Item

/-- The name as it is written in the declaration. -/
def name : Item → String
  | .required name .. | .optional name .. | .requiredOption name .. | .option name .. | .flag name _ => name

def isParameter : Item → Bool
  | .required .. | .optional .. => true
  | .requiredOption .. | .option .. | .flag .. => false

end Item

/-- The schema has what the item declares, under the small form of its name. -/
def has (s : Schema) (item : Item) : Bool :=
  if item.isParameter then s.hasParameter (lowercase item.name) else s.hasOption (lowercase item.name)

/-- What the addition of an item does to the names of a schema. -/
structure Added (s : Schema) (item : Item) (t : Schema) : Prop where
  name : t.name = s.name
  parameters : t.parameters.map (·.name) =
    s.parameters.map (·.name) ++ if item.isParameter then [lowercase item.name] else []
  option : ∀ k, t.hasOption k = (!item.isParameter && k == lowercase item.name || s.hasOption k)
  new : s.has item = false

theorem added_of_addOption {required : Bool} {item : Item} {name description : String} {convert : Option Converter}
    (hitem : item.isParameter = false) (hname : item.name = name)
    (h : s.addOption required name description convert = .ok t) : s.Added item t := by
  subst hname
  obtain ⟨hnew, hparameters, hrequired, hoptional⟩ := addOption_eq_ok h
  refine ⟨?_, ?_, fun k => ?_, ?_⟩
  · rw [addOption] at h
    split at h
    · cases h
    · split at h <;> cases h <;> rfl
  · rw [hparameters, hitem]
    simp
  · rw [hasOption, hrequired, hoptional, hitem, hasOption]
    cases required <;> simp [Bool.or_assoc, Bool.or_left_comm]
  · rwa [has, hitem]

theorem added_of_add {item : Item} (h : s.add item = .ok t) : s.Added item t := by
  cases item with
  | required name description convert =>
      rw [add] at h
      split at h
      · cases h
      next hbare =>
      split at h
      · cases h
      next hnew =>
      cases h
      have hnone : s.optional = [] := by simpa using hbare
      refine ⟨rfl, ?_, fun k => rfl, Bool.eq_false_iff.2 hnew⟩
      simp [parameters, hnone, Item.isParameter, Item.name]
  | optional name description convert =>
      rw [add] at h
      split at h
      · cases h
      next hnew =>
      cases h
      refine ⟨rfl, ?_, fun k => rfl, Bool.eq_false_iff.2 hnew⟩
      simp [parameters, Item.isParameter, Item.name]
  | requiredOption | option | flag => exact added_of_addOption rfl rfl h

theorem hasParameter_iff {name : String} : s.hasParameter name = true ↔ name ∈ s.parameters.map (·.name) := by
  simp [hasParameter]

theorem Added.has {item : Item} (h : s.Added item t) : t.has item = true := by
  rw [Schema.has]
  split
  · next hitem =>
      rw [hasParameter_iff, h.parameters, hitem]
      simp
  · next hitem =>
      rw [h.option, Bool.eq_false_iff.2 hitem]
      simp

theorem Added.keeps {item other : Item} (h : s.Added item t) (hother : s.has other = true) : t.has other = true := by
  rw [Schema.has] at hother ⊢
  split
  · next hitem =>
      rw [if_pos hitem, hasParameter_iff] at hother
      rw [hasParameter_iff, h.parameters]
      exact List.mem_append_left _ hother
  · next hitem =>
      rw [if_neg hitem] at hother
      rw [h.option, hother, Bool.or_true]

theorem addAll_cons {item : Item} {items : List Item} (h : s.addAll (item :: items) = .ok t) :
    ∃ u, s.Added item u ∧ u.addAll items = .ok t := by
  rw [addAll, List.foldlM_cons] at h
  cases hadd : s.add item with
  | error e =>
      rw [hadd] at h
      cases h
  | ok u =>
      rw [hadd] at h
      exact ⟨u, added_of_add hadd, h⟩

theorem name_of_addAll {items : List Item} (h : s.addAll items = .ok t) : t.name = s.name := by
  induction items generalizing s with
  | nil =>
      cases h
      rfl
  | cons item items ih =>
      obtain ⟨u, hu, h⟩ := addAll_cons h
      exact (ih h).trans hu.name

/-- All that has been declared is there. -/
theorem has_of_addAll {items : List Item} (h : s.addAll items = .ok t) :
    (∀ item, s.has item = true → t.has item = true) ∧ ∀ item ∈ items, t.has item = true := by
  induction items generalizing s with
  | nil =>
      cases h
      exact ⟨fun _ => id, nofun⟩
  | cons item items ih =>
      obtain ⟨u, hu, h⟩ := addAll_cons h
      obtain ⟨hkeeps, hall⟩ := ih h
      exact ⟨fun other hother => hkeeps other (hu.keeps hother),
        List.forall_mem_cons.2 ⟨hkeeps item hu.has, hall⟩⟩

/-- The name is small, and the names of the parameters differ. -/
theorem Declared.names {s : Schema} (h : s.Declared) :
    lowercase s.name = s.name ∧ (s.parameters.map (·.name)).Nodup := by
  induction h with
  | root => exact ⟨rfl, List.nodup_nil⟩
  | subcommand hs =>
      rw [Schema.subcommand] at hs
      split at hs
      · cases hs
      · cases hs
        exact ⟨lowercase_lowercase _, List.nodup_nil⟩
  | add _ ht ih =>
      have hadded := added_of_add ht
      refine ⟨by rw [hadded.name, ih.1], hadded.parameters ▸ ?_⟩
      have hnew := hadded.new
      rw [has] at hnew
      split at hnew
      · next hitem =>
          rw [hitem]
          rw [Bool.eq_false_iff, Ne, hasParameter_iff] at hnew
          exact List.nodup_append.2 ⟨ih.2, List.nodup_singleton _, by simpa using hnew⟩
      · next hitem => simpa [hitem] using ih.2

end Schema

namespace Signature

variable {sig : Signature} {s : Schema}

theorem Declared.of_mem (h : sig.Declared) (hs : s ∈ sig.schemas) : s.Declared := by
  induction h with
  | empty => cases hs
  | @withRoot sig r t _ hr ht ih =>
      rw [Signature.withRoot] at ht
      split at ht
      · cases ht
      split at ht
      · cases ht
      · cases ht
        rcases List.mem_cons.1 hs with rfl | hs
        · exact hr
        · exact ih (List.mem_append_right _ hs)
  | @withSubcommand sig r t _ hr ht ih =>
      rw [Signature.withSubcommand] at ht
      split at ht
      · cases ht
      split at ht
      · cases ht
      · cases ht
        rw [schemas, ← List.append_assoc, List.mem_append, List.mem_singleton] at hs
        rcases hs with hs | rfl
        · exact ih hs
        · exact hr
  | @normalized sig _ ih =>
      rw [Signature.normalized] at hs
      split at hs
      · rcases List.mem_cons.1 hs with rfl | hs
        · exact .root
        · exact ih (List.mem_append_right _ hs)
      · exact ih hs

theorem Declared.of_selects (h : sig.Declared) {values rest : List String} (hs : sig.Selects values s rest) :
    s.Declared := by
  cases hs with
  | subcommand hmem _ => exact h.of_mem (List.mem_append_right _ hmem)
  | root _ hroot => exact h.of_mem (List.mem_append_left _ (by simp [hroot]))
  | bare => exact .root

/-- Which names find a subcommand. -/
theorem Declared.find?_eq_some_iff (h : sig.Declared) {name : String} :
    sig.find? name = some s ↔ s ∈ sig.subcommands ∧ HasAsciiCase name ∧ lowercase name = s.name := by
  rw [h.wellNamed.find?_eq_some_iff]
  refine and_congr_right fun hs => ?_
  have hname := (h.of_mem (List.mem_append_right _ hs)).names.1
  rw [← hname, eqIgnoringCase_lowercase_iff, hname]

end Signature

namespace ValueSet

variable {vs : ValueSet} {name : String} {v : Value}

/-- The names are small and different. -/
structure WellNamed (vs : ValueSet) : Prop where
  small : ∀ name ∈ vs.names, lowercase name = name
  once : vs.names.Nodup

/-- Which names find a value. -/
theorem WellNamed.get?_eq_some_iff (h : vs.WellNamed) :
    vs.get? name = some v ↔ HasAsciiCase name ∧ (lowercase name, v) ∈ vs.entries := by
  have hmatch : ∀ e ∈ vs.entries, (eqIgnoringCase e.1 name = true ↔ HasAsciiCase name ∧ lowercase name = e.1) := by
    intro e he
    have hsmall := h.small e.1 (List.mem_map_of_mem he)
    rw [← hsmall, eqIgnoringCase_lowercase_iff, hsmall]
  rw [get?, Option.map_eq_some_iff]
  constructor
  · rintro ⟨e, hfind, rfl⟩
    have he := List.mem_of_find?_eq_some hfind
    have heq : eqIgnoringCase e.1 name = true := by simpa using List.find?_some hfind
    obtain ⟨hcase, hname⟩ := (hmatch e he).1 heq
    exact ⟨hcase, hname ▸ he⟩
  · rintro ⟨hcase, hmem⟩
    obtain ⟨e, hfind⟩ : ∃ e, vs.entries.find? (fun e => eqIgnoringCase e.1 name) = some e := by
      refine Option.isSome_iff_exists.1 (List.find?_isSome.2 ⟨_, hmem, ?_⟩)
      exact (hmatch _ hmem).2 ⟨hcase, rfl⟩
    have he := List.mem_of_find?_eq_some hfind
    have heq : eqIgnoringCase e.1 name = true := by simpa using List.find?_some hfind
    have hsame : e.1 = lowercase name := ((hmatch e he).1 heq).2.symm
    exact ⟨e, hfind, by rw [List.inj_on_of_nodup_map h.once he hmem hsame]⟩

theorem WellNamed.contains_iff (h : vs.WellNamed) :
    vs.contains name = true ↔ HasAsciiCase name ∧ ∃ v, (lowercase name, v) ∈ vs.entries := by
  rw [contains, Option.isSome_iff_exists]
  simp only [h.get?_eq_some_iff, exists_and_left]

end ValueSet

namespace Schema

variable {s : Schema} {vs : ValueSet}

theorem map_fst_zip_sublist {α β : Type} (xs : List α) (ys : List β) : ((xs.zip ys).map (·.1)).Sublist xs := by
  rw [List.zip_eq_zip_take_min, List.map_fst_zip (by simp)]
  exact List.take_sublist _ _

theorem map_fst_of_bindsArgument {ps : List (Parameter × String)} {es : List (String × Value)}
    (h : List.Forall₂ BindsArgument ps es) : es.map (·.1) = (ps.map (·.1)).map (·.name) := by
  induction h with
  | nil => rfl
  | cons hbinds _ ih => rw [List.map_cons, List.map_cons, List.map_cons, ih, hbinds.name]

theorem Declared.bindArguments_wellNamed (h : s.Declared) {values : List String}
    (hvs : s.bindArguments values = .ok vs) : vs.WellNamed := by
  obtain ⟨-, -, hbound⟩ := (bindArguments_eq_ok_iff h.wellNamed).1 hvs
  have hsublist := map_fst_zip_sublist s.parameters values
  have hnames : vs.names = ((s.parameters.zip values).map (·.1)).map (·.name) :=
    map_fst_of_bindsArgument hbound
  refine ⟨fun name hname => ?_, ?_⟩
  · rw [hnames] at hname
    obtain ⟨p, hp, rfl⟩ := List.mem_map.1 hname
    exact h.wellNamed.parameter p (hsublist.subset hp)
  · rw [hnames]
    exact h.names.2.sublist (hsublist.map _)

theorem Declared.bindOptions_wellNamed (h : s.Declared) {given : List RawOption}
    (hvs : s.bindOptions given = .ok vs) : vs.WellNamed := by
  obtain ⟨-, -, hbound⟩ := (bindOptions_eq_ok_iff h.wellNamed).1 hvs
  have hsublist := map_fst_givenFor (byName given) s.optionSpecs
  have hnames : vs.names = ((givenFor (byName given) s.optionSpecs).map (·.1)).map (·.1) :=
    map_fst_of_bindsOption hbound
  refine ⟨fun name hname => ?_, ?_⟩
  · rw [hnames] at hname
    obtain ⟨e, he, rfl⟩ := List.mem_map.1 hname
    exact h.wellNamed.lowercase_of_mem e (hsublist.subset he)
  · rw [hnames]
    exact h.wellNamed.nodup_optionSpecs.sublist (hsublist.map _)

end Schema

/-- The values among which that of the item is bound. -/
def Binding.valuesOf (b : Binding) (item : Schema.Item) : ValueSet :=
  if item.isParameter then b.arguments else b.options

theorem Binding.valuesOf_wellNamed {sig : Signature} {raw : RawArguments} {b : Binding} (hsig : sig.Declared)
    (hb : bind sig raw = .ok b) (item : Schema.Item) : (b.valuesOf item).WellNamed := by
  obtain ⟨s, values, hselects, harguments, hoptions, -⟩ := (bind_eq_ok_iff hsig.wellNamed).1 hb
  have hs := hsig.of_selects hselects
  rw [valuesOf]
  split
  · exact hs.bindArguments_wellNamed harguments
  · exact hs.bindOptions_wellNamed hoptions

/-- Names are kept in small letters, but looked up without regard to the case of A to Z only.  So what was
declared under a name is found under it exactly if no other letter of the name has a small form. -/
theorem found_iff_hasAsciiCase {sig : Signature} (hsig : sig.Declared) :
    (∀ {name description base items s}, Schema.subcommand name description = .ok base →
      base.addAll items = .ok s → s ∈ sig.subcommands →
      sig.find? name = if HasAsciiCase name then some s else none) ∧
    ∀ {raw b}, bind sig raw = .ok b → ∀ {base items item}, Schema.addAll base items = .ok (b.schema sig) →
      item ∈ items → (b.schema sig).has item = true ∧
        (∀ v, (b.valuesOf item).get? item.name = some v ↔
          HasAsciiCase item.name ∧ (lowercase item.name, v) ∈ (b.valuesOf item).entries) ∧
        ((b.valuesOf item).contains item.name = true ↔
          HasAsciiCase item.name ∧ ∃ v, (lowercase item.name, v) ∈ (b.valuesOf item).entries) := by
  constructor
  · intro name description base items s hbase hs hmem
    have hname : s.name = lowercase name := by
      rw [Schema.name_of_addAll hs]
      rw [Schema.subcommand] at hbase
      split at hbase <;> cases hbase
      rfl
    split
    · next hcase => exact hsig.find?_eq_some_iff.2 ⟨hmem, hcase, hname.symm⟩
    · next hcase =>
        refine Option.eq_none_iff_forall_ne_some.2 fun t ht => ?_
        exact hcase (hsig.find?_eq_some_iff.1 ht).2.1
  · intro raw b hb base items item hadd hitem
    have hvalues := Binding.valuesOf_wellNamed hsig hb item
    exact ⟨(Schema.has_of_addAll hadd).2 item hitem, fun _ => hvalues.get?_eq_some_iff, hvalues.contains_iff⟩

theorem found_iff_hasAsciiCase_of_tally :
    (Signature.mk none [tally]).Declared ∧ (Signature.mk none [tally]).find? "Tally" = some tally ∧
      ∃ b, bind ⟨none, [tally]⟩ ⟨["TALLY", "7"], [⟨"ALL", none, 9⟩, ⟨"kind", some "x", 14⟩]⟩ = .ok b ∧
        b.arguments.get? "N" = some (.number ⟨false, 8⟩ 7) ∧ b.options.contains "All" = true := by
  have hsig : (Signature.mk none [tally]).Declared := .withSubcommand .empty tally_declared rfl
  have hbind : bind ⟨none, [tally]⟩ ⟨["TALLY", "7"], [⟨"ALL", none, 9⟩, ⟨"kind", some "x", 14⟩]⟩ =
      .ok ⟨some "tally", ⟨[("n", .number ⟨false, 8⟩ 7)]⟩, ⟨[("kind", .text "x"), ("all", .truth true)]⟩⟩ := by rfl
  let number : Schema.Item := .required "N" "" (.number ⟨false, 8⟩)
  let all : Schema.Item := .flag "All" ""
  have hadd : Schema.addAll ⟨"tally", "", [], [], .empty, .empty⟩ [number, .requiredOption "kind" "" .text, all] =
      .ok tally := by rfl
  obtain ⟨hfind, hbound⟩ := found_iff_hasAsciiCase hsig
  have hnumber := hbound hbind hadd (show number ∈ _ by simp)
  have hall := hbound hbind hadd (show all ∈ _ by simp)
  have hname : Schema.subcommand "Tally" "" = .ok ⟨"tally", "", [], [], .empty, .empty⟩ := by rfl
  have htally := hfind hname hadd (List.mem_singleton_self _)
  refine ⟨hsig, htally.trans (if_pos (by decide)), _, hbind, ?_, ?_⟩
  · exact (hnumber.2.1 _).2 ⟨by decide, by decide⟩
  · exact hall.2.2.2 ⟨by decide, .truth true, by decide⟩

/-- A schema with one flag, whose name is not in ASCII. -/
def umlautFlag : Schema where
  optionalOptions := Dict.empty.insert "ü" ⟨"ü", "", none⟩

/-- A flag that is given is not found under the name that it was declared with, and neither is a subcommand
of that name. -/
theorem flag_missed_of_umlaut :
    (∃ ts raw b, tokenize "c -Ü" = .ok ts ∧ splitArguments ts = .ok raw ∧
      Schema.root.addAll [.flag "Ü" ""] = .ok umlautFlag ∧ (Signature.mk (some umlautFlag) []).Declared ∧
      bind ⟨some umlautFlag, []⟩ raw = .ok b ∧ b.options.entries = [("ü", .truth true)] ∧
      b.options.contains "Ü" = false) ∧
    ∃ s, Schema.subcommand "Ü" "" = .ok s ∧ (Signature.mk none [s]).find? "Ü" = none := by
  have hadd : Schema.root.addAll [.flag "Ü" ""] = .ok umlautFlag := by rfl
  have hflag : Schema.root.add (.flag "Ü" "") = .ok umlautFlag := by rfl
  have hsplit : splitArguments [⟨.value, "c", 1, false⟩, ⟨.optionName, "-Ü", 3, false⟩] =
      .ok ⟨[], [⟨"Ü", none, 3⟩]⟩ := by rfl
  have hbind : bind ⟨some umlautFlag, []⟩ ⟨[], [⟨"Ü", none, 3⟩]⟩ =
      .ok ⟨none, {}, ⟨[("ü", .truth true)]⟩⟩ := by rfl
  have hsig : (Signature.mk (some umlautFlag) []).Declared :=
    .withRoot .empty (.add .root hflag) rfl
  exact ⟨⟨_, _, _, by rfl, hsplit, hadd, hsig, hbind, rfl, by rfl⟩, _, rfl, by rfl⟩

end CommandShell
