import CommandShell.Proofs.Line.Words
import CommandShell.Proofs.Schema.Lookup
import CommandShell.Schema.Help

/-!
Lines that follow a synopsis.  Main statement: they are read, split and bound to the schema of the synopsis
with the values that were written.
-/

namespace CommandShell

open Text Line

/-- A part of a synopsis. -/
inductive Part where
  | word (text : String)
  | option (name : String) (valued must : Bool)
  | parameter (name : String) (must : Bool)

/-- What can be left out is shown in brackets. -/
def Part.shown : Part → String
  | word text => text
  | option name true true => "-" ++ name ++ "=<value>"
  | option name false true => "-" ++ name
  | option name true false => "[-" ++ name ++ "=<value>]"
  | option name false false => "[-" ++ name ++ "]"
  | parameter name true => "<" ++ name ++ ">"
  | parameter name false => "[<" ++ name ++ ">]"

/-- The words follow the parts.  Parameters can be left out from the end only. -/
inductive Follows : List Part → List Word → Prop
  | ended {parts} : (∀ p ∈ parts, ∃ name, p = .parameter name false) → Follows parts []
  | word {text parts words} : Follows parts words → Follows (.word text :: parts) (.name text :: words)
  | option {name valued must value parts words} : value.isSome = valued → Follows parts words →
      Follows (.option name valued must :: parts) (.option name value :: words)
  | omitted {name valued parts words} : Follows parts words → Follows (.option name valued false :: parts) words
  | parameter {name must text parts words} : Follows parts words →
      Follows (.parameter name must :: parts) (.value text :: words)

namespace Schema

/-- The subcommand's name, if there is one. -/
def path (s : Schema) : List String := if s.isSubcommand then [s.name] else []

/-- The parts of the synopsis. -/
def usage (command : String) (s : Schema) : List Part :=
  .word command :: s.path.map .word ++
    (s.requiredOptions.entries.map (fun e => .option e.2.name true true) ++
      (s.optionalOptions.entries.map (fun e => .option e.2.name e.2.hasValue false) ++
        (s.required.map (fun p => .parameter p.name true) ++ s.optional.map fun p => .parameter p.name false)))

theorem synopsis_eq (command : String) (s : Schema) :
    s.synopsis command = " ".intercalate ((s.usage command).map Part.shown) := by
  have hoptional (o : OptionSpec) :
      (if o.hasValue then s!"[-{o.name}=<value>]" else s!"[-{o.name}]") =
        (Part.option o.name o.hasValue false).shown := by
    cases o.hasValue <;> rfl
  rw [synopsis]
  simp only [hoptional]
  congr 1
  simp only [usage, path, Dict.values, List.map_append, List.map_cons, List.map_map, List.append_assoc]
  cases s.isSubcommand <;> rfl

end Schema

section Shape

variable {α : Type} {as : List α} {name : α → String} {parts : List Part} {words : List Word}

theorem Follows.options {valued : α → Bool} {must : Bool}
    (h : Follows (as.map (fun a => .option (name a) (valued a) must) ++ parts) words) :
    ∃ (chosen : List (α × Option String)) (rest : List Word),
      words = chosen.map (fun c => .option (name c.1) c.2) ++ rest ∧ Follows parts rest ∧
      (chosen.map (·.1)).Sublist as ∧ (must = true → chosen.map (·.1) = as) ∧
      ∀ c ∈ chosen, c.2.isSome = valued c.1 := by
  induction as generalizing words with
  | nil => exact ⟨[], words, rfl, h, .slnil, fun _ => rfl, nofun⟩
  | cons a as ih =>
      rw [List.map_cons, List.cons_append] at h
      cases h with
      | ended hall =>
          obtain ⟨_, ⟨⟩⟩ := hall _ List.mem_cons_self
      | @option _ _ _ value _ _ hvalue h =>
          obtain ⟨chosen, rest, rfl, hrest, hsublist, hall, hvalued⟩ := ih h
          refine ⟨(a, value) :: chosen, rest, rfl, hrest, hsublist.cons_cons a, ?_,
            List.forall_mem_cons.2 ⟨hvalue, hvalued⟩⟩
          exact fun hmust => congrArg (a :: ·) (hall hmust)
      | omitted h =>
          obtain ⟨chosen, rest, rfl, hrest, hsublist, -, hvalued⟩ := ih h
          exact ⟨chosen, rest, rfl, hrest, hsublist.cons a, nofun, hvalued⟩

theorem Follows.required (h : Follows (as.map (fun a => .parameter (name a) true) ++ parts) words) :
    ∃ (values : List String) (rest : List Word), words = values.map .value ++ rest ∧
      values.length = as.length ∧ Follows parts rest := by
  induction as generalizing words with
  | nil => exact ⟨[], words, rfl, rfl, h⟩
  | cons a as ih =>
      rw [List.map_cons, List.cons_append] at h
      cases h with
      | ended hall =>
          obtain ⟨_, ⟨⟩⟩ := hall _ List.mem_cons_self
      | @parameter _ _ text _ _ h =>
          obtain ⟨values, rest, rfl, hlength, hrest⟩ := ih h
          exact ⟨text :: values, rest, rfl, congrArg (· + 1) hlength, hrest⟩

theorem Follows.optional (h : Follows (as.map fun a => .parameter (name a) false) words) :
    ∃ values : List String, words = values.map .value ∧ values.length ≤ as.length := by
  induction as generalizing words with
  | nil =>
      cases h
      exact ⟨[], rfl, Nat.le_refl 0⟩
  | cons a as ih =>
      cases h with
      | ended => exact ⟨[], rfl, Nat.zero_le _⟩
      | @parameter _ _ text _ _ h =>
          obtain ⟨values, rfl, hlength⟩ := ih h
          exact ⟨text :: values, rfl, Nat.succ_le_succ hlength⟩

theorem Follows.names {texts : List String} (h : Follows (texts.map .word ++ parts) words) :
    ∃ rest, words = texts.map .name ++ rest ∧ Follows parts rest := by
  induction texts generalizing words with
  | nil => exact ⟨words, rfl, h⟩
  | cons text texts ih =>
      rw [List.map_cons, List.cons_append] at h
      cases h with
      | ended hall =>
          obtain ⟨_, ⟨⟩⟩ := hall _ List.mem_cons_self
      | word h =>
          obtain ⟨rest, rfl, hrest⟩ := ih h
          exact ⟨rest, rfl, hrest⟩

end Shape

namespace Schema

variable {s : Schema} {command : String} {words : List Word} {values : List String}
  {chosen : List ((String × OptionSpec) × Option String)}

/-- The words are the command, the subcommand, some of the options with their values and the arguments. -/
structure Written (s : Schema) (command : String) (words : List Word)
    (chosen : List ((String × OptionSpec) × Option String)) (values : List String) : Prop where
  words_eq : words = .name command :: (s.path.map .name ++
    (chosen.map (fun c => .option c.1.1 c.2) ++ values.map .value))
  sublist : (chosen.map (·.1)).Sublist s.optionSpecs
  required : ∀ e ∈ s.requiredOptions.entries, e ∈ chosen.map (·.1)
  valued : ∀ c ∈ chosen, c.2.isSome = c.1.2.hasValue
  enough : s.required.length ≤ values.length
  notTooMany : values.length ≤ s.parameters.length

theorem OptionsNamed.written (hs : s.OptionsNamed) (h : Follows (s.usage command) words) :
    ∃ chosen values, s.Written command words chosen values := by
  obtain ⟨_, rfl, hrest⟩ := Follows.names (show Follows ((command :: s.path).map .word ++ _) words from h)
  obtain ⟨must, _, rfl, hrest, -, hall, hmust⟩ := hrest.options
  obtain ⟨may, _, rfl, hrest, hmay, -, hvalued⟩ := hrest.options
  obtain ⟨values, _, rfl, hvalues, hrest⟩ := hrest.required
  obtain ⟨more, rfl, hmore⟩ := hrest.optional
  have hall := hall rfl
  have hspecs : ((must ++ may).map (·.1)).Sublist s.optionSpecs := by
    rw [List.map_append, hall]
    exact hmay.append_left _
  have hnamed : ∀ c ∈ must ++ may, c.1.2.name = c.1.1 :=
    fun c hc => hs.named c.1 (hspecs.subset (List.mem_map_of_mem hc))
  refine ⟨must ++ may, values ++ more, ?_, hspecs, fun e he => ?_, fun c hc => ?_, ?_, ?_⟩
  · have hwords : (must ++ may).map (fun c => Word.option c.1.1 c.2) =
        must.map (fun c => .option c.1.2.name c.2) ++ may.map fun c => .option c.1.2.name c.2 := by
      rw [← List.map_append]
      exact List.map_congr_left fun c hc => by rw [hnamed c hc]
    rw [hwords, List.map_append, List.append_assoc]
    rfl
  · rw [List.map_append, hall]
    exact List.mem_append_left _ he
  · rcases List.mem_append.1 hc with hc | hc
    · rw [hmust c hc, hs.valued c.1 (hall ▸ List.mem_map_of_mem hc)]
    · exact hvalued c hc
  · rw [List.length_append, hvalues]
    exact Nat.le_add_right _ _
  · rw [parameters, List.length_append, List.length_append, hvalues]
    exact Nat.add_le_add_left hmore _

/-- The names that a line for the schema has in it can be written without quotes. -/
structure Writable (s : Schema) (command : String) : Prop where
  words : ∀ t ∈ command :: s.path, (Word.name t).Writable
  options : ∀ e ∈ s.optionSpecs, PlainText e.1

/-- The converters read the values. -/
structure Converts (s : Schema) (values : List String) (given : List (String × Option String)) : Prop where
  arguments : ∀ p ∈ s.parameters.zip values, ∃ v, p.1.convert p.2 = .ok v
  options : ∀ o ∈ given, ∀ spec convert text, (o.1, spec) ∈ s.optionSpecs → spec.convert = some convert →
    o.2 = some text → ∃ v, convert text = .ok v

namespace Written

theorem values_eq (h : s.Written command words chosen values) : words.filterMap Word.value? = values := by
  rw [h.words_eq]
  simp [List.filterMap_cons, List.filterMap_map, Function.comp_def, Word.value?]

theorem options_eq (h : s.Written command words chosen values) :
    words.filterMap Word.option? = chosen.map fun c => (c.1.1, c.2) := by
  rw [h.words_eq]
  simp [List.filterMap_cons, List.filterMap_map, Function.comp_def, Word.option?]

theorem writable (h : s.Written command words chosen values) (hs : s.Writable command) :
    ∀ w ∈ words, w.Writable := by
  obtain ⟨hcommand, hpath⟩ := List.forall_mem_cons.1 hs.words
  rw [h.words_eq]
  refine List.forall_mem_cons.2 ⟨hcommand, fun w hw => ?_⟩
  rcases List.mem_append.1 hw with hw | hw
  · obtain ⟨t, ht, rfl⟩ := List.mem_map.1 hw
    exact hpath t ht
  rcases List.mem_append.1 hw with hw | hw
  · obtain ⟨c, hc, rfl⟩ := List.mem_map.1 hw
    exact hs.options c.1 (h.sublist.subset (List.mem_map_of_mem hc))
  · obtain ⟨t, -, rfl⟩ := List.mem_map.1 hw
    trivial

/-- The names of the options that are written differ. -/
theorem nodup (h : s.Written command words chosen values) (hs : s.WellNamed) :
    (chosen.map (·.1.1)).Nodup ∧ ∀ c ∈ chosen, lowercase c.1.1 = c.1.1 := by
  constructor
  · have hnames := hs.nodup_optionSpecs.sublist (h.sublist.map (·.1))
    rwa [List.map_map] at hnames
  · exact fun c hc => hs.lowercase_of_mem c.1 (h.sublist.subset (List.mem_map_of_mem hc))

theorem accepts {given : List RawOption} (h : s.Written command words chosen values) (hs : s.WellNamed)
    (hgiven : given.map (fun o => (o.name, o.value)) = chosen.map fun c => (c.1.1, c.2))
    (hconverts : s.Converts values (chosen.map fun c => (c.1.1, c.2))) : s.Accepts values given := by
  have hsmall := (h.nodup hs).2
  -- a given option is one of the chosen, and its name has one declaration only
  have hfrom : ∀ o ∈ given, ∃ c ∈ chosen, c.1.1 = o.name ∧ c.2 = o.value ∧ lowercase o.name = c.1.1 := by
    intro o ho
    have hmem : (o.name, o.value) ∈ chosen.map fun c => (c.1.1, c.2) :=
      hgiven ▸ List.mem_map_of_mem (f := fun o : RawOption => (o.name, o.value)) ho
    obtain ⟨c, hc, heq⟩ := List.mem_map.1 hmem
    obtain ⟨hname, hvalue⟩ := Prod.mk.inj heq
    exact ⟨c, hc, hname, hvalue, hname ▸ hsmall c hc⟩
  have hspec : ∀ c ∈ chosen, ∀ spec, (c.1.1, spec) ∈ s.optionSpecs → c.1 = (c.1.1, spec) := fun c hc spec hmem =>
    List.inj_on_of_nodup_map hs.nodup_optionSpecs (h.sublist.subset (List.mem_map_of_mem hc)) hmem rfl
  refine ⟨h.enough, h.notTooMany, ?_, ?_, ?_, hconverts.arguments, ?_⟩
  · intro name hname
    obtain ⟨e, he, rfl⟩ := List.mem_map.1 hname
    obtain ⟨c, hc, rfl⟩ := List.mem_map.1 (h.required e he)
    have hmem : (c.1.1, c.2) ∈ given.map fun o => (o.name, o.value) := by
      rw [hgiven]
      exact List.mem_map_of_mem (f := fun c : (String × OptionSpec) × Option String => (c.1.1, c.2)) hc
    obtain ⟨o, ho, heq⟩ := List.mem_map.1 hmem
    exact ⟨o, ho, by rw [(Prod.mk.inj heq).1, hsmall c hc]⟩
  · intro o ho
    obtain ⟨c, hc, -, -, hname⟩ := hfrom o ho
    exact ⟨c.1.2, hname ▸ h.sublist.subset (List.mem_map_of_mem hc)⟩
  · intro o ho spec hmem
    obtain ⟨c, hc, -, hvalue, hname⟩ := hfrom o ho
    rw [← hvalue, h.valued c hc, hspec c hc spec (hname ▸ hmem)]
  · intro o ho spec convert text hmem hconvert htext
    obtain ⟨c, hc, -, hvalue, hname⟩ := hfrom o ho
    refine hconverts.options _ (List.mem_map_of_mem hc) spec convert text (hname ▸ hmem) hconvert ?_
    rw [← htext, ← hvalue]

/-- The line is read as one stage, and split into the values and options that were written. -/
theorem splitArguments (h : s.Written command words chosen values) (hs : s.WellNamed) (hwritable : s.Writable command) :
    ∃ ts raw, tokenize (lineOf words) = .ok ts ∧ ts.head? = some ⟨.value, command, 1, false⟩ ∧
      (∀ nullWord, group (lineOf words) ts nullWord = .ok ⟨[⟨ts, 1, lineOf words⟩], []⟩) ∧
      Line.splitArguments ts = .ok raw ∧ raw.positional = s.path ++ values ∧
      raw.options.map (fun o => (o.name, o.value)) = chosen.map fun c => (c.1.1, c.2) := by
  have hall := h.writable hwritable
  have hoptions := h.options_eq
  obtain ⟨hnodup, hsmall⟩ := h.nodup hs
  rw [h.words_eq] at hall hoptions ⊢
  rw [List.filterMap_cons_none rfl] at hoptions
  have hfold : ∀ c ∈ chosen, foldAscii c.1.1 = c.1.1.toList := by
    intro c hc
    rw [← hsmall c hc, foldAscii_lowercase]
  have hdistinct : (chosen.map fun c => foldAscii c.1.1).Nodup := by
    rw [List.map_congr_left hfold, ← Function.comp_def String.toList, ← List.map_map]
    exact hnodup.map fun _ _ => String.toList_inj.1
  obtain ⟨raw, hsplit, hpositional, hgiven⟩ := splitFrom_blankBefore {} (1 + command.toList.length)
    (List.forall_mem_cons.1 hall).2 (by simpa [hoptions, Function.comp_def] using hdistinct)
  refine ⟨_, raw, tokenize_lineOf hall, rfl, fun nullWord => group_lineOf hall nullWord, hsplit, ?_, ?_⟩
  · rw [hpositional]
    simp [List.filterMap_map, Function.comp_def, Word.positional?]
  · rw [hgiven, hoptions]
    rfl

end Written

end Schema

theorem Signature.WellNamed.selects {sig : Signature} {s : Schema} {values : List String} (h : sig.WellNamed)
    (hs : s ∈ sig.schemas) (hroot : s.isSubcommand = false → ∀ v ∈ values.head?, sig.find? v = none) :
    sig.Selects (s.path ++ values) s values := by
  rcases List.mem_append.1 hs with hs | hs
  · rw [Option.mem_toList] at hs
    have hname := h.root s hs
    rw [Schema.path, hname]
    exact .root (fun v hv => Signature.find?_eq_none_iff.1 (hroot hname v hv)) hs
  · rw [Schema.path, h.subcommand s hs]
    exact .subcommand hs (eqIgnoringCase_refl s.name)

/-- A synopsis says what can be typed.  A line that follows it is read as one stage of that command, and
what is written in it is bound to the schema of the synopsis, if the converters read it and the first value of a
root is not the name of a subcommand. -/
theorem bind_of_follows {sig : Signature} {s : Schema} {command : String} (hsig : sig.Declared)
    (hs : s ∈ sig.schemas) (hwritable : s.Writable command) :
    s.synopsis command = " ".intercalate ((s.usage command).map Part.shown) ∧
    ∀ words, Follows (s.usage command) words →
      s.Converts (words.filterMap Word.value?) (words.filterMap Word.option?) →
      (s.isSubcommand = false → ∀ v ∈ (words.filterMap Word.value?).head?, sig.find? v = none) →
      ∃ ts raw b, tokenize (lineOf words) = .ok ts ∧ ts.head? = some ⟨.value, command, 1, false⟩ ∧
        (∀ nullWord, group (lineOf words) ts nullWord = .ok ⟨[⟨ts, 1, lineOf words⟩], []⟩) ∧
        splitArguments ts = .ok raw ∧ raw.positional = s.path ++ words.filterMap Word.value? ∧
        raw.options.map (fun o => (o.name, o.value)) = words.filterMap Word.option? ∧
        bind sig raw = .ok b ∧ b.schema sig = s ∧ s.Binds (words.filterMap Word.value?) raw.options b := by
  have hnamed := hsig.wellNamed
  have hwell := hnamed.schema s hs
  refine ⟨s.synopsis_eq command, fun words hfollows hconverts hroot => ?_⟩
  obtain ⟨chosen, values, hwritten⟩ := (hsig.of_mem hs).optionsNamed.written hfollows
  rw [hwritten.values_eq, hwritten.options_eq] at hconverts ⊢
  rw [hwritten.values_eq] at hroot
  obtain ⟨ts, raw, htokens, hhead, hgroup, hsplit, hpositional, hgiven⟩ := hwritten.splitArguments hwell hwritable
  have hselects := hnamed.selects hs hroot
  have hnodup : (raw.options.map (lowercase ·.name)).Nodup := by
    obtain ⟨hnames, hsmall⟩ := hwritten.nodup hwell
    have heq : raw.options.map (lowercase ·.name) = chosen.map (·.1.1) := by
      have hmap := congrArg (List.map fun o => lowercase o.1) hgiven
      rw [List.map_map, List.map_map] at hmap
      rw [← List.map_congr_left hsmall]
      exact hmap
    rw [heq]
    exact hnames
  obtain ⟨⟨arguments, harguments⟩, options, hoptions⟩ :=
    (hwell.accepts_iff hnodup).1 (hwritten.accepts hwell hgiven hconverts)
  have hbind : bind sig raw = .ok ⟨s.label, arguments, options⟩ :=
    (bind_eq_ok_iff hnamed).2 ⟨s, values, hpositional ▸ hselects, harguments, hoptions, rfl⟩
  exact ⟨ts, raw, _, htokens, hhead, hgroup, hsplit, hpositional, hgiven, hbind, hnamed.schema_eq hselects rfl,
    hwell.binds hnodup harguments hoptions⟩

theorem bind_of_follows_of_tally :
    tally.synopsis "c" = "c tally -kind=<value> [-all] <n>" ∧
    ∃ ts raw b, tokenize "c tally -kind=\"a \"\"b\"\"\" -all \"7\"" = .ok ts ∧ splitArguments ts = .ok raw ∧
      bind ⟨none, [tally]⟩ raw = .ok b ∧ b.schema ⟨none, [tally]⟩ = tally ∧ tally.Binds ["7"] raw.options b := by
  have hsig : (Signature.mk none [tally]).Declared := .withSubcommand .empty tally_declared rfl
  have hplain : ∀ t ∈ ["c", "tally", "kind", "all"], ∀ c ∈ t.toList, Lexer.IsPlain c := by
    simp [Lexer.IsPlain, isSeparator, isBlank, isControl, isOperator]
  have hwritable : tally.Writable "c" := by
    constructor
    · intro t ht
      rcases List.mem_pair.1 ht with rfl | rfl
      · exact ⟨⟨by decide, hplain "c" (by simp)⟩, by decide, by decide⟩
      · exact ⟨⟨by decide, hplain "tally" (by simp)⟩, by decide, by decide⟩
    · intro e he
      rcases List.mem_pair.1 he with rfl | rfl
      · exact ⟨by decide, hplain "kind" (by simp)⟩
      · exact ⟨by decide, hplain "all" (by simp)⟩
  have hfollows : Follows (tally.usage "c")
      [.name "c", .name "tally", .option "kind" (some "a \"b\""), .option "all" none, .value "7"] :=
    .word (.word (.option rfl (.option rfl (.parameter (.ended (by simp))))))
  have hconverts : tally.Converts ["7"] [("kind", some "a \"b\""), ("all", none)] := by
    constructor
    · intro p hp
      obtain rfl := List.mem_singleton.1 hp
      exact ⟨.number ⟨false, 8⟩ 7, by rfl⟩
    · intro o ho spec convert text hspec hconvert htext
      rcases List.mem_pair.1 hspec with heq | heq
      · obtain rfl := (Prod.mk.inj heq).2
        cases hconvert
        exact ⟨_, rfl⟩
      · obtain rfl := (Prod.mk.inj heq).2
        cases hconvert
  obtain ⟨hsynopsis, hbound⟩ := bind_of_follows hsig (List.mem_singleton_self _) hwritable
  obtain ⟨ts, raw, b, htokens, -, -, hsplit, -, -, hbind, hschema, hbinds⟩ :=
    hbound _ hfollows hconverts fun hroot => by cases hroot
  exact ⟨by rfl, ts, raw, b, htokens, hsplit, hbind, hschema, hbinds⟩

end CommandShell
