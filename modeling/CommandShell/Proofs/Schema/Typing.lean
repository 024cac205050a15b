import CommandShell.Proofs.Line.Splitting
import CommandShell.Proofs.Schema.Binding

/-!
What becomes of the options that are typed.  Main statement: of those with one small name the last is bound,
so that all are bound exactly if their small names are different.
-/

namespace CommandShell

open Text Line

variable {sig : Signature} {raw : RawArguments} {b : Binding}

theorem nodup_lowercase_of_isAscii (h : raw.Distinct) (hascii : ∀ o ∈ raw.options, IsAscii o.name) :
    (raw.options.map (lowercase ·.name)).Nodup := by
  rw [RawArguments.Distinct, List.Nodup, List.pairwise_map] at h
  rw [List.Nodup, List.pairwise_map]
  refine h.imp_of_mem fun ha hb hne heq => hne ?_
  exact eqIgnoringCase_iff.1 ((lowercase_eq_iff_of_isAscii (hascii _ ha) (hascii _ hb)).1 heq)

/-- Each bound option comes from an option of its own, the last one of its small name.  So as many options
are bound as there are small names, and all of them if the names are in ASCII. -/
theorem options_of_split {ts : List Token} (hsplit : splitArguments ts = .ok raw) (hsig : sig.Declared)
    (hb : bind sig raw = .ok b) :
    (∃ typed : List RawOption, typed.Subperm raw.options ∧
      List.Forall₂ (fun o e => raw.options.reverse.find? (lowercase ·.name == e.1) = some o ∧
        ∃ spec, (e.1, spec) ∈ (b.schema sig).optionSpecs ∧ spec.Reads o e.2) typed b.options.entries) ∧
    b.options.names.Perm (raw.options.map (lowercase ·.name)).dedup ∧
    (b.options.size = raw.options.length ↔ (raw.options.map (lowercase ·.name)).Nodup) ∧
    ((∀ o ∈ raw.options, IsAscii o.name) → b.options.size = raw.options.length) := by
  have hnamed := hsig.wellNamed
  obtain ⟨s, values, hselects, -, hoptions, hlabel⟩ := (bind_eq_ok_iff hnamed).1 hb
  have hs := hnamed.of_selects hselects
  obtain ⟨-, hdeclared, hes⟩ := (Schema.bindOptions_eq_ok_iff hs).1 hoptions
  have hnames : b.options.names.Perm (raw.options.map (lowercase ·.name)).dedup := by
    rw [ValueSet.names, map_fst_of_bindsOption hes, ← names_givenFor]
    exact names_perm_dedup hs.nodup_optionSpecs hdeclared
  have hsize : b.options.size = (raw.options.map (lowercase ·.name)).dedup.length := by
    rw [← hnames.length_eq, ValueSet.names, List.length_map, ValueSet.size]
  have hall : b.options.size = raw.options.length ↔ (raw.options.map (lowercase ·.name)).Nodup := by
    rw [hsize, ← List.dedup_eq_self, ← (List.dedup_sublist _).length_eq, List.length_map]
  refine ⟨⟨_, givenFor_subperm raw.options hs.nodup_optionSpecs, ?_⟩, hnames, hall, fun hascii => ?_⟩
  · rw [hnamed.schema_eq hselects hlabel, List.forall₂_map_left_iff]
    refine ((List.forall₂_and_left _ _).2 ⟨fun p hp => mem_givenFor.1 hp, hes⟩).imp ?_
    rintro p e ⟨⟨hspec, hget⟩, hname, hvalue⟩
    rw [hname, ← get?_byName]
    exact ⟨hget, p.1.2, hspec, hvalue⟩
  · have hempty : RawArguments.Distinct {} := List.nodup_nil
    exact hall.2 (nodup_lowercase_of_isAscii (hempty.splitFrom hsplit) hascii)

theorem options_of_split_of_tally :
    ∃ ts raw b, tokenize "c TALLY 7 -ALL -kind=x" = .ok ts ∧ splitArguments ts = .ok raw ∧
      bind ⟨none, [tally]⟩ raw = .ok b ∧ raw.options.length = 2 ∧ b.options.size = raw.options.length := by
  have hsig : (Signature.mk none [tally]).Declared := .withSubcommand .empty tally_declared rfl
  have hsplit : splitArguments [⟨.value, "c", 1, false⟩, ⟨.value, "TALLY", 3, false⟩, ⟨.value, "7", 9, false⟩,
      ⟨.optionName, "-ALL", 11, false⟩, ⟨.optionName, "-kind", 16, false⟩, ⟨.equalSign, "=", 21, false⟩,
      ⟨.value, "x", 22, false⟩] = .ok ⟨["TALLY", "7"], [⟨"ALL", none, 11⟩, ⟨"kind", some "x", 16⟩]⟩ := by rfl
  have hbind : bind ⟨none, [tally]⟩ ⟨["TALLY", "7"], [⟨"ALL", none, 11⟩, ⟨"kind", some "x", 16⟩]⟩ =
      .ok ⟨some "tally", ⟨[("n", .number ⟨false, 8⟩ 7)]⟩, ⟨[("kind", .text "x"), ("all", .truth true)]⟩⟩ := by rfl
  obtain ⟨-, -, hall, -⟩ := options_of_split hsplit hsig hbind
  exact ⟨_, _, _, by rfl, hsplit, hbind, rfl, hall.2 (by decide)⟩

/-- A schema with one option, whose name is not in ASCII. -/
def umlaut : Schema where
  optionalOptions := Dict.empty.insert "ü" ⟨"ü", "", some .text⟩

/-- The second of two options that differ in the case of such a letter replaces the first. -/
theorem option_lost_of_umlauts :
    ∃ ts raw b, tokenize "c -ü=1 -Ü=2" = .ok ts ∧ splitArguments ts = .ok raw ∧
      (Signature.mk (some umlaut) []).Declared ∧ bind ⟨some umlaut, []⟩ raw = .ok b ∧
      raw.options.length = 2 ∧ b.options.entries = [("ü", .text "2")] := by
  have hadd : Schema.add .root (.option "ü" "" .text) = .ok umlaut := by rfl
  have hsplit : splitArguments [⟨.value, "c", 1, false⟩, ⟨.optionName, "-ü", 3, false⟩,
      ⟨.equalSign, "=", 5, false⟩, ⟨.value, "1", 6, false⟩, ⟨.optionName, "-Ü", 8, false⟩,
      ⟨.equalSign, "=", 10, false⟩, ⟨.value, "2", 11, false⟩] =
        .ok ⟨[], [⟨"ü", some "1", 3⟩, ⟨"Ü", some "2", 8⟩]⟩ := by rfl
  have hbind : bind ⟨some umlaut, []⟩ ⟨[], [⟨"ü", some "1", 3⟩, ⟨"Ü", some "2", 8⟩]⟩ =
      .ok ⟨none, {}, ⟨[("ü", .text "2")]⟩⟩ := by rfl
  exact ⟨_, _, _, by rfl, hsplit, .withRoot .empty (.add .root hadd) rfl, hbind, rfl, rfl⟩

end CommandShell
