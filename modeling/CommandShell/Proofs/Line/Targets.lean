import CommandShell.Line.Resolve
import CommandShell.Proofs.Lists

/-!
Which redirects of a line go together and what they open.  Main statement: they are resolved exactly if each
stream has one at most, an alias points at a place that the other output names, and the two outputs reach one
file only by an alias; the order in which they are written makes no difference.
-/

namespace CommandShell.Line

/-- The redirect points at the place of another one. -/
def Redirect.IsAlias (r : Redirect) : Prop := r.endpoint = .sameAsOutput ∨ r.endpoint = .sameAsErrorOutput

/-- The two outputs. -/
inductive Stream.Across : Stream → Stream → Prop
  | output : Across .output .errorOutput
  | errorOutput : Across .errorOutput .output

theorem Stream.Across.unique {s a b : Stream} (ha : s.Across a) (hb : s.Across b) : a = b := by
  cases ha <;> cases hb <;> rfl

/-- What an input redirect names. -/
inductive Redirect.Reads (r : Redirect) : InputSource → Prop
  | file {path : String} : r.endpoint = .path path → Reads r (.file path)
  | null : r.endpoint = .null → Reads r .null

/-- What an output redirect names, to be written in its own way. -/
inductive Redirect.Names (r : Redirect) : OutputTarget → Prop
  | file {path : String} : r.endpoint = .path path → Names r (.file path r.append)
  | null : r.endpoint = .null → Names r .null

/-- What an output redirect opens: what it names, or what the redirect of the other output names. -/
inductive Redirect.Opens (rs : List Redirect) (r : Redirect) : OutputTarget → Prop
  | own {t : OutputTarget} : r.Names t → Opens rs r t
  | shared {other : Redirect} {t : OutputTarget} : r.IsAlias → other ∈ rs → r.stream.Across other.stream →
      other.Names t → Opens rs r t

/-- Redirects that can stand in one line.  Paths are compared as `expand` makes them. -/
structure Compatible (expand : String → String) (rs : List Redirect) : Prop where
  distinct : (rs.map (·.stream)).Nodup
  input : ∀ r ∈ rs, r.stream = .input → ¬r.IsAlias
  output : ∀ r ∈ rs, r.stream = .output → r.endpoint ≠ .sameAsOutput
  errorOutput : ∀ r ∈ rs, r.stream = .errorOutput → r.endpoint ≠ .sameAsErrorOutput
  aliased : ∀ r ∈ rs, r.stream ≠ .input → r.IsAlias →
    ∃ other ∈ rs, r.stream.Across other.stream ∧ ¬other.IsAlias ∧ other.append = r.append
  apart : ∀ r ∈ rs, ∀ other ∈ rs, r.stream.Across other.stream →
    ∀ a b, r.endpoint = .path a → other.endpoint = .path b → expand a ≠ expand b

/-- What redirects are resolved to. -/
structure Resolved.IsOf (expand : String → String) (rs : List Redirect) (resolved : Resolved) : Prop where
  input : ∀ source, resolved.input = some source ↔ ∃ r ∈ rs, r.stream = .input ∧ r.Reads source
  output : ∀ t, resolved.output = some t ↔ ∃ r ∈ rs, r.stream = .output ∧ r.Opens rs t
  errorOutput : ∀ t, resolved.errorOutput = some t ↔ ∃ r ∈ rs, r.stream = .errorOutput ∧ r.Opens rs t
  shared : resolved.shared = true ↔ ∃ r ∈ rs, r.stream ≠ .input ∧ r.IsAlias
  joined : resolved.shared = true → ∃ t, resolved.output = some t ∧ resolved.errorOutput = some t
  apart : resolved.shared = false → ∀ a p b q, resolved.output = some (.file a p) →
    resolved.errorOutput = some (.file b q) → expand a ≠ expand b

/-! ### One redirect -/

section One

variable {r pointer : Redirect} {t : OutputTarget} {source : InputSource}

theorem target?_eq_some_iff : r.target? = some t ↔ r.Names t := by
  rw [Redirect.target?]
  constructor
  · intro h
    split at h
    · next hpath =>
        cases h
        exact .file hpath
    · next hnull =>
        cases h
        exact .null hnull
    · cases h
    · cases h
  · rintro (hpath | hnull)
    · rw [hpath]
    · rw [hnull]

theorem target?_eq_none_iff : r.target? = none ↔ r.IsAlias := by
  rw [Redirect.target?, Redirect.IsAlias]
  split <;> simp [*]

theorem Redirect.Names.not_isAlias (h : r.Names t) : ¬r.IsAlias := by
  rw [← target?_eq_none_iff, target?_eq_some_iff.2 h]
  nofun

theorem exists_names (h : ¬r.IsAlias) : ∃ t, r.Names t := by
  rw [← target?_eq_none_iff] at h
  obtain ⟨t, ht⟩ := Option.ne_none_iff_exists'.1 h
  exact ⟨t, target?_eq_some_iff.1 ht⟩

theorem resolveInput_eq_ok_iff : resolveInput r = .ok source ↔ r.Reads source := by
  rw [resolveInput]
  constructor
  · intro h
    split at h
    · next hpath =>
        cases h
        exact .file hpath
    · next hnull =>
        cases h
        exact .null hnull
    · cases h
    · cases h
  · rintro (hpath | hnull)
    · rw [hpath]
    · rw [hnull]

theorem exists_reads (h : ¬r.IsAlias) : ∃ source, r.Reads source := by
  rw [Redirect.IsAlias, not_or] at h
  cases hend : r.endpoint with
  | path => exact ⟨_, .file hend⟩
  | null => exact ⟨_, .null hend⟩
  | sameAsOutput => exact absurd hend h.1
  | sameAsErrorOutput => exact absurd hend h.2

theorem standalone_eq_ok_iff {other : Stream} : standalone other r = .ok t ↔ r.Names t := by
  rw [standalone, ← target?_eq_some_iff]
  cases r.target? <;> simp

theorem Redirect.Reads.unique {other : InputSource} (h : r.Reads source) (h' : r.Reads other) : source = other :=
  Except.ok.inj ((resolveInput_eq_ok_iff.2 h).symm.trans (resolveInput_eq_ok_iff.2 h'))

theorem Redirect.Reads.not_isAlias (h : r.Reads source) : ¬r.IsAlias := by
  rw [Redirect.IsAlias]
  cases h with
  | file hpath => simp [hpath]
  | null hnull => simp [hnull]

theorem aliasTarget_eq_ok_iff : aliasTarget pointer r = .ok t ↔ r.Names t ∧ r.append = pointer.append := by
  rw [aliasTarget, ← target?_eq_some_iff]
  cases r.target? with
  | none => simp
  | some u =>
      dsimp only
      split
      · simp [*]
      · next hne => simp [Ne.symm hne]

theorem mapM_resolveInput_eq_ok_iff {r : Option Redirect} {input : Option InputSource} :
    r.mapM resolveInput = .ok input ↔
      (∀ a ∈ r, ¬a.IsAlias) ∧ ∀ source, input = some source ↔ ∃ a ∈ r, a.Reads source := by
  cases r with
  | none => simp [pure, Except.pure, eq_comm, Option.eq_none_iff_forall_ne_some]
  | some r =>
      have hone : (some r).mapM resolveInput = (resolveInput r).map some := rfl
      simp only [hone, except_map_eq_ok_iff, resolveInput_eq_ok_iff, Option.mem_some_iff, forall_eq',
        exists_eq_left']
      constructor
      · rintro ⟨source, hreads, rfl⟩
        refine ⟨hreads.not_isAlias, fun other => ?_⟩
        rw [Option.some_inj]
        exact ⟨fun h => h ▸ hreads, hreads.unique⟩
      · rintro ⟨halias, hinput⟩
        obtain ⟨source, hreads⟩ := exists_reads halias
        exact ⟨source, hreads, ((hinput source).2 hreads).symm⟩

theorem exists_mapM_resolveInput {r : Option Redirect} (h : ∀ a ∈ r, ¬a.IsAlias) :
    ∃ input, r.mapM resolveInput = .ok input := by
  cases r with
  | none => exact ⟨none, rfl⟩
  | some r =>
      obtain ⟨source, hreads⟩ := exists_reads (h r rfl)
      exact ⟨some source, congrArg (Except.map some) (resolveInput_eq_ok_iff.2 hreads)⟩

end One

/-! ### The two outputs -/

/-- The outputs do not name one file. -/
def FilesApart (expand : String → String) (output errorOutput : Option Redirect) : Prop :=
  ∀ out ∈ output, ∀ err ∈ errorOutput, ∀ a b, out.endpoint = .path a → err.endpoint = .path b → expand a ≠ expand b

/-- What the redirects of the two outputs are resolved to. -/
inductive Settles (expand : String → String) (output errorOutput : Option Redirect) : Resolved → Prop
  | outputPoints {out err : Redirect} {t : OutputTarget} : output = some out → errorOutput = some err →
      out.endpoint = .sameAsErrorOutput → err.Names t → err.append = out.append →
      Settles expand output errorOutput ⟨none, some t, some t, true⟩
  | errorOutputPoints {out err : Redirect} {t : OutputTarget} : output = some out → errorOutput = some err →
      err.endpoint = .sameAsOutput → out.Names t → out.append = err.append →
      Settles expand output errorOutput ⟨none, some t, some t, true⟩
  | separate : (∀ out ∈ output, ¬out.IsAlias) → (∀ err ∈ errorOutput, ¬err.IsAlias) →
      FilesApart expand output errorOutput →
      Settles expand output errorOutput ⟨none, output.bind (·.target?), errorOutput.bind (·.target?), false⟩

section Outputs

variable {expand : String → String} {output errorOutput : Option Redirect} {resolved : Resolved}

theorem selfAlias?_eq_none_iff : selfAlias? output errorOutput = none ↔
    (∀ out ∈ output, out.endpoint ≠ .sameAsOutput) ∧ ∀ err ∈ errorOutput, err.endpoint ≠ .sameAsErrorOutput := by
  rw [selfAlias?]
  cases hout : output.filter (·.endpoint = .sameAsOutput) with
  | some out =>
      obtain ⟨hmem, hself⟩ := Option.filter_eq_some_iff.1 hout
      exact ⟨nofun, fun h => absurd (by simpa using hself) (h.1 out hmem)⟩
  | none =>
      have hnone : ∀ out ∈ output, out.endpoint ≠ .sameAsOutput := by simpa using Option.filter_eq_none_iff.1 hout
      simp only [Option.map_eq_none_iff, Option.filter_eq_none_iff, decide_eq_true_eq]
      exact ⟨fun h => ⟨hnone, h⟩, fun h => h.2⟩

theorem mapM_standalone_eq_ok_iff {other : Stream} {r : Option Redirect} {t : Option OutputTarget} :
    r.mapM (standalone other) = .ok t ↔ (∀ a ∈ r, ¬a.IsAlias) ∧ t = r.bind (·.target?) := by
  cases r with
  | none => simp [pure, Except.pure, eq_comm]
  | some r =>
      have hone : (some r).mapM (standalone other) = (standalone other r).map some := rfl
      simp only [hone, except_map_eq_ok_iff, standalone_eq_ok_iff, Option.mem_some_iff, forall_eq', Option.bind_some,
        ← target?_eq_none_iff, ← target?_eq_some_iff]
      cases r.target? <;> simp [eq_comm]

theorem bind_target?_eq_file_iff {r : Option Redirect} {a : String} {append : Bool} :
    r.bind (·.target?) = some (.file a append) ↔ ∃ s ∈ r, s.endpoint = .path a ∧ s.append = append := by
  simp only [Option.bind_eq_some_iff, target?_eq_some_iff]
  constructor
  · rintro ⟨s, hs, hpath⟩
    cases hpath with
    | file hpath => exact ⟨s, hs, hpath, rfl⟩
  · rintro ⟨s, hs, hpath, rfl⟩
    exact ⟨s, hs, .file hpath⟩

theorem resolveSeparate_eq_ok_iff : resolveSeparate expand output errorOutput = .ok resolved ↔
    (∀ out ∈ output, ¬out.IsAlias) ∧ (∀ err ∈ errorOutput, ¬err.IsAlias) ∧ FilesApart expand output errorOutput ∧
      resolved = ⟨none, output.bind (·.target?), errorOutput.bind (·.target?), false⟩ := by
  rw [resolveSeparate]
  simp only [except_bind_eq_ok_iff, mapM_standalone_eq_ok_iff]
  constructor
  · rintro ⟨_, ⟨hout, rfl⟩, _, ⟨herr, rfl⟩, h⟩
    refine ⟨hout, herr, ?_⟩
    split at h
    · next a p b q r ha hb =>
        split at h
        · cases h
        · next hne =>
            cases h
            refine ⟨?_, rfl⟩
            intro out hout' err herr' a' b' hpath hpath'
            cases ha.symm.trans (bind_target?_eq_file_iff.2 ⟨out, hout', hpath, rfl⟩)
            cases hb.symm.trans (bind_target?_eq_file_iff.2 ⟨err, herr', hpath', rfl⟩)
            exact hne
    · next hother =>
        cases h
        refine ⟨?_, rfl⟩
        intro out hout' err herr' a b hpath hpath'
        have ha := bind_target?_eq_file_iff.2 ⟨out, hout', hpath, rfl⟩
        have hb := bind_target?_eq_file_iff.2 ⟨err, herr', hpath', rfl⟩
        exact absurd herr' (hother a _ b _ err ha hb)
  · rintro ⟨hout, herr, hapart, rfl⟩
    refine ⟨_, ⟨hout, rfl⟩, _, ⟨herr, rfl⟩, ?_⟩
    split
    · next a p b q r ha hb =>
        obtain ⟨out, hout', hpath, -⟩ := bind_target?_eq_file_iff.1 ha
        obtain ⟨err, herr', hpath', -⟩ := bind_target?_eq_file_iff.1 hb
        rw [if_neg (hapart out hout' err herr' a b hpath hpath')]
        rfl
    · rfl

theorem Settles.not_self (h : Settles expand output errorOutput resolved) :
    (∀ out ∈ output, out.endpoint ≠ .sameAsOutput) ∧ ∀ err ∈ errorOutput, err.endpoint ≠ .sameAsErrorOutput := by
  cases h with
  | outputPoints hout herr hpoints hnames =>
      rw [hout, herr]
      refine ⟨?_, ?_⟩
      · rintro _ ⟨⟩ hself
        cases hpoints.symm.trans hself
      · rintro _ ⟨⟩ hself
        exact hnames.not_isAlias (.inr hself)
  | errorOutputPoints hout herr hpoints hnames =>
      rw [hout, herr]
      refine ⟨?_, ?_⟩
      · rintro _ ⟨⟩ hself
        exact hnames.not_isAlias (.inl hself)
      · rintro _ ⟨⟩ hself
        cases hpoints.symm.trans hself
  | separate hout herr =>
      exact ⟨fun out hmem hself => hout out hmem (.inl hself), fun err hmem hself => herr err hmem (.inr hself)⟩

/-- Where none points at the other, both open what they name. -/
theorem settles_iff_separate (hout : ∀ out ∈ output, ∀ err ∈ errorOutput, out.endpoint ≠ .sameAsErrorOutput)
    (herr : ∀ out ∈ output, ∀ err ∈ errorOutput, err.endpoint ≠ .sameAsOutput) :
    Settles expand output errorOutput resolved ↔ resolveSeparate expand output errorOutput = .ok resolved := by
  rw [resolveSeparate_eq_ok_iff]
  constructor
  · intro h
    cases h with
    | outputPoints ho he hpoints => exact absurd hpoints (hout _ ho _ he)
    | errorOutputPoints ho he hpoints => exact absurd hpoints (herr _ ho _ he)
    | separate ho he hapart => exact ⟨ho, he, hapart, rfl⟩
  · rintro ⟨ho, he, hapart, rfl⟩
    exact .separate ho he hapart

theorem resolveOutputs_eq_ok_iff :
    resolveOutputs expand output errorOutput = .ok resolved ↔ Settles expand output errorOutput resolved := by
  rw [resolveOutputs]
  cases hself : selfAlias? output errorOutput with
  | some e =>
      refine ⟨nofun, fun h => ?_⟩
      rw [selfAlias?_eq_none_iff.2 h.not_self] at hself
      cases hself
  | none =>
      dsimp only
      split
      · next out err =>
          split
          · next hpoints =>
              simp only [except_map_eq_ok_iff, aliasTarget_eq_ok_iff]
              constructor
              · rintro ⟨t, ⟨hnames, happend⟩, rfl⟩
                exact .outputPoints rfl rfl hpoints hnames happend
              · intro h
                -- in the other two cases the output would name a target itself
                cases h with
                | outputPoints ho he _ hnames happend =>
                    cases ho
                    cases he
                    exact ⟨_, ⟨hnames, happend⟩, rfl⟩
                | errorOutputPoints ho _ _ hnames =>
                    cases ho
                    exact absurd (.inr hpoints) hnames.not_isAlias
                | separate ho => exact absurd (.inr hpoints) (ho out rfl)
          · next hout =>
              split
              · next hpoints =>
                  simp only [except_map_eq_ok_iff, aliasTarget_eq_ok_iff]
                  constructor
                  · rintro ⟨t, ⟨hnames, happend⟩, rfl⟩
                    exact .errorOutputPoints rfl rfl hpoints hnames happend
                  · intro h
                    cases h with
                    | outputPoints ho _ hpoints' =>
                        cases ho
                        exact absurd hpoints' hout
                    | errorOutputPoints ho he _ hnames happend =>
                        cases ho
                        cases he
                        exact ⟨_, ⟨hnames, happend⟩, rfl⟩
                    | separate _ he => exact absurd (.inl hpoints) (he err rfl)
              · next herr =>
                  refine (settles_iff_separate ?_ ?_).symm
                  · rintro _ ⟨⟩ _ _
                    exact hout
                  · rintro _ _ _ ⟨⟩
                    exact herr
      · next hnone =>
          refine (settles_iff_separate ?_ ?_).symm
          · exact fun out ho err he => absurd he (hnone out err ho)
          · exact fun out ho err he => absurd he (hnone out err ho)

/-- What one output opens, given the redirects of both. -/
def opened (own other : Option Redirect) : Option OutputTarget :=
  own.bind fun r => r.target?.or (other.bind (·.target?))

theorem Settles.opens (h : Settles expand output errorOutput resolved) :
    resolved.output = opened output errorOutput ∧ resolved.errorOutput = opened errorOutput output := by
  have hown {own other : Option Redirect} (h : ∀ r ∈ own, ¬r.IsAlias) :
      own.bind (·.target?) = Line.opened own other := by
    refine Option.bind_congr fun r hr => ?_
    obtain ⟨t, ht⟩ := exists_names (h r hr)
    rw [target?_eq_some_iff.2 ht, Option.some_or]
  cases h with
  | outputPoints hout herr hpoints hnames =>
      have halias := target?_eq_none_iff.2 (.inr hpoints)
      simp [Line.opened, hout, herr, halias, target?_eq_some_iff.2 hnames]
  | errorOutputPoints hout herr hpoints hnames =>
      have halias := target?_eq_none_iff.2 (.inl hpoints)
      simp [Line.opened, hout, herr, halias, target?_eq_some_iff.2 hnames]
  | separate hout herr => exact ⟨hown hout, hown herr⟩

theorem Settles.shared_iff (h : Settles expand output errorOutput resolved) :
    resolved.shared = true ↔ (∃ out ∈ output, out.IsAlias) ∨ ∃ err ∈ errorOutput, err.IsAlias := by
  cases h with
  | outputPoints hout _ hpoints => exact iff_of_true rfl (.inl ⟨_, hout, .inr hpoints⟩)
  | errorOutputPoints _ herr hpoints => exact iff_of_true rfl (.inr ⟨_, herr, .inl hpoints⟩)
  | separate hout herr =>
      refine iff_of_false nofun ?_
      rintro (⟨out, hmem, halias⟩ | ⟨err, hmem, halias⟩)
      · exact hout out hmem halias
      · exact herr err hmem halias

theorem Settles.apart (h : Settles expand output errorOutput resolved) : FilesApart expand output errorOutput := by
  cases h with
  | outputPoints hout _ hpoints =>
      intro out hmem _ _ a _ hpath
      cases hout.symm.trans hmem
      cases hpoints.symm.trans hpath
  | errorOutputPoints _ herr hpoints =>
      intro _ _ err hmem _ b _ hpath
      cases herr.symm.trans hmem
      cases hpoints.symm.trans hpath
  | separate _ _ hapart => exact hapart

theorem Settles.aliased (h : Settles expand output errorOutput resolved) :
    (∀ out ∈ output, out.IsAlias → ∃ err ∈ errorOutput, ¬err.IsAlias ∧ err.append = out.append) ∧
      ∀ err ∈ errorOutput, err.IsAlias → ∃ out ∈ output, ¬out.IsAlias ∧ out.append = err.append := by
  cases h with
  | outputPoints hout herr _ hnames happend =>
      rw [hout, herr]
      refine ⟨?_, ?_⟩
      · rintro _ ⟨⟩ -
        exact ⟨_, rfl, hnames.not_isAlias, happend⟩
      · rintro _ ⟨⟩ halias
        exact absurd halias hnames.not_isAlias
  | errorOutputPoints hout herr _ hnames happend =>
      rw [hout, herr]
      refine ⟨?_, ?_⟩
      · rintro _ ⟨⟩ halias
        exact absurd halias hnames.not_isAlias
      · rintro _ ⟨⟩ -
        exact ⟨_, rfl, hnames.not_isAlias, happend⟩
  | separate hout herr =>
      refine ⟨fun out hmem halias => ?_, fun err hmem halias => ?_⟩
      · exact absurd halias (hout out hmem)
      · exact absurd halias (herr err hmem)

theorem Settles.joined (h : Settles expand output errorOutput resolved) (hshared : resolved.shared = true) :
    ∃ t, resolved.output = some t ∧ resolved.errorOutput = some t := by
  cases h with
  | outputPoints => exact ⟨_, rfl, rfl⟩
  | errorOutputPoints => exact ⟨_, rfl, rfl⟩
  | separate => cases hshared

theorem Settles.files_apart (h : Settles expand output errorOutput resolved) (hshared : resolved.shared = false)
    {a b : String} {p q : Bool} (hout : resolved.output = some (.file a p))
    (herr : resolved.errorOutput = some (.file b q)) : expand a ≠ expand b := by
  cases h with
  | outputPoints => cases hshared
  | errorOutputPoints => cases hshared
  | separate _ _ hapart =>
      obtain ⟨out, hmem, hpath, -⟩ := bind_target?_eq_file_iff.1 hout
      obtain ⟨err, hmem', hpath', -⟩ := bind_target?_eq_file_iff.1 herr
      exact hapart out hmem err hmem' a b hpath hpath'

end Outputs

/-! ### All redirects of a line -/

theorem firstDuplicate_eq_none_iff {seen : List Stream} {rs : List Redirect} :
    firstDuplicate seen rs = none ↔ (rs.map (·.stream)).Nodup ∧ ∀ r ∈ rs, r.stream ∉ seen := by
  induction rs generalizing seen with
  | nil => simp [firstDuplicate]
  | cons r rs ih =>
      rw [firstDuplicate, List.map_cons, List.nodup_cons, List.forall_mem_cons]
      split
      · next hseen => exact ⟨nofun, fun h => absurd hseen h.2.1⟩
      · next hseen =>
          have hrest : (∀ other ∈ rs, other.stream ∉ r.stream :: seen) ↔
              r.stream ∉ rs.map (·.stream) ∧ ∀ other ∈ rs, other.stream ∉ seen := by
            simp only [List.mem_cons, not_or, List.mem_map, not_exists, not_and, forall_and]
          rw [ih, hrest]
          tauto

/-- The redirect of a stream. -/
def redirectFor (s : Stream) (rs : List Redirect) : Option Redirect := rs.find? (·.stream = s)

section All

variable {expand : String → String} {rs : List Redirect} {resolved : Resolved} {s other : Stream}

theorem redirectFor_eq_some_iff (h : (rs.map (·.stream)).Nodup) {r : Redirect} :
    redirectFor s rs = some r ↔ r ∈ rs ∧ r.stream = s :=
  find?_key_eq_some_iff h

theorem opened_eq_some_iff (h : (rs.map (·.stream)).Nodup) (hacross : s.Across other) {t : OutputTarget} :
    opened (redirectFor s rs) (redirectFor other rs) = some t ↔ ∃ r ∈ rs, r.stream = s ∧ r.Opens rs t := by
  simp only [opened, Option.bind_eq_some_iff, Option.or_eq_some_iff, redirectFor_eq_some_iff h, target?_eq_some_iff,
    target?_eq_none_iff, and_assoc]
  refine exists_congr fun r => and_congr_right fun _ => and_congr_right fun hr => ?_
  constructor
  · rintro (hnames | ⟨halias, pointed, hmem, hstream, hnames⟩)
    · exact .own hnames
    · exact .shared halias hmem (hr ▸ hstream ▸ hacross) hnames
  · rintro (hnames | ⟨halias, hmem, hacross', hnames⟩)
    · exact .inl hnames
    · exact .inr ⟨halias, _, hmem, (hr ▸ hacross').unique hacross, hnames⟩

/-- A line's redirects are resolved if each stream has one at most, the input is no alias and the outputs settle. -/
theorem resolveBy_eq_ok_iff : resolveBy expand rs = .ok resolved ↔ (rs.map (·.stream)).Nodup ∧
    ∃ input, (redirectFor .input rs).mapM resolveInput = .ok input ∧
      ∃ outputs, Settles expand (redirectFor .output rs) (redirectFor .errorOutput rs) outputs ∧
        { outputs with input } = resolved := by
  have hdistinct : firstDuplicate [] rs = none ↔ (rs.map (·.stream)).Nodup := by simp [firstDuplicate_eq_none_iff]
  rw [resolveBy, ← hdistinct]
  split
  · next hduplicate => simp [hduplicate]
  · next hnone =>
      simp only [except_bind_eq_ok_iff, resolveOutputs_eq_ok_iff, hnone, true_and, pure, Except.pure, Except.ok.injEq]
      rfl

theorem compatible_of_settles (hdistinct : (rs.map (·.stream)).Nodup)
    (hinput : ∀ r ∈ redirectFor .input rs, ¬r.IsAlias)
    (h : Settles expand (redirectFor .output rs) (redirectFor .errorOutput rs) resolved) : Compatible expand rs := by
  have hfound {s : Stream} {r : Redirect} : redirectFor s rs = some r ↔ r ∈ rs ∧ r.stream = s :=
    redirectFor_eq_some_iff hdistinct
  constructor
  case distinct => exact hdistinct
  case input => exact fun r hr hstream => hinput r (hfound.2 ⟨hr, hstream⟩)
  case output => exact fun r hr hstream => h.not_self.1 r (hfound.2 ⟨hr, hstream⟩)
  case errorOutput => exact fun r hr hstream => h.not_self.2 r (hfound.2 ⟨hr, hstream⟩)
  case aliased =>
    intro r hr hne halias
    cases hstream : r.stream with
    | input => exact absurd hstream hne
    | output =>
        obtain ⟨err, herr, hpointed⟩ := h.aliased.1 r (hfound.2 ⟨hr, hstream⟩) halias
        obtain ⟨hmem, hother⟩ := hfound.1 herr
        exact ⟨err, hmem, hother ▸ .output, hpointed⟩
    | errorOutput =>
        obtain ⟨out, hout, hpointed⟩ := h.aliased.2 r (hfound.2 ⟨hr, hstream⟩) halias
        obtain ⟨hmem, hother⟩ := hfound.1 hout
        exact ⟨out, hmem, hother ▸ .errorOutput, hpointed⟩
  case apart =>
    intro r hr other hother hacross a b hpath hpath'
    generalize hs : r.stream = s at hacross
    generalize hs' : other.stream = s' at hacross
    have hr := hfound.2 ⟨hr, hs⟩
    have hother := hfound.2 ⟨hother, hs'⟩
    cases hacross with
    | output => exact h.apart r hr other hother a b hpath hpath'
    | errorOutput => exact (h.apart other hother r hr b a hpath' hpath).symm

theorem Compatible.exists_settles (h : Compatible expand rs) :
    ∃ resolved, Settles expand (redirectFor .output rs) (redirectFor .errorOutput rs) resolved := by
  have hfound {s : Stream} {r : Redirect} : redirectFor s rs = some r ↔ r ∈ rs ∧ r.stream = s :=
    redirectFor_eq_some_iff h.distinct
  by_cases hout : ∃ out, redirectFor .output rs = some out ∧ out.IsAlias
  · obtain ⟨out, hout, halias⟩ := hout
    obtain ⟨hmem, hstream⟩ := hfound.1 hout
    obtain ⟨err, hmem', hacross, hpointed, happend⟩ := h.aliased out hmem (by simp [hstream]) halias
    obtain ⟨t, hnames⟩ := exists_names hpointed
    have herr := hfound.2 ⟨hmem', (hstream ▸ hacross).unique .output⟩
    exact ⟨_, .outputPoints hout herr (halias.resolve_left (h.output out hmem hstream)) hnames happend⟩
  by_cases herr : ∃ err, redirectFor .errorOutput rs = some err ∧ err.IsAlias
  · obtain ⟨err, herr, halias⟩ := herr
    obtain ⟨hmem, hstream⟩ := hfound.1 herr
    obtain ⟨out, hmem', hacross, hpointed, happend⟩ := h.aliased err hmem (by simp [hstream]) halias
    obtain ⟨t, hnames⟩ := exists_names hpointed
    have hout := hfound.2 ⟨hmem', (hstream ▸ hacross).unique .errorOutput⟩
    exact ⟨_, .errorOutputPoints hout herr (halias.resolve_right (h.errorOutput err hmem hstream)) hnames happend⟩
  · refine ⟨_, .separate (fun out hmem halias => hout ⟨out, hmem, halias⟩)
      (fun err hmem halias => herr ⟨err, hmem, halias⟩) ?_⟩
    intro out hout err herr
    obtain ⟨hmem, hstream⟩ := hfound.1 hout
    obtain ⟨hmem', hstream'⟩ := hfound.1 herr
    exact h.apart out hmem err hmem' (hstream ▸ hstream' ▸ .output)

/-- Redirects are resolved exactly if they are compatible. -/
theorem exists_resolveBy_iff : (∃ resolved, resolveBy expand rs = .ok resolved) ↔ Compatible expand rs := by
  constructor
  · rintro ⟨resolved, h⟩
    obtain ⟨hdistinct, input, hinput, outputs, hsettles, -⟩ := resolveBy_eq_ok_iff.1 h
    exact compatible_of_settles hdistinct (mapM_resolveInput_eq_ok_iff.1 hinput).1 hsettles
  · intro h
    obtain ⟨input, hinput⟩ := exists_mapM_resolveInput (r := redirectFor .input rs) fun r hr =>
      have ⟨hmem, hstream⟩ := (redirectFor_eq_some_iff h.distinct).1 hr
      h.input r hmem hstream
    obtain ⟨outputs, hsettles⟩ := h.exists_settles
    exact ⟨_, resolveBy_eq_ok_iff.2 ⟨h.distinct, input, hinput, outputs, hsettles, rfl⟩⟩

theorem isOf_of_resolveBy (h : resolveBy expand rs = .ok resolved) : resolved.IsOf expand rs := by
  obtain ⟨hdistinct, input, hinput, outputs, hsettles, rfl⟩ := resolveBy_eq_ok_iff.1 h
  have hfound {s : Stream} {r : Redirect} : redirectFor s rs = some r ↔ r ∈ rs ∧ r.stream = s :=
    redirectFor_eq_some_iff hdistinct
  constructor
  case input =>
    intro source
    refine ((mapM_resolveInput_eq_ok_iff.1 hinput).2 source).trans (exists_congr fun r => ?_)
    rw [Option.mem_def, hfound, and_assoc]
  case output => exact fun t => hsettles.opens.1 ▸ opened_eq_some_iff hdistinct .output
  case errorOutput => exact fun t => hsettles.opens.2 ▸ opened_eq_some_iff hdistinct .errorOutput
  case shared =>
    refine hsettles.shared_iff.trans ?_
    simp only [Option.mem_def, hfound]
    constructor
    · rintro (⟨r, ⟨hmem, hstream⟩, halias⟩ | ⟨r, ⟨hmem, hstream⟩, halias⟩)
      · exact ⟨r, hmem, by simp [hstream], halias⟩
      · exact ⟨r, hmem, by simp [hstream], halias⟩
    · rintro ⟨r, hmem, hne, halias⟩
      cases hstream : r.stream with
      | input => exact absurd hstream hne
      | output => exact .inl ⟨r, ⟨hmem, hstream⟩, halias⟩
      | errorOutput => exact .inr ⟨r, ⟨hmem, hstream⟩, halias⟩
  case joined => exact hsettles.joined
  case apart => exact fun hshared a p b q => hsettles.files_apart hshared

/-- The order in which redirects of different streams are written makes no difference. -/
theorem resolveBy_congr {rs' : List Redirect} (hdistinct : (rs.map (·.stream)).Nodup) (hperm : rs.Perm rs') :
    resolveBy expand rs = resolveBy expand rs' := by
  have hnone {rs : List Redirect} (h : (rs.map (·.stream)).Nodup) : firstDuplicate [] rs = none :=
    firstDuplicate_eq_none_iff.2 ⟨h, fun _ _ => List.not_mem_nil⟩
  rw [resolveBy, resolveBy, hnone hdistinct, hnone ((hperm.map _).nodup_iff.1 hdistinct)]
  simp only [find?_key_perm hdistinct hperm]

end All

/-- Redirects are resolved exactly if they are compatible, to what they name or point at, in whatever order. -/
theorem resolve_exact (expand : String → String) (rs : List Redirect) :
    ((∃ resolved, resolveBy expand rs = .ok resolved) ↔ Compatible expand rs) ∧
      (∀ resolved, resolveBy expand rs = .ok resolved → resolved.IsOf expand rs) ∧
      ((rs.map (·.stream)).Nodup → ∀ rs', rs.Perm rs' → resolveBy expand rs = resolveBy expand rs') :=
  ⟨exists_resolveBy_iff, fun _ => isOf_of_resolveBy, fun hdistinct _ => resolveBy_congr hdistinct⟩

/-- Both outputs are appended to one file. -/
theorem resolve_exact_of_appended :
    let rs : List Redirect :=
      [⟨.errorOutput, true, .sameAsOutput, 3⟩, ⟨.input, false, .null, 9⟩, ⟨.output, true, .path "~/log", 16⟩]
    let resolved : Resolved := ⟨some .null, some (.file "~/log" true), some (.file "~/log" true), true⟩
    Compatible (expandHome (some "/home/a")) rs ∧ resolved.IsOf (expandHome (some "/home/a")) rs ∧
      resolve (some "/home/a") rs.reverse = .ok resolved := by
  intro rs resolved
  have hresolve : resolveBy (expandHome (some "/home/a")) rs = .ok resolved := by rfl
  obtain ⟨hcompatible, hof, horder⟩ := resolve_exact (expandHome (some "/home/a")) rs
  have hreverse := horder (by decide) rs.reverse (List.reverse_perm rs).symm
  exact ⟨hcompatible.1 ⟨_, hresolve⟩, hof _ hresolve, hreverse.symm.trans hresolve⟩

end CommandShell.Line
