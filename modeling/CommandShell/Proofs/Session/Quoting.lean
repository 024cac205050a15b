import CommandShell.Builtin.All
import CommandShell.Proofs.Command.Naming
import CommandShell.Proofs.Line.Expansion
import CommandShell.Proofs.Line.Spelling
import CommandShell.Session.Basic

/-!
A text in quotes on its way from a line to a command.  Main statement: whatever the text holds, the
command is called with it, once its quotes and percent signs are doubled.
-/

namespace CommandShell

open Text Line

namespace Line

/-- The characters of a text with each quote and each percent sign written twice. -/
def doubleSpecial (cs : List Char) : List Char :=
  cs.flatMap fun c => if c = '"' ∨ c = '%' then [c, c] else [c]

/-- A line that echoes a text. -/
def echoing (t : String) : List Char :=
  "echo ".toList ++ '"' :: (doubleSpecial t.toList ++ ['"'])

/-- The tokens that the line comes to. -/
def echoTokens (t : String) : List Token := [⟨.value, "echo", 1, false⟩, ⟨.value, t, 6, true⟩]

theorem doubleSpecial_eq (cs : List Char) : doubleSpecial cs = doublePercent (doubleQuotes cs) := by
  induction cs with
  | nil => rfl
  | cons c cs ih =>
      rw [doubleSpecial, List.flatMap_cons, ← doubleSpecial, ih, doubleQuotes]
      by_cases hquote : c = '"'
      · simp [hquote, doublePercent]
      · by_cases hpercent : c = '%'
        · simp [hpercent, doublePercent]
        · simp [hquote, hpercent, doublePercent]

/-- Expanding takes away the doubling of percent signs and leaves that of quotes. -/
theorem expandFrom_doubleSpecial (lookup : String → Option String) (cs rest : List Char) :
    expandFrom lookup none (doubleSpecial cs ++ rest) =
      doubleQuotes cs ++ expandFrom lookup none rest := by
  rw [doubleSpecial_eq, expandFrom_doublePercent]

theorem trimChars_echoing (t : String) : trimChars (echoing t) = echoing t := by
  have hlast : ∀ cs : List Char, dropTrailing isBlank (cs ++ ['"']) = cs ++ ['"'] := by
    intro cs
    have hquote : isBlank '"' = false := by decide
    simp [dropTrailing, hquote]
  exact hlast ("echo ".toList ++ '"' :: doubleSpecial t.toList)

/-- After expansion the text stands in quotes as a quoted token does. -/
theorem expandFrom_echoing (lookup : String → Option String) (t : String) :
    expandFrom lookup none (echoing t) = spellLine (echoTokens t) := by
  have hplain : expandFrom lookup none (echoing t) =
      "echo ".toList ++ '"' :: expandFrom lookup none (doubleSpecial t.toList ++ ['"']) := rfl
  rw [hplain, expandFrom_doubleSpecial]
  rfl

theorem expandVariables_trim_echoing (lookup : String → Option String) (t : String) :
    expandVariables lookup (trim (String.ofList (echoing t))) = String.ofList (spellLine (echoTokens t)) := by
  rw [trim, String.toList_ofList, trimChars_echoing, expandVariables, String.toList_ofList,
    expandFrom_echoing]

theorem spelled_echoTokens (t : String) : ∀ u ∈ echoTokens t, u.Spelled := by
  have hplain : ∀ c ∈ "echo".toList, Lexer.IsPlain c := by
    simp [Lexer.IsPlain, isSeparator, isBlank, isControl, isOperator]
  have hecho : Token.Spelled ⟨.value, "echo", 1, false⟩ :=
    .word _ _ _ (.inl rfl) (by decide) hplain (by decide)
  intro u hu
  rcases List.mem_pair.1 hu with rfl | rfl
  · exact hecho
  · exact .quoted t 6

theorem tokenize_echoTokens (t : String) :
    tokenize (String.ofList (spellLine (echoTokens t))) = .ok (echoTokens t) := by
  have hblank := isAllBlank_spellLine (by simp [echoTokens]) (spelled_echoTokens t)
  rw [tokenize, if_neg (by simp [hblank]), String.toList_ofList, Lexer.run_new (spelled_echoTokens t)]
  rfl

/-- The text is no stage, redirect or option of its own. -/
theorem parse_echoTokens (t nullWord : String) :
    ∃ text, parse (String.ofList (spellLine (echoTokens t))) nullWord =
      .ok ⟨[⟨echoTokens t, 1, text⟩], []⟩ := by
  rw [parse, tokenize_echoTokens]
  exact ⟨_, rfl⟩

end Line

theorem Builtin.bind_echo (t : String) :
    bind Builtin.echo.signature.normalized { positional := [t] } =
      .ok ⟨none, ⟨[("text", .text t)]⟩, {}⟩ := by
  rfl

/-- The stage calls `echo` with the text as its one argument and without options. -/
def Invocation.Echoes (i : Invocation) (t : String) : Prop :=
  ∃ g, i.stage = .command ⟨Builtin.echo, g⟩ ⟨none, ⟨[("text", .text t)]⟩, {}⟩

theorem Invocation.ofLine_echoTokens {registry : Registry} {g : Group}
    (h : registry.resolve "echo" = .ok ⟨Builtin.echo, g⟩) (t text : String) :
    ∃ i, ofLine registry ⟨[⟨echoTokens t, 1, text⟩], []⟩ = .ok [i] ∧ i.Echoes t := by
  let i : Invocation :=
    { stage := .command ⟨Builtin.echo, g⟩ ⟨none, ⟨[("text", .text t)]⟩, {}⟩
      name := "echo"
      rawText := text
      position := 1
      tokens := echoTokens t }
  have hbind : bindTo ⟨echoTokens t, 1, text⟩ "echo" ⟨Builtin.echo, g⟩ = .ok i := by
    have hsplit : splitArguments (echoTokens t) = .ok { positional := [t] } := rfl
    rw [bindTo, hsplit]
    dsimp only [Registered.signature]
    rw [Builtin.bind_echo]
  have hsegment : ofSegment registry ⟨echoTokens t, 1, text⟩ = .ok i := by
    have hhead : head ⟨echoTokens t, 1, text⟩ = .ok ⟨.value, "echo", 1, false⟩ := rfl
    rw [ofSegment, hhead]
    dsimp only
    rw [h]
    exact hbind
  refine ⟨i, ?_, g, rfl⟩
  simp [ofLine, ofSegments, hsegment, Except.map]

/-- A line without redirects is a pipeline between the terminal and the terminal. -/
theorem Pipeline.ofLine_eq (setting : Setting) {line nullWord : String} {segments : List Segment}
    {invocations : List Invocation} (hparse : parse line nullWord = .ok ⟨segments, []⟩)
    (hbuild : Invocation.ofLine setting.registry ⟨segments, []⟩ = .ok invocations) (w : World) :
    ∃ w', Pipeline.ofLine line nullWord setting w =
      (none, (assemble invocations .terminal .terminal .terminal setting w).1, w') := by
  have hresolve : resolve w.home [] = .ok {} := rfl
  rw [Pipeline.ofLine, prepare, hparse]
  dsimp only
  rw [hbuild]
  dsimp only
  rw [openWith, hresolve]
  exact ⟨_, rfl⟩

/-- An entered line runs as the pipeline that its expansion says. -/
theorem Session.enter_eq {s : Session} {raw : String} (hne : (trim raw).isEmpty = false)
    {segments : List Segment} {invocations : List Invocation}
    (hparse : parse (expandVariables s.world.environment.get? (trim raw)) s.settings.nullDevice =
      .ok ⟨segments, []⟩)
    (hbuild : Invocation.ofLine s.registry ⟨segments, []⟩ = .ok invocations) :
    ∃ p c, (s.enter raw).phase = .running p c ∧ p.invocations = invocations ∧
      p.input = .terminal ∧ p.output = .terminal ∧ p.errorSink = .terminal := by
  let after := s.updateControl fun c => { c with history := c.history.record (trim raw) }
  obtain ⟨w, hw⟩ := Pipeline.ofLine_eq s.setting hparse hbuild after.world
  have hline : Pipeline.ofLine (expandVariables after.world.environment.get? (trim raw))
      after.settings.nullDevice after.setting after.world = _ := hw
  rw [enter, if_neg (by simp [hne]), launch]
  dsimp only
  rw [hline]
  exact ⟨_, _, rfl, rfl, rfl, rfl, rfl⟩

/-- Any text can be passed to a command.  With the built-in commands in its registry, a line that
echoes a text comes to one call of `echo` with that text, whatever variables are set and whatever the
null word is, and a session that the line is entered in runs that call. -/
theorem enter_echoing {config : CommandsConfig} (hecho : config.isDisabled "echo" = false)
    (t : String) :
    ∃ registry, Builtin.register config {} = (.ok (), registry) ∧
      (∀ (lookup : String → Option String) (nullWord : String), ∃ segment i,
        parse (expandVariables lookup (trim (String.ofList (echoing t)))) nullWord =
          .ok ⟨[segment], []⟩ ∧
        Invocation.ofLine registry ⟨[segment], []⟩ = .ok [i] ∧ i.Echoes t) ∧
      ∀ s : Session, s.registry = registry → ∃ p c i,
        (s.enter (String.ofList (echoing t))).phase = .running p c ∧ p.invocations = [i] ∧
          i.Echoes t ∧ p.input = .terminal ∧ p.output = .terminal ∧ p.errorSink = .terminal := by
  obtain ⟨registry, hregister, hresolve⟩ := Builtin.resolve_register config
  have hlisted : Builtin.echo ∈ Builtin.all := .tail _ (.head _)
  have henabled : Builtin.echo ∈ Builtin.enabled config := by
    have hname : Builtin.echo.name = "echo" := rfl
    exact List.mem_filter.2 ⟨hlisted, by rw [hname, hecho]; rfl⟩
  have hfound := hresolve Builtin.echo henabled
  have hline : ∀ (lookup : String → Option String) (nullWord : String), ∃ segment i,
      parse (expandVariables lookup (trim (String.ofList (echoing t)))) nullWord =
        .ok ⟨[segment], []⟩ ∧
      Invocation.ofLine registry ⟨[segment], []⟩ = .ok [i] ∧ i.Echoes t := by
    intro lookup nullWord
    obtain ⟨text, hparse⟩ := parse_echoTokens t nullWord
    obtain ⟨i, hi, hechoes⟩ := Invocation.ofLine_echoTokens hfound t text
    rw [expandVariables_trim_echoing]
    exact ⟨_, i, hparse, hi, hechoes⟩
  refine ⟨registry, hregister, hline, ?_⟩
  rintro s rfl
  obtain ⟨segment, i, hparse, hbuild, hechoes⟩ :=
    hline s.world.environment.get? s.settings.nullDevice
  have hne : (trim (String.ofList (echoing t))).isEmpty = false := by
    have hcons : echoing t = 'e' :: (echoing t).tail := rfl
    rw [trim, String.toList_ofList, trimChars_echoing, hcons, Bool.eq_false_iff, Ne,
      String.isEmpty_iff, ← String.toList_inj, String.toList_ofList]
    exact List.cons_ne_nil _ _
  obtain ⟨p, c, hphase, hinvocations, hends⟩ := Session.enter_eq hne hparse hbuild
  exact ⟨p, c, i, hphase, hinvocations, hechoes, hends⟩

theorem enter_echoing_of_operators :
    ({ disabled := ["cls"] } : CommandsConfig).isDisabled "echo" = false ∧
    ∃ registry segment i, Builtin.register { disabled := ["cls"] } {} = (.ok (), registry) ∧
      parse (expandVariables (fun _ => some "value") (trim "echo \"%%a%% | \"\"b\"\" > null\n\"")) "null" =
        .ok ⟨[segment], []⟩ ∧
      Invocation.ofLine registry ⟨[segment], []⟩ = .ok [i] ∧ i.Echoes "%a% | \"b\" > null\n" := by
  have henabled : ({ disabled := ["cls"] } : CommandsConfig).isDisabled "echo" = false := by decide
  have hline : String.ofList (echoing "%a% | \"b\" > null\n") =
      "echo \"%%a%% | \"\"b\"\" > null\n\"" := by
    decide
  obtain ⟨registry, hregister, hparse, -⟩ := enter_echoing henabled "%a% | \"b\" > null\n"
  obtain ⟨segment, i, hi⟩ := hparse (fun _ => some "value") "null"
  rw [hline] at hi
  exact ⟨henabled, registry, segment, i, hregister, hi⟩

end CommandShell
