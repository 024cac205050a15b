import CommandShell.Command.Invocation
import CommandShell.Line.Resolve
import CommandShell.Proofs.Line.SegmentText

/-!
Where the mistakes in a line are.  Main statement: the position that a mistake is reported at lies in the line;
there is a quote if it is one that is stray or not closed, and otherwise the token at fault starts there, which
has the text that the mistake gives.
-/

namespace CommandShell.Line

open Text

namespace ParseError

/-- The text of the token at fault, where the mistake gives it. -/
def token? : ParseError → Option String
  | unterminatedQuote token _ | redirectBeforeCommand token _ | extraRedirectTarget _ token _
  | unexpectedToken token _ | duplicateOption token _ => some token
  | _ => none

/-- The text of the redirect operator, where the mistake gives it. -/
def operator? : ParseError → Option String
  | missingRedirectTarget operator _ | extraRedirectTarget operator _ _ | emptyRedirectTarget operator _ =>
    some operator
  | _ => none

/-- The mistake is a quote that is not where it can be, or not closed. -/
def IsQuote : ParseError → Prop
  | strayQuote _ | unterminatedQuote _ _ => True
  | _ => False

/-- The mistake is reported at the token, and gives its text if it gives a token or else an operator. -/
structure IsAt (e : ParseError) (t : Token) : Prop where
  position : e.position? = some t.position
  noQuote : ¬e.IsQuote
  token : ∀ text, e.token? = some text → t.text = text
  operator : ∀ text, e.token? = none → e.operator? = some text → t.kind = .redirect ∧ t.text = text

end ParseError

open ParseError

/-- A mistake in a line: in its tokens and their grouping, among its redirects, or in the arguments or the command
of one of its stages. -/
inductive Mistake (line nullWord : String) : ParseError → Prop
  | parse {e} (h : parse line nullWord = .error e) : Mistake line nullWord e
  | resolve {cl e} (hcl : Line.parse line nullWord = .ok cl) (home : Option String)
      (h : resolve home cl.redirects = .error e) : Mistake line nullWord e
  | split {cl s e} (hcl : Line.parse line nullWord = .ok cl) (hs : s ∈ cl.segments)
      (h : splitArguments s.tokens = .error e) : Mistake line nullWord e
  | head {cl s e} (hcl : Line.parse line nullWord = .ok cl) (hs : s ∈ cl.segments)
      (h : Invocation.head s = .error (.parse e)) : Mistake line nullWord e

/-! ### Quotes -/

namespace Lexer

variable {l : Lexer} {c : Char} {seen cs : List Char} {e : ParseError} {pos n : Nat}

/-- The only mistake on the way is a quote. -/
theorem eq_strayQuote_of_step (h : l.step c pos = .error e) : c = '"' ∧ e = .strayQuote pos := by
  cases hstate : l.state with
  | between =>
      rw [step, hstate] at h
      cases h
  | word =>
      simp only [step, hstate] at h
      split_ifs at h with _ hquote
      cases h
      exact ⟨hquote, rfl⟩
  | quoted | quotePending | digit | redirect =>
      simp only [step, hstate] at h
      split_ifs at h

theorem eq_strayQuote_of_feed (hn : l.state.rank ≤ n) (h : feed c pos n l hn = .error e) :
    c = '"' ∧ e = .strayQuote pos := by
  induction n generalizing l with
  | zero =>
      rw [feed] at h
      split at h
      · next hstep =>
        cases h
        exact eq_strayQuote_of_step hstep
      · cases h
      · next hstep => exact absurd (rank_lt_of_step hstep) (by omega)
  | succ n ih =>
      rw [feed] at h
      split at h
      · next hstep =>
        cases h
        exact eq_strayQuote_of_step hstep
      · cases h
      · exact ih _ h

/-- A quoted token that is not closed began with a quote. -/
theorem quote_of_finish (h : Read l seen) (hfinish : l.finish = .error e) :
    ∃ token before after, e = .unterminatedQuote token (1 + before.length) ∧ seen = before ++ '"' :: after := by
  cases hstate : l.state <;> simp only [finish, hstate] at hfinish <;> cases hfinish
  obtain ⟨s, gap, h⟩ := h
  have hstart := h.start (by simp [hstate])
  have hseen := h.seen
  rw [underway, hstate] at hseen
  exact ⟨_, _, _, by rw [hstart], hseen.symm⟩

/-- Where the line cannot be read there is a quote. -/
theorem quote_of_run (h : Read l seen) (hrun : l.run (1 + seen.length) cs = .error e) :
    ∃ before after, seen ++ cs = before ++ '"' :: after ∧ e.IsQuote ∧ e.position? = some (1 + before.length) := by
  induction cs generalizing l seen with
  | nil =>
      obtain ⟨token, before, after, rfl, hseen⟩ := quote_of_finish h hrun
      exact ⟨before, after, by rw [List.append_nil, hseen], trivial, rfl⟩
  | cons c cs ih =>
      rw [run] at hrun
      split at hrun
      · next hfeed =>
        cases hrun
        obtain ⟨rfl, rfl⟩ := eq_strayQuote_of_feed _ hfeed
        exact ⟨seen, cs, rfl, trivial, rfl⟩
      · next m hfeed =>
        have hread := read_of_feed _ h hfeed
        rw [show 1 + seen.length + 1 = 1 + (seen ++ [c]).length by simp [Nat.add_assoc]] at hrun
        simpa using ih hread hrun

end Lexer

/-! ### Tokens -/

variable {line nullWord : String} {ts : List Token} {t : Token} {e : ParseError}

/-- Every token has its place in the line. -/
theorem position_of_mem (h : tokenize line = .ok ts) (ht : t ∈ ts) :
    1 ≤ t.position ∧ t.position ≤ line.length := by
  obtain ⟨-, s, last, hline, hs, rfl⟩ := tokenize_eq_ok_iff.1 h
  obtain ⟨xs, ys, hcut⟩ := List.append_of_mem ht
  obtain ⟨a, b, rfl, -, hb⟩ := Spaced.exists_of_placed_eq_append hcut
  rcases b with _ | ⟨⟨gap, u⟩, b⟩
  · cases hb
  · obtain ⟨rfl, -⟩ := List.cons_eq_cons.1 hb
    obtain ⟨-, hspell, -⟩ := hs.right
    obtain ⟨c, cs, hcs, -⟩ := hspell.exists_cons
    rw [← String.length_toList, hline]
    simp only [Spaced.chars_append, Spaced.chars_cons, hcs, List.length_append, List.length_cons]
    omega

theorem isAt_unexpected (t : Token) : (unexpected t).IsAt t := by
  refine ⟨rfl, nofun, ?_, nofun⟩
  rintro text ⟨⟩
  rfl

/-! ### Grouping -/

theorem isAt_of_endpointOf {operator target : Token} (hkind : operator.kind = .redirect)
    (h : endpointOf operator target nullWord = .error e) : e.IsAt operator ∨ e.IsAt target := by
  unfold endpointOf at h
  split_ifs at h <;> cases h
  · refine .inl ⟨rfl, nofun, nofun, ?_⟩
    rintro text - ⟨⟩
    exact ⟨hkind, rfl⟩
  · exact .inr ⟨rfl, nofun, nofun, nofun⟩

theorem isAt_missing {operator : Token} (hkind : operator.kind = .redirect) :
    (ParseError.missingRedirectTarget operator.text operator.position).IsAt operator := by
  refine ⟨rfl, nofun, nofun, ?_⟩
  rintro text - ⟨⟩
  exact ⟨hkind, rfl⟩

theorem isAt_extra (operator extra : Token) :
    (ParseError.extraRedirectTarget operator.text extra.text extra.position).IsAt extra := by
  refine ⟨rfl, nofun, ?_, nofun⟩
  rintro text ⟨⟩
  rfl

theorem isAt_of_redirectOf {operator : Token} {targets : List Token} (hkind : operator.kind = .redirect)
    (h : redirectOf nullWord operator targets = .error e) : ∃ t ∈ operator :: targets, e.IsAt t := by
  rcases targets with _ | ⟨target, _ | ⟨extra, targets⟩⟩
  · cases h
    exact ⟨operator, List.mem_cons_self, isAt_missing hkind⟩
  · rw [redirectOf] at h
    split_ifs at h
    · split at h
      · cases h
        exact ⟨operator, List.mem_cons_self, isAt_unexpected operator⟩
      · rcases he : endpointOf operator target nullWord with f | endpoint <;> rw [he] at h <;> cases h
        rcases isAt_of_endpointOf hkind he with hat | hat
        · exact ⟨operator, List.mem_cons_self, hat⟩
        · exact ⟨target, List.mem_cons_of_mem _ List.mem_cons_self, hat⟩
    · cases h
      exact ⟨operator, List.mem_cons_self, isAt_missing hkind⟩
  · cases h
    exact ⟨extra, by simp, isAt_extra operator extra⟩

theorem isAt_of_group (h : group line ts nullWord = .error e) : ∃ t ∈ ts, e.IsAt t := by
  rw [group_eq] at h
  split at h
  · next pipe hpipe =>
    cases h
    refine ⟨pipe, List.mem_of_mem_drop (List.mem_of_find?_eq_some hpipe), rfl, nofun, ?_, nofun⟩
    rintro text ⟨⟩
    rfl
  · rcases hredirects : (redirectGroups ts).mapM fun g => redirectOf nullWord g.1 g.2 with f | rs <;>
      rw [hredirects] at h <;> cases h
    obtain ⟨⟨operator, targets⟩, hgroup, hfault⟩ := exists_of_mapM_eq_error hredirects
    obtain ⟨before, after, rfl, hkind, rfl⟩ := mem_redirectGroups.1 hgroup
    obtain ⟨t, ht, hat⟩ := isAt_of_redirectOf hkind hfault
    refine ⟨t, ?_, hat⟩
    have hsub := (List.takeWhile_sublist (l := after) (·.kind != .redirect)).cons_cons operator
    exact List.mem_append_right _ (hsub.subset ht)

/-- A redirect is reported at its operator. -/
theorem exists_operator {cl : CommandLine} {r : Redirect} (h : group line ts nullWord = .ok cl)
    (hr : r ∈ cl.redirects) : ∃ t ∈ ts, r.position = t.position := by
  obtain ⟨-, -, hall⟩ := group_eq_ok_iff.1 h
  obtain ⟨⟨operator, targets⟩, hgroup, hmade⟩ := exists_of_mem_forall₂ hall hr
  obtain ⟨before, after, rfl, -, -⟩ := mem_redirectGroups.1 hgroup
  refine ⟨operator, by simp, ?_⟩
  rcases targets with _ | ⟨target, _ | ⟨extra, targets⟩⟩
  · cases hmade
  · rw [redirectOf] at hmade
    split_ifs at hmade
    split at hmade
    · cases hmade
    · obtain ⟨endpoint, -, rfl⟩ := except_map_eq_ok_iff.1 hmade
      rfl
  · cases hmade

/-! ### Redirects -/

section Redirects

variable {expand : String → String} {rs : List Redirect} {r pointer : Redirect} {other : Stream}
variable {output errorOutput : Option Redirect}

/-- The mistake is reported at the operator of one of the redirects. -/
def ParseError.IsAmong (e : ParseError) (rs : List Redirect) : Prop :=
  ∃ r ∈ rs, e.position? = some r.position ∧ ¬e.IsQuote ∧ e.token? = none ∧ e.operator? = none

theorem mem_of_firstDuplicate {seen : List Stream} (h : firstDuplicate seen rs = some r) : r ∈ rs := by
  induction rs generalizing seen with
  | nil => cases h
  | cons a rs ih =>
      rw [firstDuplicate] at h
      split_ifs at h
      · cases h
        exact List.mem_cons_self
      · exact List.mem_cons_of_mem _ (ih h)

theorem isAmong_of_resolveInput (hr : r ∈ rs) (h : resolveInput r = .error e) : e.IsAmong rs := by
  rw [resolveInput] at h
  split at h <;> cases h <;> exact ⟨r, hr, rfl, nofun, rfl, rfl⟩

theorem isAmong_of_standalone (hr : r ∈ rs) (h : standalone other r = .error e) : e.IsAmong rs := by
  rw [standalone] at h
  split at h <;> cases h
  exact ⟨r, hr, rfl, nofun, rfl, rfl⟩

theorem isAmong_of_aliasTarget (hpointer : pointer ∈ rs) (h : aliasTarget pointer r = .error e) : e.IsAmong rs := by
  rw [aliasTarget] at h
  split at h
  · cases h
    exact ⟨pointer, hpointer, rfl, nofun, rfl, rfl⟩
  · split_ifs at h
    cases h
    exact ⟨pointer, hpointer, rfl, nofun, rfl, rfl⟩

theorem isAmong_of_selfAlias (houtput : ∀ r ∈ output, r ∈ rs) (herror : ∀ r ∈ errorOutput, r ∈ rs)
    (h : selfAlias? output errorOutput = some e) : e.IsAmong rs := by
  rw [selfAlias?] at h
  split at h
  · next r hself =>
    cases h
    exact ⟨r, houtput r (Option.filter_eq_some_iff.1 hself).1, rfl, nofun, rfl, rfl⟩
  · obtain ⟨r, hself, rfl⟩ := Option.map_eq_some_iff.1 h
    exact ⟨r, herror r (Option.filter_eq_some_iff.1 hself).1, rfl, nofun, rfl, rfl⟩

theorem isAmong_of_resolveSeparate (houtput : ∀ r ∈ output, r ∈ rs) (herror : ∀ r ∈ errorOutput, r ∈ rs)
    (h : resolveSeparate expand output errorOutput = .error e) : e.IsAmong rs := by
  rcases except_bind_eq_error_iff.1 h with hout | ⟨out, -, hout⟩
  · obtain ⟨r, hr, hfault⟩ := exists_of_option_mapM_eq_error hout
    exact isAmong_of_standalone (houtput r hr) hfault
  rcases except_bind_eq_error_iff.1 hout with herr | ⟨err, -, hsame⟩
  · obtain ⟨r, hr, hfault⟩ := exists_of_option_mapM_eq_error herr
    exact isAmong_of_standalone (herror r hr) hfault
  split at hsame
  · next r =>
    split_ifs at hsame
    · cases hsame
      exact ⟨r, herror r rfl, rfl, nofun, rfl, rfl⟩
    · cases hsame
  · cases hsame

theorem isAmong_of_resolveOutputs (houtput : ∀ r ∈ output, r ∈ rs) (herror : ∀ r ∈ errorOutput, r ∈ rs)
    (h : resolveOutputs expand output errorOutput = .error e) : e.IsAmong rs := by
  rw [resolveOutputs] at h
  split at h
  · next hself =>
    cases h
    exact isAmong_of_selfAlias houtput herror hself
  · split at h
    · next out err _ =>
      split_ifs at h
      · exact isAmong_of_aliasTarget (houtput out rfl) (except_map_eq_error_iff.1 h)
      · exact isAmong_of_aliasTarget (herror err rfl) (except_map_eq_error_iff.1 h)
      · exact isAmong_of_resolveSeparate houtput herror h
    · exact isAmong_of_resolveSeparate houtput herror h

theorem isAmong_of_resolveBy (h : resolveBy expand rs = .error e) : e.IsAmong rs := by
  have hfound (s : Stream) : ∀ r ∈ rs.find? (·.stream = s), r ∈ rs := fun r hr => List.mem_of_find?_eq_some hr
  rw [resolveBy] at h
  split at h
  · next r hduplicate =>
    cases h
    exact ⟨r, mem_of_firstDuplicate hduplicate, rfl, nofun, rfl, rfl⟩
  rcases except_bind_eq_error_iff.1 h with hinput | ⟨input, -, h⟩
  · obtain ⟨r, hr, hfault⟩ := exists_of_option_mapM_eq_error hinput
    exact isAmong_of_resolveInput (hfound _ r hr) hfault
  rcases except_bind_eq_error_iff.1 h with houtputs | ⟨outputs, -, h⟩
  · exact isAmong_of_resolveOutputs (hfound _) (hfound _) houtputs
  · cases h

end Redirects

/-! ### Stages -/

theorem isAt_of_optionName {raw : RawArguments} (h : optionName raw t = .error e) : e.IsAt t := by
  rw [optionName] at h
  split at h
  · cases h
    exact isAt_unexpected t
  · dsimp only at h
    split_ifs at h
    cases h
    refine ⟨rfl, nofun, ?_, nofun⟩
    rintro text ⟨⟩
    rfl

theorem isAt_of_splitFrom {raw : RawArguments} (h : splitFrom raw ts = .error e) : ∃ t ∈ ts, e.IsAt t := by
  fun_induction splitFrom raw ts with
  | case1 | case4 => cases h
  | case2 raw t ts _ ih =>
      obtain ⟨u, hu, hat⟩ := ih h
      exact ⟨u, List.mem_cons_of_mem _ hu, hat⟩
  | case3 raw t ts _ f hname =>
      cases h
      exact ⟨t, List.mem_cons_self, isAt_of_optionName hname⟩
  | case5 raw t _ name _ eq _ | case7 raw t _ name _ eq _ v rest _ =>
      cases h
      exact ⟨eq, by simp, isAt_unexpected eq⟩
  | case6 raw t _ name _ eq _ v rest _ ih =>
      obtain ⟨u, hu, hat⟩ := ih h
      exact ⟨u, by simp [hu], hat⟩
  | case8 raw t _ name _ eq rest _ ih =>
      obtain ⟨u, hu, hat⟩ := ih h
      exact ⟨u, List.mem_cons_of_mem _ hu, hat⟩
  | case9 raw t ts | case10 raw t ts | case11 raw t ts =>
      cases h
      exact ⟨t, List.mem_cons_self, isAt_unexpected t⟩

/-- The tokens of a segment are tokens of the line. -/
theorem tokens_of_mem_segments {cl : CommandLine} {s : Segment} (h : group line ts nullWord = .ok cl)
    (hs : s ∈ cl.segments) : s.tokens ≠ [] ∧ (∀ t ∈ s.tokens, t ∈ ts) ∧ s.position = startOf s.tokens := by
  obtain ⟨-, hsegments, -⟩ := group_eq_ok_iff.1 h
  rw [hsegments] at hs
  obtain ⟨before, pipes, after, hcut, hne, -⟩ := mem_segmentsOf hs
  refine ⟨hne, fun t ht => List.mem_of_mem_take (i := firstRedirect ts) ?_, position_of_mem_segmentsOf hs⟩
  rw [hcut]
  simp [ht]

theorem isAt_of_head {s : Segment} (hne : s.tokens ≠ []) (hstart : s.position = startOf s.tokens)
    (h : Invocation.head s = .error (.parse e)) : ∃ t ∈ s.tokens, e.IsAt t := by
  obtain ⟨t, others, htokens⟩ := List.exists_cons_of_ne_nil hne
  rw [Invocation.head, htokens] at h
  dsimp only at h
  split_ifs at h
  cases h
  rw [htokens] at hstart
  exact ⟨t, by simp [htokens], congrArg some hstart, nofun, nofun, nofun⟩

/-! ### The whole line -/

/-- What goes wrong once the line has its tokens is reported at one of them. -/
theorem isAt_of_mistake (hts : tokenize line = .ok ts) (h : Mistake line nullWord e) : ∃ t ∈ ts, e.IsAt t := by
  have hparse : parse line nullWord = group line ts nullWord := by rw [parse, hts]; rfl
  cases h with
  | parse h => exact isAt_of_group (hparse ▸ h)
  | resolve hcl home h =>
      rw [hparse] at hcl
      obtain ⟨r, hr, hposition, hquote, htoken, hoperator⟩ := isAmong_of_resolveBy h
      obtain ⟨t, ht, hat⟩ := exists_operator hcl hr
      exact ⟨t, ht, hposition.trans (congrArg some hat), hquote, by simp [htoken], by simp [hoperator]⟩
  | split hcl hs h =>
      rw [hparse] at hcl
      obtain ⟨t, ht, hat⟩ := isAt_of_splitFrom h
      exact ⟨t, (tokens_of_mem_segments hcl hs).2.1 t (List.mem_of_mem_tail ht), hat⟩
  | head hcl hs h =>
      rw [hparse] at hcl
      obtain ⟨hne, hmem, hstart⟩ := tokens_of_mem_segments hcl hs
      obtain ⟨t, ht, hat⟩ := isAt_of_head hne hstart h
      exact ⟨t, hmem t ht, hat⟩

/-- Where there are no tokens, the mistake is that the line is blank or a quote in it. -/
theorem eq_of_mistake {d : ParseError} (hd : tokenize line = .error d) (h : Mistake line nullWord e) :
    e = d := by
  have hparse : parse line nullWord = .error d := by rw [parse, hd]; rfl
  cases h with
  | parse h => exact Except.error.inj (h.symm.trans hparse)
  | resolve hcl | split hcl | head hcl => cases hcl.symm.trans hparse

/-- Each mistake but that the line is blank has its place in the line: a quote that is stray or not closed is
there, and otherwise a token of the line starts there, which has the text that the mistake gives for a token, or
else is the redirect operator that it gives. -/
theorem culprit_of_mistake (h : Mistake line nullWord e) (hblank : e ≠ .emptyLine) :
    ∃ p, e.position? = some p ∧ 1 ≤ p ∧ p ≤ line.length ∧
      (e.IsQuote → line.toList[p - 1]? = some '"') ∧
      (¬e.IsQuote → ∃ ts, tokenize line = .ok ts ∧ ∃ t ∈ ts, t.position = p ∧
        (∀ text, e.token? = some text → t.text = text) ∧
        ∀ text, e.token? = none → e.operator? = some text → t.kind = .redirect ∧ t.text = text) := by
  rcases hts : tokenize line with d | ts
  -- either the lexer has stopped at a quote, or there are tokens and one of them is at fault
  · obtain rfl := eq_of_mistake hts h
    rw [tokenize] at hts
    split_ifs at hts
    · exact absurd (Except.error.inj hts).symm hblank
    · obtain ⟨before, after, hcut, hquote, hposition⟩ := Lexer.quote_of_run Lexer.read_empty hts
      rw [List.nil_append] at hcut
      refine ⟨_, hposition, by omega, ?_, fun _ => ?_, fun hno => absurd hquote hno⟩
      · rw [← String.length_toList, hcut, List.length_append, List.length_cons]
        omega
      · rw [hcut]
        simp
  · obtain ⟨t, ht, hat⟩ := isAt_of_mistake hts h
    obtain ⟨hfirst, hlast⟩ := position_of_mem hts ht
    exact ⟨t.position, hat.position, hfirst, hlast, fun hquote => absurd hquote hat.noQuote,
      fun _ => ⟨ts, rfl, t, ht, rfl, hat.token, hat.operator⟩⟩

/-- The second target of a redirect is at fault, and has the text that the mistake gives. -/
theorem culprit_of_extra_target :
    let e : ParseError := .extraRedirectTarget ">" "b" 9
    Mistake "dir > a b" "null" e ∧ e ≠ .emptyLine ∧
      ∃ ts, tokenize "dir > a b" = .ok ts ∧ ∃ t ∈ ts, t.position = 9 ∧ t.text = "b" := by
  intro e
  have hmistake : Mistake "dir > a b" "null" e := .parse (by rfl)
  obtain ⟨p, hp, -, -, -, htoken⟩ := culprit_of_mistake hmistake nofun
  obtain ⟨ts, hts, t, ht, hposition, htext, -⟩ := htoken nofun
  exact ⟨hmistake, nofun, ts, hts, t, ht, hposition.trans (Option.some.inj hp).symm, htext "b" rfl⟩

end CommandShell.Line
