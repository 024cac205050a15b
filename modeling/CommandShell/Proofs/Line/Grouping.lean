import CommandShell.Line.Group
import CommandShell.Proofs.Line.Rendering
import CommandShell.Proofs.Lists

/-!
Which tokens can be grouped and what they are grouped into.  Main statement: grouping succeeds exactly if
no pipe comes after a redirect and each redirect has one target, and then no token is lost, moved to
another stage or given to another redirect.
-/

namespace CommandShell.Text

theorem pieces_eq_splitOnP {α : Type} (p : α → Bool) (as : List α) : pieces p as = as.splitOnP p := by
  induction as with
  | nil => rfl
  | cons a as ih =>
      rw [pieces, List.splitOnP_cons_eq_if_modifyHead, ih]
      rcases h : as.splitOnP p with _ | ⟨q, qs⟩
      · exact absurd h (List.splitOnP_ne_nil p as)
      · rfl

end CommandShell.Text

namespace CommandShell.Line

open Text

/-- A word that a redirect can have for its target. -/
structure Token.IsTarget (t : Token) (nullWord : String) : Prop where
  word : t.kind = .value ∨ t.kind = .optionName
  ne_empty : t.quoted = true → t.text ≠ ""
  sign : t.quoted = false → eqIgnoringCase t.text nullWord = false → t.text.toList.head? = some '&' →
    t.text = "&1" ∨ t.text = "&2"

/-- The endpoint is what the target says. -/
structure Endpoint.IsOf (e : Endpoint) (nullWord : String) (target : Token) : Prop where
  null : e = .null ↔ target.quoted = false ∧ eqIgnoringCase target.text nullWord = true
  sameAsOutput : e = .sameAsOutput ↔
    target.quoted = false ∧ eqIgnoringCase target.text nullWord = false ∧ target.text = "&1"
  sameAsErrorOutput : e = .sameAsErrorOutput ↔
    target.quoted = false ∧ eqIgnoringCase target.text nullWord = false ∧ target.text = "&2"
  path : ∀ path, e = .path path → path = target.text

/-- The redirect is what the operator and its target say. -/
structure Redirect.IsOf (r : Redirect) (nullWord : String) (operator target : Token) : Prop where
  position : r.position = operator.position
  input : r.stream = .input ↔ operator.text = "<"
  errorOutput : r.stream = .errorOutput ↔ operator.text = "2>" ∨ operator.text = "2>>"
  append : r.append = true ↔ operator.text = ">>" ∨ operator.text = "1>>" ∨ operator.text = "2>>"
  endpoint : r.endpoint.IsOf nullWord target

/-- Where the redirects start; the number of tokens if there are none. -/
def firstRedirect (ts : List Token) : Nat := ts.findIdx (·.kind == .redirect)

/-- No pipe comes after a redirect operator, and each operator has exactly one target. -/
structure Groupable (nullWord : String) (ts : List Token) : Prop where
  noPipe : ∀ t ∈ ts.drop (firstRedirect ts), t.kind ≠ .pipe
  target : ∀ before operator after, ts = before ++ operator :: after → operator.kind = .redirect →
    ∃ target : Token, after.takeWhile (·.kind != .redirect) = [target] ∧ target.IsTarget nullWord

theorem isWord_iff {t : Token} : t.isWord = true ↔ t.kind = .value ∨ t.kind = .optionName := by
  simp [Token.isWord]

/-- The operators are those that the reader of lines makes. -/
theorem operatorMeaning_cases {text : String} (h : text ∈ redirectOperators) :
    ∃ stream append, operatorMeaning text = some (stream, append) ∧
      (stream = .input ↔ text = "<") ∧ (stream = .errorOutput ↔ text = "2>" ∨ text = "2>>") ∧
      (append = true ↔ text = ">>" ∨ text = "1>>" ∨ text = "2>>") := by
  simp only [redirectOperators, List.mem_cons, List.not_mem_nil, or_false] at h
  rcases h with rfl | rfl | rfl | rfl | rfl | rfl | rfl <;> exact ⟨_, _, rfl, by decide⟩

theorem exists_endpointOf {operator target : Token} {nullWord : String} (h : target.IsTarget nullWord) :
    ∃ e, endpointOf operator target nullWord = .ok e := by
  obtain ⟨-, hne, hsign⟩ := h
  unfold endpointOf
  split_ifs with hquoted hempty hnull hone htwo hhead
  · exact absurd (String.isEmpty_iff.1 hempty) (hne hquoted)
  · exact ⟨_, rfl⟩
  · exact ⟨_, rfl⟩
  · exact ⟨_, rfl⟩
  · exact ⟨_, rfl⟩
  · rcases hsign (by simpa using hquoted) (by simpa using hnull) hhead with h | h
    · exact absurd h hone
    · exact absurd h htwo
  · exact ⟨_, rfl⟩

theorem endpointOf_eq_ok {operator target : Token} {nullWord : String} {e : Endpoint}
    (hword : target.isWord = true) (h : endpointOf operator target nullWord = .ok e) :
    target.IsTarget nullWord ∧ e.IsOf nullWord target := by
  unfold endpointOf at h
  split_ifs at h with hquoted hempty hnull hone htwo hhead
  · cases h
    have hne : target.text ≠ "" := fun h => hempty (by simp [h])
    exact ⟨⟨isWord_iff.1 hword, fun _ => hne, by simp [hquoted]⟩, by simp [hquoted], by simp [hquoted],
      by simp [hquoted], by simp⟩
  · cases h
    exact ⟨⟨isWord_iff.1 hword, by simp [hquoted], by simp [hnull]⟩, by simp [hquoted, hnull],
      by simp [hnull], by simp [hnull], by simp⟩
  · cases h
    rw [Bool.not_eq_true] at hquoted hnull
    exact ⟨⟨isWord_iff.1 hword, by simp [hquoted], fun _ _ _ => .inl hone⟩, by simp [hnull],
      ⟨fun _ => ⟨hquoted, hnull, hone⟩, fun _ => rfl⟩, by simp [hone], by simp⟩
  · cases h
    rw [Bool.not_eq_true] at hquoted hnull
    exact ⟨⟨isWord_iff.1 hword, by simp [hquoted], fun _ _ _ => .inr htwo⟩, by simp [hnull],
      by simp [htwo], ⟨fun _ => ⟨hquoted, hnull, htwo⟩, fun _ => rfl⟩, by simp⟩
  · cases h
    exact ⟨⟨isWord_iff.1 hword, by simp [hquoted], fun _ _ h => absurd h hhead⟩, by simp [hnull],
      by simp [hone], by simp [htwo], by simp⟩

theorem redirectOf_eq_ok {nullWord : String} {operator : Token} {targets : List Token} {r : Redirect}
    (hop : operator.text ∈ redirectOperators) (h : redirectOf nullWord operator targets = .ok r) :
    ∃ target, targets = [target] ∧ target.IsTarget nullWord ∧ r.IsOf nullWord operator target := by
  obtain ⟨stream, append, hmeaning, hinput, herror, happend⟩ := operatorMeaning_cases hop
  rcases targets with _ | ⟨target, _ | ⟨extra, targets⟩⟩
  · cases h
  · rw [redirectOf] at h
    split_ifs at h with hword
    rw [hmeaning] at h
    cases he : endpointOf operator target nullWord with
    | error e =>
        simp only [he] at h
        cases h
    | ok e =>
        simp only [he] at h
        cases h
        obtain ⟨htarget, hendpoint⟩ := endpointOf_eq_ok hword he
        exact ⟨target, rfl, htarget, rfl, hinput, herror, happend, hendpoint⟩
  · cases h

theorem exists_redirectOf {nullWord : String} {operator target : Token}
    (hop : operator.text ∈ redirectOperators) (h : target.IsTarget nullWord) :
    ∃ r, redirectOf nullWord operator [target] = .ok r := by
  obtain ⟨stream, append, hmeaning, -⟩ := operatorMeaning_cases hop
  obtain ⟨e, he⟩ : ∃ e, endpointOf operator target nullWord = .ok e := exists_endpointOf h
  rw [redirectOf, if_pos (isWord_iff.2 h.word), hmeaning]
  dsimp only
  rw [he]
  exact ⟨_, rfl⟩

section Groups

variable {ts : List Token} {t operator : Token}

theorem mem_redirectGroups {targets : List Token} : (operator, targets) ∈ redirectGroups ts ↔
    ∃ before after, ts = before ++ operator :: after ∧ operator.kind = .redirect ∧
      targets = after.takeWhile (·.kind != .redirect) := by
  induction ts with
  | nil => simp [redirectGroups]
  | cons t ts ih =>
      rw [redirectGroups]
      split_ifs with ht
      · rw [List.mem_cons, ih]
        constructor
        · rintro (heq | ⟨before, after, rfl, hop, rfl⟩)
          · cases heq
            exact ⟨[], ts, rfl, ht, rfl⟩
          · exact ⟨t :: before, after, rfl, hop, rfl⟩
        · rintro ⟨before, after, heq, hop, rfl⟩
          rcases before with _ | ⟨u, before⟩
          · cases heq
            exact .inl rfl
          · cases heq
            exact .inr ⟨before, after, rfl, hop, rfl⟩
      · rw [ih]
        constructor
        · rintro ⟨before, after, rfl, hop, rfl⟩
          exact ⟨t :: before, after, rfl, hop, rfl⟩
        · rintro ⟨before, after, heq, hop, rfl⟩
          rcases before with _ | ⟨u, before⟩
          · cases heq
            exact absurd hop ht
          · cases heq
            exact ⟨before, after, rfl, hop, rfl⟩

/-- The groups are the tokens from the first operator on. -/
theorem flatMap_redirectGroups (ts : List Token) :
    (redirectGroups ts).flatMap (fun g => g.1 :: g.2) = ts.dropWhile (·.kind != .redirect) := by
  induction ts with
  | nil => rfl
  | cons t ts ih =>
      rw [redirectGroups]
      split_ifs with ht
      · rw [List.flatMap_cons, ih, List.cons_append, List.takeWhile_append_dropWhile,
          List.dropWhile_cons_of_neg (by simp [ht])]
      · rw [ih, List.dropWhile_cons_of_pos (by simp [ht])]

theorem redirectGroups_dropWhile (ts : List Token) :
    redirectGroups (ts.dropWhile (·.kind != .redirect)) = redirectGroups ts := by
  induction ts with
  | nil => rfl
  | cons t ts ih =>
      by_cases ht : t.kind = .redirect
      · rw [List.dropWhile_cons_of_neg (by simp [ht])]
      · rw [List.dropWhile_cons_of_pos (by simp [ht]), ih, redirectGroups, if_neg ht]

theorem drop_firstRedirect (ts : List Token) :
    ts.drop (firstRedirect ts) = ts.dropWhile (·.kind != .redirect) := by
  rw [List.dropWhile_eq_drop_findIdx_not]
  simp [firstRedirect, bne]

theorem take_firstRedirect (ts : List Token) :
    ts.take (firstRedirect ts) = ts.takeWhile (·.kind != .redirect) := by
  rw [List.takeWhile_eq_take_findIdx_not]
  simp [firstRedirect, bne]

theorem map_tokens_segmentsOf (chars : List Char) (stop : Nat) (sts : List (List Token)) :
    (segmentsOf chars stop sts).map (·.tokens) = sts := by
  induction sts with
  | nil => rfl
  | cons ts sts ih => simp only [segmentsOf, List.map_cons, ih]

theorem position_of_mem_segmentsOf {chars : List Char} {stop : Nat} {sts : List (List Token)}
    {s : Segment} (h : s ∈ segmentsOf chars stop sts) : s.position = startOf s.tokens := by
  induction sts with
  | nil => cases h
  | cons ts sts ih =>
      simp only [segmentsOf, List.mem_cons] at h
      rcases h with rfl | h
      · rfl
      · exact ih h

/-- The position of the first token; without a token it is `stop`. -/
def startOr (stop : Nat) : List Token → Nat
  | [] => stop
  | first :: _ => first.position

theorem group_eq (line nullWord : String) (ts : List Token) :
    group line ts nullWord = match (ts.drop (firstRedirect ts)).find? (·.kind == .pipe) with
      | some pipe => .error (.redirectBeforeCommand pipe.text pipe.position)
      | none => ((redirectGroups ts).mapM fun g => redirectOf nullWord g.1 g.2).map
          (⟨segmentsOf line.toList (startOr (line.toList.length + 1) (ts.drop (firstRedirect ts)))
            (stages (ts.take (firstRedirect ts))), ·⟩) := by
  rw [drop_firstRedirect, take_firstRedirect, ← redirectGroups_dropWhile]
  rfl

theorem group_eq_ok_iff {line nullWord : String} {cl : CommandLine} :
    group line ts nullWord = .ok cl ↔
      (∀ t ∈ ts.drop (firstRedirect ts), t.kind ≠ .pipe) ∧
        cl.segments = segmentsOf line.toList
          (startOr (line.toList.length + 1) (ts.drop (firstRedirect ts)))
          (stages (ts.take (firstRedirect ts))) ∧
        List.Forall₂ (fun g r => redirectOf nullWord g.1 g.2 = .ok r) (redirectGroups ts) cl.redirects := by
  rw [group_eq, ← mapM_eq_ok_iff]
  cases hpipe : (ts.drop (firstRedirect ts)).find? (·.kind == .pipe) with
  | some pipe =>
      have hkind : pipe.kind = .pipe := by simpa using List.find?_some hpipe
      have hno : ¬∀ t ∈ ts.drop (firstRedirect ts), t.kind ≠ .pipe :=
        fun h => h pipe (List.mem_of_find?_eq_some hpipe) hkind
      simp [hno]
  | none =>
      have hno : ∀ t ∈ ts.drop (firstRedirect ts), t.kind ≠ .pipe := by
        simpa using List.find?_eq_none.1 hpipe
      obtain ⟨segments, redirects⟩ := cl
      cases (redirectGroups ts).mapM fun g => redirectOf nullWord g.1 g.2 with
      | error e => simp [Except.map]
      | ok rs =>
          simp only [Except.map, Except.ok.injEq, CommandLine.mk.injEq, eq_comm (a := segments)]
          exact ⟨fun h => ⟨hno, h⟩, fun h => h.2⟩

end Groups

/-- What a line is read as has no other operators. -/
theorem text_mem_of_tokenize {line : String} {ts : List Token} (h : tokenize line = .ok ts) {t : Token}
    (ht : t ∈ ts) (hkind : t.kind = .redirect) : t.text ∈ redirectOperators := by
  obtain ⟨-, s, last, -, hs, rfl⟩ := tokenize_eq_ok_iff.1 h
  cases hs.spelled t ht with
  | redirect text pos h => exact h
  | word kind text pos h =>
      subst hkind
      rcases h with h | h <;> cases h
  | quoted | equalSign | pipe => cases hkind

/-- If every group makes a redirect, then each has one target. -/
theorem exists_pairs {nullWord : String} {groups : List (Token × List Token)} {rs : List Redirect}
    (hops : ∀ g ∈ groups, g.1.kind = .redirect ∧ g.1.text ∈ redirectOperators)
    (h : List.Forall₂ (fun g r => redirectOf nullWord g.1 g.2 = .ok r) groups rs) :
    ∃ pairs : List (Token × Token), groups = pairs.map (fun p => (p.1, [p.2])) ∧
      List.Forall₂ (fun p r => p.1.kind = .redirect ∧ p.2.IsTarget nullWord ∧ r.IsOf nullWord p.1 p.2)
        pairs rs := by
  induction h with
  | nil => exact ⟨[], rfl, .nil⟩
  | @cons g r groups rs hr _ ih =>
      obtain ⟨⟨hkind, hop⟩, hops⟩ := List.forall_mem_cons.1 hops
      obtain ⟨target, htargets, htarget, hof⟩ := redirectOf_eq_ok hop hr
      obtain ⟨pairs, rfl, hpairs⟩ := ih hops
      refine ⟨(g.1, target) :: pairs, ?_, .cons ⟨hkind, htarget, hof⟩ hpairs⟩
      rw [List.map_cons, ← htargets]

theorem exists_group_iff {line nullWord : String} {ts : List Token}
    (hops : ∀ t ∈ ts, t.kind = .redirect → t.text ∈ redirectOperators) :
    (∃ cl, group line ts nullWord = .ok cl) ↔ Groupable nullWord ts := by
  have hgroups : (∃ cl, group line ts nullWord = .ok cl) ↔
      (∀ t ∈ ts.drop (firstRedirect ts), t.kind ≠ .pipe) ∧
        ∀ g ∈ redirectGroups ts, ∃ r, redirectOf nullWord g.1 g.2 = .ok r := by
    rw [← exists_forall₂_iff]
    constructor
    · rintro ⟨cl, h⟩
      obtain ⟨hpipe, -, hredirects⟩ := group_eq_ok_iff.1 h
      exact ⟨hpipe, _, hredirects⟩
    · rintro ⟨hpipe, rs, hredirects⟩
      exact ⟨⟨_, rs⟩, group_eq_ok_iff.2 ⟨hpipe, rfl, hredirects⟩⟩
  rw [hgroups]
  constructor
  · rintro ⟨hpipe, hall⟩
    refine ⟨hpipe, ?_⟩
    rintro before operator after rfl hkind
    obtain ⟨r, hr⟩ := hall _ (mem_redirectGroups.2 ⟨before, after, rfl, hkind, rfl⟩)
    obtain ⟨target, htarget, hof, -⟩ := redirectOf_eq_ok (hops operator (by simp) hkind) hr
    exact ⟨target, htarget, hof⟩
  · rintro ⟨hpipe, htarget⟩
    refine ⟨hpipe, ?_⟩
    rintro ⟨operator, targets⟩ hg
    obtain ⟨before, after, rfl, hkind, rfl⟩ := mem_redirectGroups.1 hg
    obtain ⟨target, heq, hof⟩ := htarget before operator after rfl hkind
    rw [heq]
    exact exists_redirectOf (hops operator (by simp) hkind) hof

/-- Grouping is exact: it fails only where a pipe comes after a redirect or a redirect has not exactly one
target that it can have; each stage has all of its tokens, and each redirect its operator and target. -/
theorem group_exact {line : String} {ts : List Token} (h : tokenize line = .ok ts) (nullWord : String) :
    ((∃ cl, group line ts nullWord = .ok cl) ↔ Groupable nullWord ts) ∧
      ∀ cl, group line ts nullWord = .ok cl →
        cl.segments.map (·.tokens) =
          ((ts.take (firstRedirect ts)).splitOnP (·.kind == .pipe)).filter (!·.isEmpty) ∧
        (∀ s ∈ cl.segments, s.position = startOf s.tokens) ∧
        ∃ pairs : List (Token × Token),
          ts.drop (firstRedirect ts) = pairs.flatMap (fun p => [p.1, p.2]) ∧
          List.Forall₂ (fun p r =>
            p.1.kind = .redirect ∧ p.2.IsTarget nullWord ∧ r.IsOf nullWord p.1 p.2) pairs cl.redirects := by
  have hops : ∀ t ∈ ts, t.kind = .redirect → t.text ∈ redirectOperators :=
    fun t ht hkind => text_mem_of_tokenize h ht hkind
  refine ⟨exists_group_iff hops, fun cl hcl => ?_⟩
  obtain ⟨-, hsegments, hredirects⟩ := group_eq_ok_iff.1 hcl
  refine ⟨?_, ?_, ?_⟩
  · rw [hsegments, map_tokens_segmentsOf, stages, pieces_eq_splitOnP]
  · rw [hsegments]
    exact fun s hs => position_of_mem_segmentsOf hs
  · have hgroups : ∀ g ∈ redirectGroups ts, g.1.kind = .redirect ∧ g.1.text ∈ redirectOperators := by
      rintro ⟨operator, targets⟩ hg
      obtain ⟨before, after, rfl, hkind, -⟩ := mem_redirectGroups.1 hg
      exact ⟨hkind, hops operator (by simp) hkind⟩
    obtain ⟨pairs, heq, hpairs⟩ := exists_pairs hgroups hredirects
    refine ⟨pairs, ?_, hpairs⟩
    rw [drop_firstRedirect, ← flatMap_redirectGroups, heq, List.flatMap_map]

/-- A quoted pipe, two pipes together, a quoted null word, an alias and the null word. -/
def quotedNull : List Token :=
  [⟨.value, "A", 1, false⟩, ⟨.value, "|", 3, true⟩, ⟨.pipe, "|", 7, false⟩, ⟨.pipe, "|", 8, false⟩,
    ⟨.optionName, "-x", 10, false⟩, ⟨.redirect, ">", 13, false⟩, ⟨.value, "null", 15, true⟩,
    ⟨.redirect, "2>>", 22, false⟩, ⟨.value, "&1", 25, false⟩, ⟨.redirect, "<", 28, false⟩,
    ⟨.value, "NULL", 29, false⟩]

theorem group_exact_of_quoted_null :
    tokenize "A \"|\" || -x > \"null\" 2>>&1 <NULL" = .ok quotedNull ∧ Groupable "null" quotedNull ∧
    ∃ segments, segments.map Segment.tokens = [[⟨.value, "A", 1, false⟩, ⟨.value, "|", 3, true⟩],
        [⟨.optionName, "-x", 10, false⟩]] ∧
      parse "A \"|\" || -x > \"null\" 2>>&1 <NULL" = .ok ⟨segments,
        [⟨.output, false, .path "null", 13⟩, ⟨.errorOutput, true, .sameAsOutput, 22⟩,
          ⟨.input, false, .null, 28⟩]⟩ := by
  have htokens : tokenize "A \"|\" || -x > \"null\" 2>>&1 <NULL" = .ok quotedNull := by rfl
  obtain ⟨hiff, hgroup⟩ := group_exact htokens "null"
  exact ⟨htokens, hiff.1 ⟨_, rfl⟩, _, (hgroup _ rfl).1.trans (by decide), by rfl⟩

end CommandShell.Line
