import CommandShell.Line.Lexer
import Mathlib.Tactic.SplitIfs

/-!
Where the tokens of a line stand in it.  Main statement: the line is the spellings of its tokens with
separators between them, and an unquoted token's kind can be read off its spelling.
-/

namespace CommandShell.Line

/-- The redirect operators. -/
def redirectOperators : List String := ["<", ">", ">>", "1>", "1>>", "2>", "2>>"]

/-- What a word is that is spelled without quotes. -/
def TokenKind.ofText (text : String) : TokenKind :=
  if text ∈ redirectOperators then .redirect
  else if text = "=" then .equalSign
  else if text = "|" then .pipe
  else if text.toList.head? = some '-' ∨ text.toList.head? = some '/' then .optionName
  else .value

/-- Only what is quoted can be empty, or have a separator or a quote in it. -/
structure Token.WellSpelled (t : Token) : Prop where
  quoted : t.quoted = true → t.kind = .value
  ne_empty : t.quoted = false → t.text ≠ ""
  chars : t.quoted = false → ∀ c ∈ t.text.toList, isSeparator c = false ∧ c ≠ '"'
  kind : t.quoted = false → t.kind = .ofText t.text

/-- Tokens as they stand in a line, each after the separators before it. -/
abbrev Spaced := List (List Char × Token)

namespace Spaced

/-- The characters up to the end of the last token. -/
def chars (s : Spaced) : List Char := s.flatMap fun (gap, t) => gap ++ t.spelling

theorem chars_concat (s : Spaced) (gap : List Char) (t : Token) :
    chars (s ++ [(gap, t)]) = chars s ++ gap ++ t.spelling := by
  simp [chars]

/-- Nothing but separators stands before each token, and its position is that of its spelling. -/
def Fits (s : Spaced) : Prop :=
  ∀ before gap t after, s = before ++ (gap, t) :: after →
    gap.all isSeparator ∧ t.position = 1 + (chars before ++ gap).length ∧ t.WellSpelled

theorem fits_nil : Fits [] := fun _ _ _ _ h => absurd h (by simp)

theorem Fits.concat {s : Spaced} {gap : List Char} {t : Token} (h : Fits s)
    (hgap : gap.all isSeparator) (hpos : t.position = 1 + (chars s ++ gap).length)
    (ht : t.WellSpelled) : Fits (s ++ [(gap, t)]) := by
  intro before gap' t' after heq
  rcases List.eq_nil_or_concat after with rfl | ⟨after, last, rfl⟩
  · obtain ⟨rfl, hlast⟩ := List.append_inj' heq rfl
    cases hlast
    exact ⟨hgap, hpos, ht⟩
  · have hsplit : s ++ [(gap, t)] = (before ++ (gap', t') :: after) ++ [last] := by
      simpa using heq
    exact h before gap' t' after (List.append_inj' hsplit rfl).1

end Spaced

theorem doubleQuotes_append (cs ds : List Char) :
    doubleQuotes (cs ++ ds) = doubleQuotes cs ++ doubleQuotes ds := by
  induction cs with
  | nil => rfl
  | cons c cs ih =>
      by_cases hc : c = '"' <;> simp [doubleQuotes, hc, ih]

namespace Lexer

/-- A character that a word can have in it. -/
def IsPlain (c : Char) : Prop := isSeparator c = false ∧ c ≠ '"' ∧ isOperator c = false

/-- The characters read of the token under way. -/
def underway (l : Lexer) : List Char :=
  match l.state with
  | .between => []
  | .word | .digit | .redirect => l.text.toList
  | .quoted => '"' :: doubleQuotes l.text.toList
  | .quotePending => '"' :: (doubleQuotes l.text.toList ++ ['"'])

/-- What the text under way can be in a state. -/
def Suits (text : String) : State → Prop
  | .between | .quoted | .quotePending => True
  | .word => text ≠ "" ∧ ∀ c ∈ text.toList, IsPlain c
  | .digit => text = "1" ∨ text = "2"
  | .redirect => text = ">" ∨ text = "1>" ∨ text = "2>"

/-- After the characters `seen`: they are the tokens so far as they stand there, the separators
since, and what has been read of the token under way. -/
structure After (l : Lexer) (seen : List Char) (s : Spaced) (gap : List Char) : Prop where
  tokens : s.map (·.2) = l.tokens.toList
  fits : s.Fits
  separators : gap.all isSeparator
  seen : s.chars ++ gap ++ l.underway = seen
  start : l.state ≠ .between → l.start = 1 + (s.chars ++ gap).length
  suits : Suits l.text l.state

/-- `After` for some layout. -/
def Read (l : Lexer) (seen : List Char) : Prop := ∃ s gap, l.After seen s gap

variable {l m : Lexer} {c : Char} {seen : List Char}

theorem seen_of_between {s : Spaced} {gap : List Char} (h : l.After seen s gap)
    (hstate : l.state = .between) : s.chars ++ gap = seen := by
  have hseen := h.seen
  rwa [underway, hstate, List.append_nil] at hseen

theorem read_empty : Read {} [] :=
  ⟨[], [], rfl, Spaced.fits_nil, rfl, rfl, fun h => absurd rfl h, trivial⟩

/-- Ending a token puts it after what has been read. -/
theorem read_of_push {s : Spaced} {gap : List Char} {t : Token} (h : l.After seen s gap)
    (hpos : t.position = 1 + (s.chars ++ gap).length) (ht : t.WellSpelled)
    (hm : m.tokens = l.tokens.push t) (hstate : m.state = .between) :
    Read m (s.chars ++ gap ++ t.spelling) := by
  refine ⟨s ++ [(gap, t)], [], ?_, h.fits.concat h.separators hpos ht, rfl, ?_, ?_, ?_⟩
  · rw [hm, Array.toList_push, List.map_append, h.tokens]
    rfl
  · simp [Spaced.chars_concat, underway, hstate]
  · exact fun hne => absurd hstate hne
  · rw [hstate]
    trivial

theorem read_finishToken {kind : TokenKind} {quoted : Bool} (h : Read l seen)
    (hstate : l.state ≠ .between) (hspell : Token.spelling ⟨kind, l.text, l.start, quoted⟩ = l.underway)
    (hwell : Token.WellSpelled ⟨kind, l.text, l.start, quoted⟩) :
    Read (l.finishToken kind quoted) seen := by
  obtain ⟨s, gap, h⟩ := h
  have hread := read_of_push (m := l.finishToken kind quoted) h (h.start hstate) hwell rfl rfl
  rwa [hspell, h.seen] at hread

/-- A character that goes on with the token under way. -/
theorem read_extend (h : Read l seen) (hstate : l.state ≠ .between)
    (hm : m.tokens = l.tokens ∧ m.start = l.start) (hunder : m.underway = l.underway ++ [c])
    (hsuits : Suits m.text m.state) : Read m (seen ++ [c]) := by
  obtain ⟨s, gap, h⟩ := h
  refine ⟨s, gap, ?_, h.fits, h.separators, ?_, fun _ => ?_, hsuits⟩
  · rw [hm.1, h.tokens]
  · rw [hunder, ← h.seen]
    simp
  · rw [hm.2, h.start hstate]

theorem read_beginToken {state : State} {text : String} (h : Read l seen)
    (hstate : l.state = .between)
    (hunder : (l.beginToken state text (1 + seen.length)).underway = [c])
    (hsuits : Suits text state) :
    Read (l.beginToken state text (1 + seen.length)) (seen ++ [c]) := by
  obtain ⟨s, gap, h⟩ := h
  have hseen := seen_of_between h hstate
  refine ⟨s, gap, h.tokens, h.fits, h.separators, ?_, fun _ => ?_, hsuits⟩
  · rw [hunder, hseen]
  · rw [hseen]
    rfl

theorem read_single {kind : TokenKind} (h : Read l seen) (hstate : l.state = .between)
    (hwell : Token.WellSpelled ⟨kind, c.toString, 1 + seen.length, false⟩) :
    Read (l.single kind c (1 + seen.length)) (seen ++ [c]) := by
  obtain ⟨s, gap, h⟩ := h
  have hseen := seen_of_between h hstate
  have hread := read_of_push (m := l.single kind c (1 + seen.length)) h (by rw [hseen]) hwell rfl hstate
  rw [hseen] at hread
  simpa [Token.spelling, Char.toString] using hread

theorem read_separator (h : Read l seen) (hstate : l.state = .between) (hc : isSeparator c = true) :
    Read l (seen ++ [c]) := by
  obtain ⟨s, gap, h⟩ := h
  refine ⟨s, gap ++ [c], h.tokens, h.fits, ?_, ?_, fun hne => absurd hstate hne, h.suits⟩
  · rw [List.all_append, h.separators, List.all_cons, hc]
    rfl
  · rw [underway, hstate, List.append_nil, ← seen_of_between h hstate, List.append_assoc]

theorem wellSpelled_quoted (text : String) (start : Nat) :
    Token.WellSpelled ⟨.value, text, start, true⟩ :=
  ⟨fun _ => rfl, nofun, nofun, nofun⟩

theorem ofText_of_plain {text : String} (hplain : ∀ c ∈ text.toList, IsPlain c) :
    TokenKind.ofText text = wordKind text := by
  have hoperators : ∀ op ∈ "=" :: "|" :: redirectOperators, op.toList.any isOperator = true := by
    decide
  have hnot : text ∉ "=" :: "|" :: redirectOperators := by
    intro hmem
    obtain ⟨c, hc, hop⟩ := List.any_eq_true.1 (hoperators text hmem)
    simp [(hplain c hc).2.2] at hop
  rw [List.mem_cons, List.mem_cons, not_or, not_or] at hnot
  unfold TokenKind.ofText wordKind
  rw [if_neg hnot.2.2, if_neg hnot.1, if_neg hnot.2.1]
  rcases text.toList with _ | ⟨c, cs⟩
  · simp
  · by_cases hdash : c = '-'
    · simp [hdash]
    · by_cases hslash : c = '/'
      · simp [hslash]
      · simp [hdash, hslash]

theorem wellSpelled_word {text : String} {start : Nat} (hne : text ≠ "")
    (hplain : ∀ c ∈ text.toList, IsPlain c) :
    Token.WellSpelled ⟨wordKind text, text, start, false⟩ where
  quoted := nofun
  ne_empty _ := hne
  chars _ c hc := ⟨(hplain c hc).1, (hplain c hc).2.1⟩
  kind _ := (ofText_of_plain hplain).symm

theorem wellSpelled_operator {kind : TokenKind} {text : String} {start : Nat}
    (htext : text ∈ "=" :: "|" :: redirectOperators) (hkind : kind = .ofText text) :
    Token.WellSpelled ⟨kind, text, start, false⟩ := by
  have hne : ∀ op ∈ "=" :: "|" :: redirectOperators, op ≠ "" := by decide
  have hchars : ∀ op ∈ "=" :: "|" :: redirectOperators,
      op.toList.all (fun c => !isSeparator c && c != '"') = true := by
    decide
  refine ⟨nofun, fun _ => hne text htext, fun _ c hc => ?_, fun _ => hkind⟩
  simpa using List.all_eq_true.1 (hchars text htext) c hc

theorem wellSpelled_redirect {text : String} {start : Nat} (htext : text ∈ redirectOperators) :
    Token.WellSpelled ⟨.redirect, text, start, false⟩ :=
  wellSpelled_operator (List.mem_cons_of_mem _ (List.mem_cons_of_mem _ htext)) (if_pos htext).symm

theorem read_stepBetween (h : Read l seen) (hstate : l.state = .between) :
    Read (l.stepBetween c (1 + seen.length)) (seen ++ [c]) := by
  rw [stepBetween]
  split_ifs with hsep hquote heq hpipe hless hmore hdigit
  · exact read_separator h hstate hsep
  · exact read_beginToken h hstate (by simp [beginToken, underway, doubleQuotes, hquote]) trivial
  · subst heq
    exact read_single h hstate (wellSpelled_operator (by decide) (by decide))
  · subst hpipe
    exact read_single h hstate (wellSpelled_operator (by decide) (by decide))
  · subst hless
    exact read_single h hstate (wellSpelled_operator (by decide) (by decide))
  · subst hmore
    exact read_beginToken h hstate (by simp [beginToken, underway]) (.inl rfl)
  · refine read_beginToken h hstate (by simp [beginToken, underway, Char.toString]) ?_
    rcases hdigit with rfl | rfl
    · exact .inl rfl
    · exact .inr rfl
  · refine read_beginToken h hstate (by simp [beginToken, underway, Char.toString]) ⟨?_, ?_⟩
    · simp [Char.toString]
    · simp only [Char.toString, String.toList_singleton, List.mem_singleton, forall_eq]
      exact ⟨by simpa using hsep, hquote, by simp [isOperator, heq, hpipe, hless, hmore]⟩

theorem suits_of_read (h : Read l seen) : Suits l.text l.state := by
  obtain ⟨s, gap, h⟩ := h
  exact h.suits

theorem read_finishWord (h : Read l seen) (hstate : l.state = .word) : Read l.finishWord seen := by
  have hsuits := suits_of_read h
  rw [hstate] at hsuits
  exact read_finishToken h (by simp [hstate]) (by simp [Token.spelling, underway, hstate])
    (wellSpelled_word hsuits.1 hsuits.2)

theorem read_finishQuoted (h : Read l seen) (hstate : l.state = .quotePending) :
    Read l.finishQuoted seen :=
  read_finishToken h (by simp [hstate]) (by simp [Token.spelling, underway, hstate])
    (wellSpelled_quoted _ _)

theorem read_finishRedirect (h : Read l seen) (hstate : l.state = .redirect) :
    Read (l.finishToken .redirect) seen := by
  have hsuits := suits_of_read h
  rw [hstate] at hsuits
  refine read_finishToken h (by simp [hstate]) (by simp [Token.spelling, underway, hstate]) ?_
  exact wellSpelled_redirect (by rcases hsuits with htext | htext | htext <;> rw [htext] <;> decide)

/-- A second `>` ends a redirect operator. -/
theorem read_finishDouble (h : Read l seen) (hstate : l.state = .redirect) :
    Read ((l.pushChar '>').finishToken .redirect) (seen ++ ['>']) := by
  have hsuits := suits_of_read h
  rw [hstate] at hsuits
  obtain ⟨s, gap, h⟩ := h
  have hwell : Token.WellSpelled ⟨.redirect, l.text.push '>', l.start, false⟩ :=
    wellSpelled_redirect (by rcases hsuits with htext | htext | htext <;> rw [htext] <;> decide)
  have hread := read_of_push (m := (l.pushChar '>').finishToken .redirect) h
    (h.start (by simp [hstate])) hwell rfl rfl
  rw [← h.seen]
  simpa [Token.spelling, underway, hstate] using hread

theorem isPlain_digit {c : Char} (h : c = '1' ∨ c = '2') : IsPlain c := by
  rcases h with rfl | rfl
  · exact ⟨by decide, by decide, by decide⟩
  · exact ⟨by decide, by decide, by decide⟩

/-- A digit that no `>` follows starts a word. -/
theorem read_word_of_digit (h : Read l seen) (hstate : l.state = .digit) :
    Read { l with state := .word } seen := by
  have hsuits := suits_of_read h
  rw [hstate] at hsuits
  obtain ⟨s, gap, h⟩ := h
  refine ⟨s, gap, h.tokens, h.fits, h.separators, ?_, fun _ => h.start (by simp [hstate]), ?_⟩
  · have hseen := h.seen
    rwa [underway, hstate] at hseen
  · rcases hsuits with htext | htext
    · simp [htext, Suits, isPlain_digit]
    · simp [htext, Suits, isPlain_digit]

theorem read_of_consumed (h : Read l seen) (hstep : l.step c (1 + seen.length) = .ok (.consumed m)) :
    Read m (seen ++ [c]) := by
  cases hstate : l.state with
  | between =>
      simp only [step, hstate] at hstep
      cases hstep
      exact read_stepBetween h hstate
  | word =>
      simp only [step, hstate] at hstep
      split_ifs at hstep with hsep hquote hop <;> cases hstep
      · exact read_separator (read_finishWord h hstate) rfl hsep
      · have hsuits := suits_of_read h
        rw [hstate] at hsuits
        refine read_extend h (by simp [hstate]) ⟨rfl, rfl⟩ (by simp [underway, pushChar, hstate]) ?_
        simp only [pushChar, hstate, Suits, String.toList_push, List.mem_append, List.mem_singleton]
        refine ⟨by simp, fun d hd => ?_⟩
        rcases hd with hd | rfl
        · exact hsuits.2 d hd
        · exact ⟨by simpa using hsep, hquote, by simpa using hop⟩
  | quoted =>
      simp only [step, hstate] at hstep
      split_ifs at hstep with hquote <;> cases hstep
      · subst hquote
        exact read_extend h (by simp [hstate]) ⟨rfl, rfl⟩ (by simp [underway, hstate]) trivial
      · refine read_extend h (by simp [hstate]) ⟨rfl, rfl⟩ ?_ (by simp [pushChar, hstate, Suits])
        simp [underway, pushChar, hstate, doubleQuotes_append, doubleQuotes, hquote]
  | quotePending =>
      simp only [step, hstate] at hstep
      split_ifs at hstep with hquote <;> cases hstep
      subst hquote
      refine read_extend h (by simp [hstate]) ⟨rfl, rfl⟩ ?_ trivial
      simp [underway, pushChar, hstate, doubleQuotes_append, doubleQuotes]
  | digit =>
      simp only [step, hstate] at hstep
      split_ifs at hstep with hmore <;> cases hstep
      subst hmore
      have hsuits := suits_of_read h
      rw [hstate] at hsuits
      refine read_extend h (by simp [hstate]) ⟨rfl, rfl⟩ (by simp [underway, pushChar, hstate]) ?_
      rcases hsuits with htext | htext <;> simp [Suits, pushChar, htext]
  | redirect =>
      simp only [step, hstate] at hstep
      split_ifs at hstep with hmore <;> cases hstep
      subst hmore
      exact read_finishDouble h hstate

theorem read_of_again {pos : Nat} (h : Read l seen) (hstep : l.step c pos = .ok (.again m)) :
    Read m seen := by
  cases hstate : l.state with
  | between =>
      simp only [step, hstate] at hstep
      cases hstep
  | word =>
      simp only [step, hstate] at hstep
      split_ifs at hstep <;> cases hstep
      exact read_finishWord h hstate
  | quoted =>
      simp only [step, hstate] at hstep
      split_ifs at hstep <;> cases hstep
  | quotePending =>
      simp only [step, hstate] at hstep
      split_ifs at hstep <;> cases hstep
      exact read_finishQuoted h hstate
  | digit =>
      simp only [step, hstate] at hstep
      split_ifs at hstep <;> cases hstep
      exact read_word_of_digit h hstate
  | redirect =>
      simp only [step, hstate] at hstep
      split_ifs at hstep <;> cases hstep
      exact read_finishRedirect h hstate

theorem read_of_feed {n : Nat} (hn : l.state.rank ≤ n) (h : Read l seen)
    (hfeed : feed c (1 + seen.length) n l hn = .ok m) : Read m (seen ++ [c]) := by
  induction n generalizing l with
  | zero =>
      rw [feed] at hfeed
      split at hfeed
      next => cases hfeed
      next hstep =>
        cases hfeed
        exact read_of_consumed h hstep
      next hstep => exact absurd (rank_lt_of_step hstep) (by omega)
  | succ n ih =>
      rw [feed] at hfeed
      split at hfeed
      next => cases hfeed
      next hstep =>
        cases hfeed
        exact read_of_consumed h hstep
      next hstep => exact ih _ (read_of_again h hstep) hfeed

/-- At the end of the line no token is under way. -/
theorem read_of_finish {ts : List Token} (h : Read l seen) (hfinish : l.finish = .ok ts) :
    ∃ m : Lexer, Read m seen ∧ m.state = .between ∧ m.tokens.toList = ts := by
  cases hstate : l.state <;> simp only [finish, hstate] at hfinish <;> cases hfinish
  case between => exact ⟨l, h, hstate, rfl⟩
  case word => exact ⟨_, read_finishWord h hstate, rfl, rfl⟩
  case digit => exact ⟨_, read_finishWord (read_word_of_digit h hstate) rfl, rfl, rfl⟩
  case quotePending => exact ⟨_, read_finishQuoted h hstate, rfl, rfl⟩
  case redirect => exact ⟨_, read_finishRedirect h hstate, rfl, rfl⟩

theorem read_of_run {cs : List Char} {ts : List Token} (h : Read l seen)
    (hrun : l.run (1 + seen.length) cs = .ok ts) :
    ∃ m : Lexer, Read m (seen ++ cs) ∧ m.state = .between ∧ m.tokens.toList = ts := by
  induction cs generalizing l seen with
  | nil =>
      rw [List.append_nil]
      exact read_of_finish h hrun
  | cons c cs ih =>
      rw [run] at hrun
      split at hrun
      next => cases hrun
      next m hfeed =>
        have hread := read_of_feed _ h hfeed
        have hlength : 1 + seen.length + 1 = 1 + (seen ++ [c]).length := by
          simp [Nat.add_assoc]
        rw [hlength] at hrun
        simpa using ih hread hrun

end Lexer

/-- A line is the spellings of its tokens with separators between them, each token has the position
of its spelling, and what is not quoted is what its text says. -/
theorem tokenize_layout {line : String} {ts : List Token} (h : tokenize line = .ok ts) :
    ∃ (spaced : Spaced) (last : List Char),
      spaced.map (·.2) = ts ∧ line.toList = spaced.chars ++ last ∧ last.all isSeparator ∧
        ∀ before gap t after, spaced = before ++ (gap, t) :: after →
          gap.all isSeparator ∧ t.position = 1 + (Spaced.chars before ++ gap).length ∧
            t.WellSpelled := by
  rw [tokenize] at h
  split at h
  next => cases h
  next =>
    obtain ⟨m, ⟨spaced, last, hafter⟩, hstate, rfl⟩ := Lexer.read_of_run Lexer.read_empty h
    exact ⟨spaced, last, hafter.tokens, (Lexer.seen_of_between hafter hstate).symm,
      hafter.separators, hafter.fits⟩

theorem tokenize_layout_of_option :
    tokenize "A -B=\"C D\"" = .ok [⟨.value, "A", 1, false⟩, ⟨.optionName, "-B", 3, false⟩,
      ⟨.equalSign, "=", 5, false⟩, ⟨.value, "C D", 6, true⟩] ∧
    ∃ (spaced : Spaced) (last : List Char),
      spaced.map (·.2) = [⟨.value, "A", 1, false⟩, ⟨.optionName, "-B", 3, false⟩,
        ⟨.equalSign, "=", 5, false⟩, ⟨.value, "C D", 6, true⟩] ∧
        "A -B=\"C D\"".toList = spaced.chars ++ last ∧ last.all isSeparator ∧
        ∀ before gap t after, spaced = before ++ (gap, t) :: after →
          gap.all isSeparator ∧ t.position = 1 + (Spaced.chars before ++ gap).length ∧
            t.WellSpelled := by
  have htokens : tokenize "A -B=\"C D\"" = .ok [⟨.value, "A", 1, false⟩,
      ⟨.optionName, "-B", 3, false⟩, ⟨.equalSign, "=", 5, false⟩, ⟨.value, "C D", 6, true⟩] := by
    rfl
  exact ⟨htokens, tokenize_layout htokens⟩

end CommandShell.Line
