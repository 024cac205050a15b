import CommandShell.Proofs.Line.Spelling

/-!
Which lines are read as which tokens.  Main statement: a line is read as some tokens exactly if it is
their spellings with separators between them and no spelling goes on into what follows it.
-/

namespace CommandShell.Line

open Text

theorem Token.Spelled.moved {t : Token} (h : t.Spelled) (pos : Nat) :
    Token.Spelled { t with position := pos } := by
  cases h with
  | quoted text => exact .quoted text pos
  | word kind text _ hkind hne hplain hsign => exact .word kind text pos hkind hne hplain hsign
  | equalSign => exact .equalSign pos
  | pipe => exact .pipe pos
  | redirect text _ h => exact .redirect text pos h

/-- Neither a separator nor, unless it is a pipe, the sign of one is a spelling's first character. -/
theorem Token.Spelled.exists_cons {t : Token} (h : t.Spelled) :
    ∃ c cs, t.spelling = c :: cs ∧ isSeparator c = false ∧ (t.kind ≠ .pipe → c ≠ '|') := by
  cases h with
  | quoted text pos => exact ⟨'"', _, rfl, by decide, fun _ => by decide⟩
  | word kind text pos hkind hne hplain hsign =>
      obtain ⟨c, cs, hcs⟩ := List.exists_cons_of_ne_nil (show text.toList ≠ [] by simpa using hne)
      obtain ⟨hsep, -, hop⟩ := hplain c (by simp [hcs])
      refine ⟨c, cs, hcs, hsep, fun _ => ?_⟩
      rintro rfl
      exact absurd hop (by decide)
  | equalSign pos => exact ⟨'=', [], by simp [Token.spelling], by decide, fun _ => by decide⟩
  | pipe pos => exact ⟨'|', [], by simp [Token.spelling], by decide, fun h => absurd rfl h⟩
  | redirect text pos h =>
      have hall : ∀ op ∈ redirectOperators, op.toList.head?.any fun c => !isSeparator c && c != '|' := by
        decide
      obtain ⟨c, hc, hgood⟩ := (Option.any_eq_true _ _).1 (hall text h)
      obtain ⟨cs, hcs⟩ := List.head?_eq_some_iff.1 hc
      rw [Bool.and_eq_true, bne_iff_ne] at hgood
      exact ⟨c, cs, hcs, by simpa using hgood.1, fun _ => hgood.2⟩

namespace Spaced

/-- The tokens can be read off their spellings when the separators `last` follow. -/
def Apart : Spaced → List Char → Prop
  | [], last => last.all isSeparator = true
  | (gap, t) :: s, last =>
    gap.all isSeparator = true ∧ t.Spelled ∧ t.endState.EndsBefore (chars s ++ last) ∧ Apart s last

/-- The tokens at the positions of their spellings if the first gap starts at `pos`. -/
def placed (pos : Nat) : Spaced → List Token
  | [] => []
  | (gap, t) :: s =>
    { t with position := pos + gap.length } :: placed (pos + gap.length + t.spelling.length) s

variable {s r : Spaced} {last rest : List Char} {pos : Nat}

@[simp] theorem chars_nil : chars [] = [] := rfl

@[simp] theorem chars_cons (gap : List Char) (t : Token) (s : Spaced) :
    chars ((gap, t) :: s) = gap ++ t.spelling ++ chars s := by
  simp [chars]

@[simp] theorem chars_append (s r : Spaced) : chars (s ++ r) = chars s ++ chars r := by
  simp [chars]

theorem placed_append (pos : Nat) (s r : Spaced) :
    placed pos (s ++ r) = placed pos s ++ placed (pos + (chars s).length) r := by
  induction s generalizing pos with
  | nil => rfl
  | cons x s ih =>
      obtain ⟨gap, t⟩ := x
      simp only [List.cons_append, placed, ih, chars_cons, List.length_append]
      congr 3
      omega

theorem length_placed (pos : Nat) (s : Spaced) : (placed pos s).length = s.length := by
  induction s generalizing pos with
  | nil => rfl
  | cons x s ih => rw [placed, List.length_cons, ih, List.length_cons]

/-- Tokens one after another stand one after another in the layout. -/
theorem exists_of_placed_eq_append {xs ys : List Token} (h : placed pos s = xs ++ ys) :
    ∃ a b, s = a ++ b ∧ placed pos a = xs ∧ placed (pos + (chars a).length) b = ys := by
  refine ⟨s.take xs.length, s.drop xs.length, (List.take_append_drop _ s).symm, ?_⟩
  have hlength : (placed pos (s.take xs.length)).length = xs.length := by
    have hle := congrArg List.length h
    rw [length_placed, List.length_append] at hle
    rw [length_placed, List.length_take]
    omega
  rw [← List.take_append_drop xs.length s, placed_append] at h
  exact List.append_inj h hlength

theorem Apart.right (h : Apart (s ++ r) last) : Apart r last := by
  induction s with
  | nil => exact h
  | cons x s ih => exact ih h.2.2.2

theorem Apart.left (h : Apart (s ++ r) last) (hrest : rest <+: chars r ++ last)
    (hsep : rest.all isSeparator = true) : Apart s rest := by
  induction s with
  | nil => exact hsep
  | cons x s ih =>
      obtain ⟨hgap, hspell, hends, hs⟩ := h
      obtain ⟨more, hmore⟩ := hrest
      have hchars : chars (s ++ r) ++ last = (chars s ++ rest) ++ more := by
        rw [chars_append, List.append_assoc, ← hmore, List.append_assoc]
      have hends : x.2.endState.EndsBefore ((chars s ++ rest) ++ more) := hchars ▸ hends
      exact ⟨hgap, hspell, hends.of_append, ih hs⟩

theorem Apart.spelled (h : Apart s last) : ∀ t ∈ placed pos s, t.Spelled := by
  induction s generalizing pos with
  | nil => nofun
  | cons x s ih =>
      obtain ⟨-, hspell, -, hs⟩ := h
      rw [placed, List.forall_mem_cons]
      exact ⟨hspell.moved _, ih hs⟩

end Spaced

namespace Lexer

variable {l : Lexer} {c : Char} {cs gap last rest : List Char} {pos : Nat} {s : Spaced} {ts : List Token}

theorem run_gap (hstate : l.state = .between) (hgap : gap.all isSeparator = true) :
    l.run pos (gap ++ rest) = l.run (pos + gap.length) rest := by
  induction gap generalizing pos with
  | nil => rfl
  | cons c gap ih =>
      rw [List.all_cons, Bool.and_eq_true] at hgap
      have hstep : l.step c pos = .ok (.consumed l) := by simp [step, hstate, stepBetween, hgap.1]
      rw [List.cons_append, run_of_consumed hstep, ih hgap.2, List.length_cons]
      congr 1
      omega

/-- Tokens that stand apart are read as they are. -/
theorem run_spaced (h : s.Apart last) (hstate : l.state = .between) :
    l.run pos (s.chars ++ last) = .ok (l.tokens.toList ++ s.placed pos) := by
  induction s generalizing l pos with
  | nil =>
      have hend : l.run pos (last ++ []) = l.run (pos + last.length) [] := run_gap hstate h
      rw [List.append_nil] at hend
      rw [Spaced.chars_nil, List.nil_append, hend]
      simp [run, finish, hstate, Spaced.placed]
  | cons x s ih =>
      obtain ⟨gap, t⟩ := x
      obtain ⟨hgap, hspell, hends, hs⟩ := h
      obtain ⟨m, hm, htokens, hrun⟩ := reads_of_spelled hspell l (pos + gap.length) _ hstate hends
      rw [Spaced.chars_cons, List.append_assoc, List.append_assoc, run_gap hstate hgap, hrun, ih hs hm, htokens]
      simp [Spaced.placed]

/-- A text in which every quote is doubled, up to the end or to a quote that is not. -/
theorem exists_doubleQuotes (cs : List Char) :
    (∃ text, cs = doubleQuotes text) ∨
      ∃ text rest, cs = doubleQuotes text ++ '"' :: rest ∧ State.quotePending.EndsBefore rest := by
  induction hn : cs.length using Nat.strongRecOn generalizing cs with
  | _ n ih =>
      subst hn
      rcases cs with _ | ⟨c, cs⟩
      · exact .inl ⟨[], rfl⟩
      by_cases hc : c = '"'
      · subst hc
        rcases cs with _ | ⟨d, cs⟩
        · exact .inr ⟨[], [], rfl, State.noConfusion⟩
        by_cases hd : d = '"'
        · subst hd
          have hshort : cs.length < ('"' :: '"' :: cs).length := by
            rw [List.length_cons, List.length_cons]
            omega
          rcases ih cs.length hshort cs rfl with ⟨text, rfl⟩ | ⟨text, rest, rfl, hrest⟩
          · exact .inl ⟨'"' :: text, rfl⟩
          · exact .inr ⟨'"' :: text, rest, rfl, hrest⟩
        · exact .inr ⟨[], d :: cs, rfl, hd⟩
      · rcases ih cs.length (by simp) cs rfl with ⟨text, rfl⟩ | ⟨text, rest, rfl, hrest⟩
        · exact .inl ⟨c :: text, by rw [doubleQuotes, if_neg hc]⟩
        · exact .inr ⟨c :: text, rest, by rw [doubleQuotes, if_neg hc]; rfl, hrest⟩

theorem run_unclosed (hstate : l.state = .quoted) (text : List Char) :
    ∃ e, l.run pos (doubleQuotes text) = .error e := by
  induction text generalizing l pos with
  | nil => exact ⟨_, by simp only [doubleQuotes, run, finish, hstate]; rfl⟩
  | cons c text ih =>
      by_cases hc : c = '"'
      · subst hc
        rw [doubleQuotes, if_pos rfl,
          run_of_consumed (m := { l with state := .quotePending }) (by simp [step, hstate]),
          run_of_consumed (m := { l.pushChar '"' with state := .quoted }) (by simp [step, pushChar])]
        exact ih rfl
      · rw [doubleQuotes, if_neg hc, run_of_consumed (m := l.pushChar c) (by simp [step, hstate, hc])]
        exact ih hstate

theorem exists_plain (cs : List Char) :
    ∃ word rest, cs = word ++ rest ∧ (∀ c ∈ word, IsPlain c) ∧ ∀ c ∈ rest.head?, ¬IsPlain c := by
  induction cs with
  | nil => exact ⟨[], [], rfl, nofun, nofun⟩
  | cons c cs ih =>
      by_cases hc : IsPlain c
      · obtain ⟨word, rest, rfl, hword, hrest⟩ := ih
        exact ⟨c :: word, rest, rfl, List.forall_mem_cons.2 ⟨hc, hword⟩, hrest⟩
      · exact ⟨[], c :: cs, rfl, nofun, by simpa using hc⟩

/-- Some token's spelling starts the characters and can end there. -/
def Begins (cs : List Char) : Prop :=
  ∃ (t : Token) (rest : List Char), t.Spelled ∧ t.endState.EndsBefore rest ∧ cs = t.spelling ++ rest

theorem between_endsBefore (rest : List Char) : State.between.EndsBefore rest := by
  cases rest with
  | nil => exact State.noConfusion
  | cons c rest => trivial

theorem begins_arrow (text : String) (h : text = ">" ∨ text = "1>" ∨ text = "2>") (cs : List Char) :
    Begins (text.toList ++ cs) := by
  have hone : text ∈ redirectOperators := by
    rcases h with rfl | rfl | rfl <;> decide
  have htwo : text.push '>' ∈ redirectOperators := by
    rcases h with rfl | rfl | rfl <;> decide
  have hend : Token.endState ⟨.redirect, text, 0, false⟩ = .redirect := by simp [Token.endState, h]
  have hclosed : Token.endState ⟨.redirect, text.push '>', 0, false⟩ = .between := by
    rcases h with rfl | rfl | rfl <;> decide
  rcases cs with _ | ⟨c, cs⟩
  · refine ⟨⟨.redirect, text, 0, false⟩, [], .redirect _ _ hone, ?_, rfl⟩
    rw [hend]
    exact State.noConfusion
  by_cases hc : c = '>'
  · subst hc
    refine ⟨⟨.redirect, text.push '>', 0, false⟩, cs, .redirect _ _ htwo, ?_, ?_⟩
    · rw [hclosed]
      exact between_endsBefore cs
    · simp [Token.spelling]
  · refine ⟨⟨.redirect, text, 0, false⟩, c :: cs, .redirect _ _ hone, ?_, rfl⟩
    rw [hend]
    exact hc

theorem run_stray {word : List Char} (hstate : l.state = .between) (hc : IsPlain c)
    (hword : ∀ d ∈ word, IsPlain d) : ∃ e, l.run pos (c :: (word ++ '"' :: rest)) = .error e := by
  have hsep : isSeparator '"' = false := by decide
  rw [run_word_start hstate hc hword (by simp), run_word rfl hword, run,
    feed_of_error (e := .strayQuote (pos + 1 + word.length)) _ (by simp [step, beginToken, hsep])]
  exact ⟨_, rfl⟩

theorem spelled_word {text : String} (pos : Nat) (hne : text ≠ "")
    (hplain : ∀ c ∈ text.toList, IsPlain c) : Token.Spelled ⟨wordKind text, text, pos, false⟩ := by
  refine .word _ _ _ (wordKind_cases text) hne hplain ?_
  unfold wordKind
  split
  · next h => simp [h]
  · next h => simp [h]
  · next hdash hslash =>
      rcases h : text.toList with _ | ⟨c, cs⟩
      · simp
      · have hc : c ≠ '-' ∧ c ≠ '/' := ⟨fun hc => hdash cs (hc ▸ h), fun hc => hslash cs (hc ▸ h)⟩
        simp [hc]

/-- Between tokens, a character that is no separator starts a token, if the line is read at all. -/
theorem begins_of_run (hstate : l.state = .between) (hsep : isSeparator c = false)
    (hrun : l.run pos (c :: cs) = .ok ts) : Begins (c :: cs) := by
  by_cases hquote : c = '"'
  · subst hquote
    have hstep : l.step '"' pos = .ok (.consumed (l.beginToken .quoted "" pos)) := by
      simp [step, stepBetween, hstate, hsep]
    rw [run_of_consumed hstep] at hrun
    rcases exists_doubleQuotes cs with ⟨text, rfl⟩ | ⟨text, rest, rfl, hrest⟩
    · obtain ⟨e, he⟩ : ∃ e, (l.beginToken .quoted "" pos).run (pos + 1) (doubleQuotes text) = .error e :=
        run_unclosed rfl text
      rw [he] at hrun
      cases hrun
    · refine ⟨⟨.value, String.ofList text, 0, true⟩, rest, .quoted _ _, hrest, ?_⟩
      simp [Token.spelling]
  by_cases heq : c = '='
  · subst heq
    exact ⟨⟨.equalSign, "=", 0, false⟩, cs, .equalSign 0, between_endsBefore cs, rfl⟩
  by_cases hpipe : c = '|'
  · subst hpipe
    exact ⟨⟨.pipe, "|", 0, false⟩, cs, .pipe 0, between_endsBefore cs, rfl⟩
  by_cases hless : c = '<'
  · subst hless
    exact ⟨⟨.redirect, "<", 0, false⟩, cs, .redirect _ _ (by decide), between_endsBefore cs, rfl⟩
  by_cases hmore : c = '>'
  · subst hmore
    exact begins_arrow ">" (.inl rfl) cs
  -- what is left starts a word, or an operator that starts with a digit
  have hplain : IsPlain c := ⟨hsep, hquote, by simp [isOperator, heq, hpipe, hless, hmore]⟩
  obtain ⟨word, rest, rfl, hword, hrest⟩ := exists_plain cs
  by_cases harrow : (c = '1' ∨ c = '2') ∧ word = [] ∧ rest.head? = some '>'
  · obtain ⟨hdigit, rfl, hhead⟩ := harrow
    obtain ⟨rest, rfl⟩ := List.head?_eq_some_iff.1 hhead
    rcases hdigit with rfl | rfl
    · exact begins_arrow "1>" (.inr (.inl rfl)) rest
    · exact begins_arrow "2>" (.inr (.inr rfl)) rest
  have hword' : ∀ d ∈ (String.ofList (c :: word)).toList, IsPlain d := by
    rw [String.toList_ofList]
    exact List.forall_mem_cons.2 ⟨hplain, hword⟩
  refine ⟨_, rest, spelled_word 0 (by simp) hword', ?_, by simp [Token.spelling]⟩
  rw [endState_word]
  rcases rest with _ | ⟨d, rest⟩
  · split <;> exact State.noConfusion
  have hd : d ≠ '"' := by
    rintro rfl
    obtain ⟨e, he⟩ : ∃ e, l.run pos (c :: (word ++ '"' :: rest)) = .error e := run_stray hstate hplain hword
    rw [he] at hrun
    cases hrun
  have hends : isSeparator d = true ∨ isOperator d = true := by
    have hnot : ¬IsPlain d := hrest d rfl
    simp only [IsPlain, not_and, Bool.not_eq_false] at hnot
    by_cases hdsep : isSeparator d = true
    · exact .inl hdsep
    · exact .inr (hnot (by simpa using hdsep) hd)
  split
  · next hdigit =>
      have hsingle : (c = '1' ∨ c = '2') ∧ word = [] := by
        rw [← String.toList_inj, ← String.toList_inj, String.toList_ofList] at hdigit
        simpa [← or_and_right] using hdigit
      refine ⟨hends, ?_⟩
      rintro rfl
      exact harrow ⟨hsingle.1, hsingle.2, rfl⟩
  · exact hends

/-- What is read are the tokens of a layout that the characters have. -/
theorem exists_spaced (hstate : l.state = .between) (hrun : l.run pos cs = .ok ts) :
    ∃ (s : Spaced) (last : List Char),
      cs = s.chars ++ last ∧ s.Apart last ∧ ts = l.tokens.toList ++ s.placed pos := by
  -- by induction on the length, one token with the gap before it at a time
  induction hn : cs.length using Nat.strongRecOn generalizing l cs pos with
  | _ n ih =>
      subst hn
      have hgap : (cs.takeWhile isSeparator).all isSeparator = true := List.all_takeWhile
      have hcut := List.takeWhile_append_dropWhile (p := isSeparator) (l := cs)
      rcases hrest : cs.dropWhile isSeparator with _ | ⟨c, rest⟩
      · rw [hrest, List.append_nil] at hcut
        rw [hcut] at hgap
        have hend : l.run pos (cs ++ []) = l.run (pos + cs.length) [] := run_gap hstate hgap
        rw [List.append_nil, hrun] at hend
        refine ⟨[], cs, rfl, hgap, ?_⟩
        simpa [run, finish, hstate, Spaced.placed] using hend
      · have hsep : isSeparator c = false := by
          simpa [hrest] using List.head?_dropWhile_not isSeparator cs
        rw [hrest] at hcut
        rw [← hcut, run_gap hstate hgap] at hrun
        obtain ⟨t, after, hspell, hends, hcs⟩ := begins_of_run hstate hsep hrun
        obtain ⟨m, hm, htokens, hread⟩ := reads_of_spelled hspell l _ after hstate hends
        rw [hcs, hread] at hrun
        have hshort : after.length < cs.length := by
          obtain ⟨d, ds, hd, -, -⟩ := hspell.exists_cons
          rw [← hcut, hcs, hd, List.length_append, List.length_append, List.length_cons]
          omega
        obtain ⟨s, last, rfl, hs, rfl⟩ := ih after.length hshort hm hrun rfl
        refine ⟨(cs.takeWhile isSeparator, t) :: s, last, ?_, ⟨hgap, hspell, hends, hs⟩, ?_⟩
        · rw [Spaced.chars_cons, List.append_assoc, List.append_assoc, ← hcs, hcut]
        · simp [htokens, Spaced.placed]

end Lexer

/-- A line that is not blank is read as some tokens exactly if it is laid out from them. -/
theorem tokenize_eq_ok_iff {line : String} {ts : List Token} :
    tokenize line = .ok ts ↔ isAllBlank line = false ∧
      ∃ (s : Spaced) (last : List Char),
        line.toList = s.chars ++ last ∧ s.Apart last ∧ s.placed 1 = ts := by
  rw [tokenize]
  constructor
  · intro h
    split at h
    · cases h
    · next hblank =>
        obtain ⟨s, last, hline, hs, rfl⟩ := Lexer.exists_spaced rfl h
        exact ⟨by simpa using hblank, s, last, hline, hs, rfl⟩
  · rintro ⟨hblank, s, last, hline, hs, rfl⟩
    rw [if_neg (by simp [hblank]), hline]
    exact Lexer.run_spaced hs rfl

end CommandShell.Line
