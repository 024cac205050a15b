import CommandShell.Proofs.Line.Layout
import CommandShell.Text.Pieces

/-!
Tokens written out with a blank between each two.  Main statement: the line is read as the same tokens,
each at the position where its spelling starts, whatever the quoted ones hold.
-/

namespace CommandShell.Line

open Text

/-- A token whose spelling says what it is.  Its position does not matter. -/
inductive Token.Spelled : Token → Prop
  | quoted (text : String) (pos : Nat) : Spelled ⟨.value, text, pos, true⟩
  | word (kind : TokenKind) (text : String) (pos : Nat) (hkind : kind = .value ∨ kind = .optionName)
      (hne : text ≠ "") (hplain : ∀ c ∈ text.toList, Lexer.IsPlain c)
      (hsign : kind = .optionName ↔
        text.toList.head? = some '-' ∨ text.toList.head? = some '/') :
      Spelled ⟨kind, text, pos, false⟩
  | equalSign (pos : Nat) : Spelled ⟨.equalSign, "=", pos, false⟩
  | pipe (pos : Nat) : Spelled ⟨.pipe, "|", pos, false⟩
  | redirect (text : String) (pos : Nat) (h : text ∈ redirectOperators) :
      Spelled ⟨.redirect, text, pos, false⟩

/-- The state of a lexer that has read the token's spelling. -/
def Token.endState (t : Token) : Lexer.State :=
  if t.quoted then .quotePending
  else
    match t.kind with
    | .value | .optionName => if t.text = "1" ∨ t.text = "2" then .digit else .word
    | .redirect => if t.text = ">" ∨ t.text = "1>" ∨ t.text = "2>" then .redirect else .between
    | .equalSign | .pipe => .between

/-- The tokens as they are written, with one blank between each two. -/
def spellLine (ts : List Token) : List Char := joinPieces [' '] (ts.map Token.spelling)

/-- The tokens at the positions where their spellings start if the first one starts at `pos`. -/
def placedFrom (pos : Nat) : List Token → List Token
  | [] => []
  | t :: ts => { t with position := pos } :: placedFrom (pos + t.spelling.length + 1) ts

namespace Lexer

variable {l m : Lexer} {c : Char} {cs rest : List Char} {pos : Nat}

theorem feed_of_error {n : Nat} {e : ParseError} (hn : l.state.rank ≤ n)
    (h : l.step c pos = .error e) : feed c pos n l hn = .error e := by
  unfold feed
  split <;> simp_all

theorem feed_of_consumed {n : Nat} (hn : l.state.rank ≤ n) (h : l.step c pos = .ok (.consumed m)) :
    feed c pos n l hn = .ok m := by
  unfold feed
  split <;> simp_all

theorem feed_of_again {n : Nat} (hn : l.state.rank ≤ n + 1) (h : l.step c pos = .ok (.again m)) :
    feed c pos (n + 1) l hn = feed c pos n m (by have := rank_lt_of_step h; omega) := by
  conv => lhs; unfold feed
  split
  · simp_all
  · simp_all
  · next hstep =>
      cases h.symm.trans hstep
      rfl

/-- How often a character may still be met again does not matter. -/
theorem feed_eq {n k : Nat} (hn : l.state.rank ≤ n) (hk : l.state.rank ≤ k) :
    feed c pos n l hn = feed c pos k l hk := by
  induction n generalizing l k with
  | zero =>
      match hstep : l.step c pos with
      | .error e => rw [feed_of_error hn hstep, feed_of_error hk hstep]
      | .ok (.consumed m) => rw [feed_of_consumed hn hstep, feed_of_consumed hk hstep]
      | .ok (.again m) => exact absurd (rank_lt_of_step hstep) (by omega)
  | succ n ih =>
      match hstep : l.step c pos with
      | .error e => rw [feed_of_error hn hstep, feed_of_error hk hstep]
      | .ok (.consumed m) => rw [feed_of_consumed hn hstep, feed_of_consumed hk hstep]
      | .ok (.again m) =>
          cases k with
          | zero => exact absurd (rank_lt_of_step hstep) (by omega)
          | succ k => rw [feed_of_again hn hstep, feed_of_again hk hstep, ih]

theorem run_of_error {e : ParseError} (h : l.step c pos = .error e) : l.run pos (c :: cs) = .error e := by
  rw [run, feed_of_error _ h]

theorem run_of_consumed (h : l.step c pos = .ok (.consumed m)) :
    l.run pos (c :: cs) = m.run (pos + 1) cs := by
  rw [run, feed_of_consumed _ h]

theorem run_of_again (h : l.step c pos = .ok (.again m)) :
    l.run pos (c :: cs) = m.run pos (c :: cs) := by
  rw [run, run, feed_of_again _ h, feed_eq _ (rank_le_two _)]

/-- Ends the token under way, unless it is quoted and its last quote is missing. -/
def close (l : Lexer) : Lexer :=
  match l.state with
  | .between | .quoted => l
  | .word | .digit => l.finishWord
  | .quotePending => l.finishQuoted
  | .redirect => l.finishToken .redirect

/-- The character does not belong to the token under way. -/
def State.EndsAt (c : Char) : State → Prop
  | .between => True
  | .word => isSeparator c = true ∨ isOperator c = true
  | .quoted => False
  | .quotePending => c ≠ '"'
  | .digit => (isSeparator c = true ∨ isOperator c = true) ∧ c ≠ '>'
  | .redirect => c ≠ '>'

/-- The token under way can end before the rest of the line. -/
def State.EndsBefore (s : State) : List Char → Prop
  | [] => s ≠ .quoted
  | c :: _ => s.EndsAt c

theorem State.EndsBefore.of_append {s : State} {cs ds : List Char} (h : s.EndsBefore (cs ++ ds)) :
    s.EndsBefore cs := by
  cases cs with
  | cons c cs => exact h
  | nil =>
      cases ds with
      | nil => exact h
      | cons d ds =>
          rintro rfl
          exact h

theorem endsAt_of_separator {s : State} (hs : s ≠ .quoted) (hc : isSeparator c = true) : s.EndsAt c := by
  have hne : ∀ d, isSeparator d = false → c ≠ d := by
    rintro d hd rfl
    simp [hc] at hd
  cases s with
  | between => trivial
  | word => exact .inl hc
  | quoted => exact absurd rfl hs
  | quotePending => exact hne '"' (by decide)
  | digit => exact ⟨.inl hc, hne '>' (by decide)⟩
  | redirect => exact hne '>' (by decide)

theorem run_close_word (hstate : l.state = .word) (hrest : State.word.EndsBefore rest) :
    l.run pos rest = l.finishWord.run pos rest := by
  cases rest with
  | nil => simp only [run, finish, hstate, finishWord, finishToken]
  | cons c cs =>
      by_cases hc : isSeparator c = true
      · rw [run_of_consumed (m := l.finishWord) (by simp [step, hstate, hc]),
          run_of_consumed (l := l.finishWord) (m := l.finishWord)
            (by simp [step, finishWord, finishToken, stepBetween, hc])]
      · have hop : isOperator c = true := hrest.resolve_left hc
        have hquote : c ≠ '"' := by
          rintro rfl
          exact absurd hop (by decide)
        exact run_of_again (by simp [step, hstate, hc, hquote, hop])

theorem run_close (hrest : l.state.EndsBefore rest) : l.run pos rest = l.close.run pos rest := by
  cases hs : l.state with
  | between => rw [close, hs]
  | word =>
      rw [hs] at hrest
      rw [close, hs, run_close_word hs hrest]
  | quoted =>
      rw [hs] at hrest
      cases rest with
      | nil => exact absurd rfl hrest
      | cons c cs => exact hrest.elim
  | quotePending =>
      rw [hs] at hrest
      cases rest with
      | nil => simp only [run, finish, close, hs, finishQuoted, finishToken]
      | cons c cs => rw [close, hs, run_of_again (m := l.finishQuoted) (by simp [step, hs, show c ≠ '"' from hrest])]
  | digit =>
      rw [hs] at hrest
      cases rest with
      | nil => simp only [run, finish, close, hs, finishWord, finishToken]
      | cons c cs =>
          have hword : State.word.EndsBefore (c :: cs) := hrest.1
          rw [close, hs, run_of_again (m := { l with state := .word }) (by simp [step, hs, hrest.2]),
            run_close_word (l := { l with state := .word }) rfl hword]
          rfl
  | redirect =>
      rw [hs] at hrest
      cases rest with
      | nil => simp only [run, finish, close, hs, finishToken]
      | cons c cs => rw [close, hs, run_of_again (m := l.finishToken .redirect) (by simp [step, hs, show c ≠ '>' from hrest])]

theorem push_append (s : String) (c : Char) (cs : List Char) :
    s.push c ++ String.ofList cs = s ++ String.ofList (c :: cs) := by
  rw [← String.toList_inj]
  simp

theorem run_quoted (hstate : l.state = .quoted) (cs rest : List Char) :
    l.run pos (doubleQuotes cs ++ '"' :: rest) =
      { l with state := .quotePending, text := l.text ++ String.ofList cs }.run
        (pos + (doubleQuotes cs ++ ['"']).length) rest := by
  induction cs generalizing l pos with
  | nil =>
      rw [doubleQuotes, List.nil_append, run_of_consumed (m := { l with state := .quotePending })
        (by simp [step, hstate])]
      simp
  | cons c cs ih =>
      by_cases hc : c = '"'
      · -- the first of two quotes could be the last one of the token
        subst hc
        rw [doubleQuotes, if_pos rfl, List.cons_append, List.cons_append,
          run_of_consumed (m := { l with state := .quotePending }) (by simp [step, hstate]),
          run_of_consumed (m := { l.pushChar '"' with state := .quoted }) (by simp [step, pushChar]),
          ih rfl]
        simp only [pushChar, push_append, List.length_append, List.length_cons]
        congr 1
        omega
      · rw [doubleQuotes, if_neg hc, List.cons_append,
          run_of_consumed (m := l.pushChar c) (by simp [step, hstate, hc]), ih (by simp [pushChar, hstate])]
        simp only [pushChar, push_append, List.length_append, List.length_cons]
        congr 1
        omega

theorem run_word (hstate : l.state = .word) (hplain : ∀ c ∈ cs, IsPlain c) (rest : List Char) :
    l.run pos (cs ++ rest) = { l with text := l.text ++ String.ofList cs }.run (pos + cs.length) rest := by
  induction cs generalizing l pos with
  | nil => simp
  | cons c cs ih =>
      obtain ⟨⟨hsep, hquote, hop⟩, hplain⟩ := List.forall_mem_cons.1 hplain
      rw [List.cons_append, run_of_consumed (m := l.pushChar c) (by simp [step, hstate, hsep, hquote, hop]),
        ih (by simp [pushChar, hstate]) hplain]
      simp only [pushChar, push_append, List.length_cons]
      congr 1
      omega

/-- A digit that no `>` follows is the start of a word. -/
theorem run_digit (hstate : l.state = .digit) (hplain : ∀ c ∈ cs, IsPlain c)
    (hrest : cs = [] → rest.head? ≠ some '>') :
    l.run pos (cs ++ rest) = { l with state := .word }.run pos (cs ++ rest) := by
  cases cs with
  | nil =>
      have hmore := hrest rfl
      cases rest with
      | nil => simp only [List.append_nil, run, finish, hstate, finishWord, finishToken]
      | cons c rest =>
          rw [List.head?_cons, Ne, Option.some_inj] at hmore
          exact run_of_again (by simp [step, hstate, hmore])
  | cons c cs =>
      have hmore : c ≠ '>' := by
        rintro rfl
        simpa [isOperator] using (hplain '>' (by simp)).2.2
      rw [List.cons_append, run_of_again (m := { l with state := .word }) (by simp [step, hstate, hmore])]

/-- Reading a spelling between tokens adds the token, if it can end before what follows. -/
def Reads (t : Token) : Prop :=
  ∀ (l : Lexer) (pos : Nat) (rest : List Char), l.state = .between → t.endState.EndsBefore rest →
    ∃ m : Lexer, m.state = .between ∧ m.tokens = l.tokens.push { t with position := pos } ∧
      l.run pos (t.spelling ++ rest) = m.run (pos + t.spelling.length) rest

theorem endState_ne_quoted (t : Token) : t.endState ≠ .quoted := by
  unfold Token.endState
  split
  · exact State.noConfusion
  · split <;> (try split) <;> exact State.noConfusion

theorem wordKind_cases (text : String) : wordKind text = .value ∨ wordKind text = .optionName := by
  unfold wordKind
  split
  · exact .inr rfl
  · exact .inr rfl
  · exact .inl rfl

theorem endState_word (text : String) (pos : Nat) :
    Token.endState ⟨wordKind text, text, pos, false⟩ =
      if text = "1" ∨ text = "2" then .digit else .word := by
  rcases wordKind_cases text with h | h
  · simp [Token.endState, h]
  · simp [Token.endState, h]

theorem State.EndsBefore.word (h : State.digit.EndsBefore rest) : State.word.EndsBefore rest := by
  cases rest with
  | nil => exact State.noConfusion
  | cons c rest => exact h.1

theorem State.EndsBefore.head_ne (h : State.digit.EndsBefore rest) : rest.head? ≠ some '>' := by
  cases rest with
  | nil => nofun
  | cons c rest =>
      rw [List.head?_cons, Ne, Option.some_inj]
      exact h.2

/-- A word is under way after its first character, also after a digit that no `>` follows. -/
theorem run_word_start (hstate : l.state = .between) (hc : IsPlain c) (hcs : ∀ d ∈ cs, IsPlain d)
    (hrest : c = '1' ∨ c = '2' → cs = [] → rest.head? ≠ some '>') :
    l.run pos (c :: (cs ++ rest)) = (l.beginToken .word c.toString pos).run (pos + 1) (cs ++ rest) := by
  obtain ⟨hsep, hquote, hop⟩ := hc
  obtain ⟨⟨⟨heq, hpipe⟩, hless⟩, hmore⟩ : ((c ≠ '=' ∧ c ≠ '|') ∧ c ≠ '<') ∧ c ≠ '>' := by
    simpa [isOperator, not_or] using hop
  by_cases hdigit : c = '1' ∨ c = '2'
  · rw [run_of_consumed (m := l.beginToken .digit c.toString pos)
      (by simp [step, stepBetween, hstate, hsep, hquote, heq, hpipe, hless, hmore, hdigit]),
      run_digit rfl hcs (hrest hdigit)]
    rfl
  · rw [run_of_consumed (m := l.beginToken .word c.toString pos)
      (by simp [step, stepBetween, hstate, hsep, hquote, heq, hpipe, hless, hmore, hdigit])]

theorem reads_word {text : String} (start : Nat) (hne : text ≠ "")
    (hplain : ∀ c ∈ text.toList, IsPlain c) : Reads ⟨wordKind text, text, start, false⟩ := by
  intro l pos rest hstate hrest
  rw [endState_word] at hrest
  obtain ⟨c, cs, rfl⟩ : ∃ c cs, text = String.ofList (c :: cs) := by
    rcases h : text.toList with _ | ⟨c, cs⟩
    · exact absurd (String.toList_inj.1 h) hne
    · exact ⟨c, cs, by rw [← h, String.ofList_toList]⟩
  rw [String.toList_ofList] at hplain
  obtain ⟨hc, hcs⟩ := List.forall_mem_cons.1 hplain
  have hends : State.word.EndsBefore rest := by
    split at hrest
    · exact hrest.word
    · exact hrest
  have hsingle : c = '1' ∨ c = '2' → cs = [] → rest.head? ≠ some '>' := by
    rintro hdigit rfl
    rw [if_pos (by rcases hdigit with rfl | rfl <;> decide)] at hrest
    exact hrest.head_ne
  let word : Lexer := l.beginToken .word (String.ofList (c :: cs)) pos
  refine ⟨word.finishWord, rfl, rfl, ?_⟩
  have htext : c.toString ++ String.ofList cs = String.ofList (c :: cs) := by
    simp [Char.toString, String.ofList_cons]
  simp only [Token.spelling, Bool.false_eq_true, if_false, String.toList_ofList, List.cons_append,
    List.length_cons]
  rw [run_word_start hstate hc hcs hsingle, run_word rfl hcs, run_close_word rfl hends]
  simp only [beginToken, htext, word]
  congr 1
  omega

theorem reads_quoted (text : String) (start : Nat) : Reads ⟨.value, text, start, true⟩ := by
  intro l pos rest hstate hrest
  let read : Lexer := l.beginToken .quotePending text pos
  refine ⟨read.finishQuoted, rfl, rfl, ?_⟩
  have hbegin : l.step '"' pos = .ok (.consumed (l.beginToken .quoted "" pos)) := by
    have hsep : isSeparator '"' = false := by decide
    simp [step, stepBetween, hstate, hsep]
  have htext : "" ++ String.ofList text.toList = text := by simp
  have hposition : pos + 1 + (doubleQuotes text.toList ++ ['"']).length =
      pos + ((doubleQuotes text.toList ++ ['"']).length + 1) := by
    omega
  simp only [Token.spelling, if_true, List.cons_append, List.append_assoc, List.nil_append,
    List.length_cons]
  rw [run_of_consumed hbegin, run_quoted rfl, hposition]
  simp only [beginToken, htext]
  exact run_close (l := read) hrest

theorem reads_single {kind : TokenKind} {c : Char} (start : Nat)
    (h : ∀ (l : Lexer) pos, l.stepBetween c pos = l.single kind c pos) :
    Reads ⟨kind, c.toString, start, false⟩ := by
  intro l pos rest hstate _
  refine ⟨l.single kind c pos, hstate, rfl, ?_⟩
  have hspell : Token.spelling ⟨kind, c.toString, start, false⟩ = [c] := by
    simp [Token.spelling, Char.toString]
  rw [hspell, List.singleton_append, run_of_consumed (m := l.single kind c pos)
    (by simp only [step, hstate, h])]
  rfl

/-- The operators that a second `>` can follow. -/
theorem run_arrow {text : String} (htext : text = ">" ∨ text = "1>" ∨ text = "2>")
    (hstate : l.state = .between) (rest : List Char) :
    l.run pos (text.toList ++ rest) =
      (l.beginToken .redirect text pos).run (pos + text.toList.length) rest := by
  rcases htext with rfl | rfl | rfl
  · exact run_of_consumed (by simp only [step, hstate]; rfl)
  · have hdigit : l.step '1' pos = .ok (.consumed (l.beginToken .digit "1" pos)) := by
      simp only [step, hstate]
      rfl
    exact (run_of_consumed hdigit).trans (run_of_consumed rfl)
  · have hdigit : l.step '2' pos = .ok (.consumed (l.beginToken .digit "2" pos)) := by
      simp only [step, hstate]
      rfl
    exact (run_of_consumed hdigit).trans (run_of_consumed rfl)

theorem reads_redirect {text : String} (start : Nat) (h : text ∈ redirectOperators) :
    Reads ⟨.redirect, text, start, false⟩ := by
  have harrow : ∀ text : String, text = ">" ∨ text = "1>" ∨ text = "2>" →
      Reads ⟨.redirect, text, start, false⟩ ∧ Reads ⟨.redirect, text.push '>', start, false⟩ := by
    intro text htext
    constructor
    · intro l pos rest hstate hrest
      let read : Lexer := l.beginToken .redirect text pos
      refine ⟨read.finishToken .redirect, rfl, rfl, ?_⟩
      have hends : State.redirect.EndsBefore rest := by simpa [Token.endState, htext] using hrest
      exact (run_arrow htext hstate rest).trans (run_close (l := read) hends)
    · intro l pos rest hstate _
      let read : Lexer := l.beginToken .redirect text pos
      refine ⟨(read.pushChar '>').finishToken .redirect, rfl, rfl, ?_⟩
      simp only [Token.spelling, Bool.false_eq_true, if_false, String.toList_push, List.append_assoc,
        List.length_append, List.length_singleton, List.singleton_append]
      exact (run_arrow htext hstate _).trans (run_of_consumed rfl)
  simp only [redirectOperators, List.mem_cons, List.not_mem_nil, or_false] at h
  rcases h with rfl | rfl | rfl | rfl | rfl | rfl | rfl
  · exact reads_single (c := '<') start fun _ _ => rfl
  · exact (harrow ">" (by simp)).1
  · exact (harrow ">" (by simp)).2
  · exact (harrow "1>" (by simp)).1
  · exact (harrow "1>" (by simp)).2
  · exact (harrow "2>" (by simp)).1
  · exact (harrow "2>" (by simp)).2

theorem wordKind_eq {kind : TokenKind} {text : String} (hkind : kind = .value ∨ kind = .optionName)
    (hsign : kind = .optionName ↔ text.toList.head? = some '-' ∨ text.toList.head? = some '/') :
    kind = wordKind text := by
  unfold wordKind
  split
  · next h => exact hsign.2 (.inl (by simp [h]))
  · next h => exact hsign.2 (.inr (by simp [h]))
  · next hdash hslash =>
      have hnot : kind ≠ .optionName := by
        intro hoption
        rcases hsign.1 hoption with h | h
        · obtain ⟨cs, hcs⟩ := List.head?_eq_some_iff.1 h
          exact hdash cs hcs
        · obtain ⟨cs, hcs⟩ := List.head?_eq_some_iff.1 h
          exact hslash cs hcs
      exact hkind.resolve_right hnot

theorem reads_of_spelled {t : Token} (h : t.Spelled) : Reads t := by
  cases h with
  | quoted text start => exact reads_quoted text start
  | word kind text start hkind hne hplain hsign =>
      obtain rfl := wordKind_eq hkind hsign
      exact reads_word start hne hplain
  | equalSign start => exact reads_single (c := '=') start fun _ _ => rfl
  | pipe start => exact reads_single (c := '|') start fun _ _ => rfl
  | redirect text start h => exact reads_redirect start h

theorem run_spellLine {ts : List Token} (h : ∀ t ∈ ts, t.Spelled) (hstate : l.state = .between) :
    l.run pos (spellLine ts) = .ok (l.tokens.toList ++ placedFrom pos ts) := by
  -- by induction on the tokens: after each one the lexer is between tokens again
  induction ts generalizing l pos with
  | nil => simp [spellLine, joinPieces, run, finish, hstate, placedFrom]
  | cons t ts ih =>
      obtain ⟨ht, hts⟩ := List.forall_mem_cons.1 h
      cases ts with
      | nil =>
          obtain ⟨m, hm, htokens, hrun⟩ := reads_of_spelled ht l pos [] hstate (endState_ne_quoted t)
          rw [List.append_nil] at hrun
          rw [spellLine, List.map_singleton, joinPieces, hrun]
          simp [run, finish, hm, htokens, placedFrom]
      | cons u ts =>
          obtain ⟨m, hm, htokens, hrun⟩ :=
            reads_of_spelled ht l pos (' ' :: spellLine (u :: ts)) hstate
              (endsAt_of_separator (endState_ne_quoted t) rfl)
          have hblank : m.step ' ' (pos + t.spelling.length) = .ok (.consumed m) := by
            simp only [step, hm]
            rfl
          have hline : spellLine (t :: u :: ts) = t.spelling ++ ' ' :: spellLine (u :: ts) := by
            simp [spellLine, joinPieces]
          rw [hline, hrun, run_of_consumed hblank, ih hts hm, htokens]
          simp [placedFrom]

theorem run_new {ts : List Token} (h : ∀ t ∈ ts, t.Spelled) :
    ({} : Lexer).run 1 (spellLine ts) = .ok (placedFrom 1 ts) := run_spellLine h rfl

end Lexer

/-- A line with a token in it is not blank. -/
theorem exists_not_blank {t : Token} (h : t.Spelled) : ∃ c ∈ t.spelling, isBlank c = false := by
  cases h with
  | quoted text pos => exact ⟨'"', by simp [Token.spelling], by decide⟩
  | word kind text pos hkind hne hplain hsign =>
      obtain ⟨c, hc⟩ := List.exists_mem_of_ne_nil text.toList (by simpa using hne)
      have hsep := (hplain c hc).1
      rw [isSeparator, Bool.or_eq_false_iff] at hsep
      exact ⟨c, by simpa [Token.spelling] using hc, hsep.1⟩
  | equalSign pos => exact ⟨'=', by simp [Token.spelling], by decide⟩
  | pipe pos => exact ⟨'|', by simp [Token.spelling], by decide⟩
  | redirect text pos h =>
      have hany : redirectOperators.all (fun op => op.toList.any (!isBlank ·)) = true := by decide
      obtain ⟨c, hc, hblank⟩ := List.any_eq_true.1 (List.all_eq_true.1 hany text h)
      exact ⟨c, by simpa [Token.spelling] using hc, by simpa using hblank⟩

theorem isAllBlank_spellLine {ts : List Token} (hne : ts ≠ []) (h : ∀ t ∈ ts, t.Spelled) :
    isAllBlank (String.ofList (spellLine ts)) = false := by
  cases ts with
  | nil => exact absurd rfl hne
  | cons t ts =>
      obtain ⟨c, hc, hblank⟩ := exists_not_blank (h t (by simp))
      have hmem : c ∈ spellLine (t :: ts) := by
        cases ts with
        | nil => simpa [spellLine, joinPieces] using hc
        | cons u ts => simp [spellLine, joinPieces, hc]
      rw [isAllBlank, String.toList_ofList, List.all_eq_false]
      exact ⟨c, hmem, by simp [hblank]⟩

/-- Tokens that are written out are read again as they were. -/
theorem tokenize_spellLine {ts : List Token} (hne : ts ≠ []) (h : ∀ t ∈ ts, t.Spelled) :
    tokenize (String.ofList (spellLine ts)) = .ok (placedFrom 1 ts) := by
  have hblank := isAllBlank_spellLine hne h
  rw [tokenize, if_neg (by simp [hblank]), String.toList_ofList, Lexer.run_new h]

/-- A digit before a blank and a `>`, an empty quoted token, and one that holds quotes and operators. -/
def digitsAndQuotes : List Token :=
  [⟨.value, "2", 0, false⟩, ⟨.redirect, ">", 0, false⟩, ⟨.redirect, "1>>", 0, false⟩,
    ⟨.value, "", 0, true⟩, ⟨.optionName, "-x", 0, false⟩, ⟨.equalSign, "=", 0, false⟩,
    ⟨.value, "\"a\"|2>\n", 0, true⟩, ⟨.pipe, "|", 0, false⟩]

theorem tokenize_spellLine_of_digits :
    spellLine digitsAndQuotes = "2 > 1>> \"\" -x = \"\"\"a\"\"|2>\n\" |".toList ∧
    tokenize (String.ofList (spellLine digitsAndQuotes)) = .ok
      [⟨.value, "2", 1, false⟩, ⟨.redirect, ">", 3, false⟩, ⟨.redirect, "1>>", 5, false⟩,
        ⟨.value, "", 9, true⟩, ⟨.optionName, "-x", 12, false⟩, ⟨.equalSign, "=", 15, false⟩,
        ⟨.value, "\"a\"|2>\n", 17, true⟩, ⟨.pipe, "|", 29, false⟩] := by
  refine ⟨by decide, (tokenize_spellLine (by simp [digitsAndQuotes]) ?_).trans (congrArg _ (by decide))⟩
  have hplain : ∀ text ∈ ["2", "-x"], ∀ c ∈ text.toList, Lexer.IsPlain c := by
    simp [Lexer.IsPlain, isSeparator, isBlank, isControl, isOperator]
  intro t ht
  simp only [digitsAndQuotes, List.mem_cons, List.not_mem_nil, or_false] at ht
  rcases ht with rfl | rfl | rfl | rfl | rfl | rfl | rfl | rfl
  · exact .word _ _ _ (.inl rfl) (by decide) (hplain "2" (by simp)) (by decide)
  · exact .redirect _ _ (by decide)
  · exact .redirect _ _ (by decide)
  · exact .quoted _ _
  · exact .word _ _ _ (.inr rfl) (by decide) (hplain "-x" (by simp)) (by decide)
  · exact .equalSign _
  · exact .quoted _ _
  · exact .pipe _

end CommandShell.Line
