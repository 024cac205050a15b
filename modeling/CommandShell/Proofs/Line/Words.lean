import CommandShell.Proofs.Line.SegmentText
import CommandShell.Proofs.Line.Splitting

/-!
Words written one after another.  Main statements: the line is read as their tokens, these make up one stage,
and they are split into the values and options that were written.
-/

namespace CommandShell.Line

open Text

def inQuotes (text : String) : String := String.ofList (Token.spelling ⟨.value, text, 0, true⟩)

inductive Word where
  | name (text : String)
  | option (name : String) (value : Option String)
  | value (text : String)

/-- Something is left of a word, and it needs no quotes. -/
structure PlainText (text : String) : Prop where
  ne_empty : text ≠ ""
  plain : ∀ c ∈ text.toList, Lexer.IsPlain c

namespace Word

def assigned : Option String → String
  | none => ""
  | some v => "=" ++ inQuotes v

/-- The word as it is written.  Values stand in quotes. -/
def text : Word → String
  | name t => t
  | option n v => "-" ++ n ++ assigned v
  | value t => inQuotes t

def assignedTokens : Option String → Spaced
  | none => []
  | some v => [([], ⟨.equalSign, "=", 0, false⟩), ([], ⟨.value, v, 0, true⟩)]

/-- The tokens of the word, the first of them after a gap. -/
def tokens (gap : List Char) : Word → Spaced
  | name t => [(gap, ⟨.value, t, 0, false⟩)]
  | option n v => (gap, ⟨.optionName, "-" ++ n, 0, false⟩) :: assignedTokens v
  | value t => [(gap, ⟨.value, t, 0, true⟩)]

/-- Names can be written without quotes, and are not taken for options. -/
def Writable : Word → Prop
  | name t => PlainText t ∧ t.toList.head? ≠ some '-' ∧ t.toList.head? ≠ some '/'
  | option n _ => PlainText n
  | value _ => True

def positional? : Word → Option String
  | name t | value t => some t
  | option .. => none

def value? : Word → Option String
  | value t => some t
  | name _ | option .. => none

def option? : Word → Option (String × Option String)
  | option n v => some (n, v)
  | name _ | value _ => none

end Word

/-- Words with a blank between each two. -/
def lineOf (ws : List Word) : String := " ".intercalate (ws.map Word.text)

/-- The tokens of some words that each have a blank before them. -/
def blankBefore (ws : List Word) : Spaced := ws.flatMap (·.tokens [' '])

theorem blankBefore_cons (w : Word) (ws : List Word) : blankBefore (w :: ws) = w.tokens [' '] ++ blankBefore ws :=
  List.flatMap_cons

variable {w : Word} {ws : List Word} {gap : List Char} {raw : RawArguments} {pos : Nat}

namespace Word

theorem chars_tokens (gap : List Char) (w : Word) : (w.tokens gap).chars = gap ++ w.text.toList := by
  cases w with
  | name t => simp [tokens, text, Token.spelling]
  | option n v => cases v <;> simp [tokens, assignedTokens, text, assigned, inQuotes, Token.spelling]
  | value t => simp [tokens, text, inQuotes]

theorem kind_tokens (gap : List Char) (w : Word) :
    ∀ x ∈ w.tokens gap, x.2.kind ≠ .pipe ∧ x.2.kind ≠ .redirect := by
  cases w with
  | name | value => simp [tokens]
  | option n v => cases v <;> simp [tokens, assignedTokens]

end Word

theorem chars_blankBefore_head (ws : List Word) : ∀ c ∈ (blankBefore ws).chars.head?, isSeparator c = true := by
  cases ws with
  | nil => nofun
  | cons w ws =>
      rw [blankBefore_cons, Spaced.chars_append, Word.chars_tokens]
      rintro c ⟨⟩
      rfl

theorem toList_lineOf (w : Word) (ws : List Word) :
    (lineOf (w :: ws)).toList = (w.tokens [] ++ blankBefore ws).chars := by
  rw [Spaced.chars_append, Word.chars_tokens, List.nil_append]
  induction ws generalizing w with
  | nil => simp [lineOf, blankBefore]
  | cons v ws ih =>
      have hline : lineOf (w :: v :: ws) = w.text ++ " " ++ lineOf (v :: ws) := String.intercalate_cons_cons
      rw [hline, String.toList_append, String.toList_append, ih, blankBefore_cons, Spaced.chars_append,
        Word.chars_tokens]
      simp

theorem endsBefore_of_separator {t : Token} {rest : List Char} (h : ∀ c ∈ rest.head?, isSeparator c = true) :
    t.endState.EndsBefore rest := by
  cases rest with
  | nil => exact Lexer.endState_ne_quoted t
  | cons c rest => exact Lexer.endsAt_of_separator (Lexer.endState_ne_quoted t) (h c rfl)

theorem PlainText.spelled_option {n : String} (h : PlainText n) :
    Token.Spelled ⟨.optionName, "-" ++ n, 0, false⟩ := by
  have hdash : Lexer.IsPlain '-' := ⟨by decide, by decide, by decide⟩
  refine .word _ _ _ (.inr rfl) (by simp) ?_ (by simp)
  rw [String.toList_append]
  exact List.forall_mem_cons.2 ⟨hdash, h.plain⟩

theorem Word.Writable.apart {s : Spaced} (h : w.Writable) (hgap : gap.all isSeparator = true) (hs : s.Apart [])
    (hhead : ∀ c ∈ s.chars.head?, isSeparator c = true) : Spaced.Apart (w.tokens gap ++ s) [] := by
  have hends (t : Token) : t.endState.EndsBefore (s.chars ++ []) := by
    rw [List.append_nil]
    exact endsBefore_of_separator hhead
  cases w with
  | name t =>
      obtain ⟨⟨hne, hplain⟩, hsign⟩ := h
      exact ⟨hgap, .word _ _ _ (.inl rfl) hne hplain (by simpa using hsign), hends _, hs⟩
  | value t => exact ⟨hgap, .quoted _ _, hends _, hs⟩
  | option n v =>
      have hspelled : Token.Spelled ⟨.optionName, "-" ++ n, 0, false⟩ := PlainText.spelled_option h
      cases v with
      | none => exact ⟨hgap, hspelled, hends _, hs⟩
      | some v =>
          have hdash : ∀ d, "-" ++ n = String.singleton d → d = '-' := by
            intro d hd
            have hd' := congrArg String.toList hd
            simp at hd'
            exact hd'.1.symm
          refine ⟨hgap, hspelled, ?_, rfl, .equalSign _, trivial, rfl, .quoted _ _, hends _, hs⟩
          have hone : "-" ++ n ≠ "1" := fun heq => absurd (hdash '1' heq) (by decide)
          have htwo : "-" ++ n ≠ "2" := fun heq => absurd (hdash '2' heq) (by decide)
          have hword : Token.endState ⟨.optionName, "-" ++ n, 0, false⟩ = .word := by
            simp [Token.endState, hone, htwo]
          rw [hword]
          exact .inr rfl

theorem apart_blankBefore (h : ∀ w ∈ ws, w.Writable) : (blankBefore ws).Apart [] := by
  induction ws with
  | nil => exact rfl
  | cons w ws ih =>
      obtain ⟨hw, hws⟩ := List.forall_mem_cons.1 h
      exact hw.apart rfl (ih hws) (chars_blankBefore_head ws)

theorem apart_words (h : ∀ v ∈ w :: ws, v.Writable) : Spaced.Apart (w.tokens [] ++ blankBefore ws) [] := by
  obtain ⟨hw, hws⟩ := List.forall_mem_cons.1 h
  exact hw.apart rfl (apart_blankBefore hws) (chars_blankBefore_head ws)

theorem Spaced.Apart.isAllBlank {s : Spaced} {last : List Char} {line : String} (h : s.Apart last) (hne : s ≠ [])
    (hline : line.toList = s.chars ++ last) : isAllBlank line = false := by
  obtain ⟨⟨gap, t⟩, s, rfl⟩ := List.exists_cons_of_ne_nil hne
  obtain ⟨c, hc, hblank⟩ := exists_not_blank h.2.1
  rw [Text.isAllBlank, hline, List.all_eq_false]
  exact ⟨c, by simp [hc], by simp [hblank]⟩

theorem tokenize_lineOf (h : ∀ v ∈ w :: ws, v.Writable) :
    tokenize (lineOf (w :: ws)) = .ok (Spaced.placed 1 (w.tokens [] ++ blankBefore ws)) := by
  have hapart := apart_words h
  have hline : (lineOf (w :: ws)).toList = (w.tokens [] ++ blankBefore ws).chars ++ [] := by
    rw [List.append_nil, toList_lineOf]
  have hne : w.tokens [] ++ blankBefore ws ≠ [] := by
    cases w <;> simp [Word.tokens]
  exact tokenize_eq_ok_iff.2 ⟨hapart.isAllBlank hne hline, _, [], hline, hapart, rfl⟩

theorem redirectGroups_eq_nil {ts : List Token} (h : ∀ t ∈ ts, t.kind ≠ .redirect) : redirectGroups ts = [] := by
  refine List.eq_nil_iff_forall_not_mem.2 fun ⟨operator, targets⟩ hmem => ?_
  obtain ⟨before, after, rfl, hkind, -⟩ := mem_redirectGroups.1 hmem
  exact h operator (by simp) hkind

theorem stages_eq_singleton {ts : List Token} (hne : ts ≠ []) (h : ∀ t ∈ ts, t.kind ≠ .pipe) :
    stages ts = [ts] := by
  have hpieces : pieces (·.kind == .pipe) (ts ++ []) = [ts ++ []] :=
    pieces_append (fun t ht => by simpa using h t ht) [] [] [] rfl
  rw [List.append_nil] at hpieces
  simp [stages, hpieces, hne]

/-- A layout without pipes and redirects makes up one stage, whose text is the whole line. -/
theorem Spaced.Apart.group_eq {first : Token} {s : Spaced} {line : String} (h : Apart (([], first) :: s) [])
    (hkind : ∀ x ∈ ([], first) :: s, x.2.kind ≠ .pipe ∧ x.2.kind ≠ .redirect)
    (hline : line.toList = chars (([], first) :: s)) (nullWord : String) :
    group line (placed 1 (([], first) :: s)) nullWord =
      .ok ⟨[⟨placed 1 (([], first) :: s), 1, line⟩], []⟩ := by
  have hpipe : ∀ x ∈ ([], first) :: s, x.2.kind ≠ .pipe := fun x hx => (hkind x hx).1
  have hpipe' : ∀ t ∈ placed 1 (([], first) :: s), t.kind ≠ .pipe := (forall_kind_placed (· ≠ .pipe)).2 hpipe
  have hredirect : ∀ t ∈ placed 1 (([], first) :: s), t.kind ≠ .redirect :=
    (forall_kind_placed (· ≠ .redirect)).2 fun x hx => (hkind x hx).2
  have hend : firstRedirect (placed 1 (([], first) :: s)) = (placed 1 (([], first) :: s)).length :=
    List.findIdx_eq_length.2 fun t ht => by simpa using hredirect t ht
  have htext : Line.sourceText line.toList 1 (line.toList.length + 1) = line := by
    have hwhole : Apart ([] ++ (([], first) :: s ++ [])) [] := by
      rw [List.nil_append, List.append_nil]
      exact h
    have hsource : Line.sourceText ([] ++ (line.toList ++ ([] ++ []))) 1 (1 + line.toList.length) =
        String.ofList (line.toList ++ leftover []) := hline ▸ hwhole.sourceText hpipe
    rw [Nat.add_comm]
    simpa [leftover, dropTrailing] using hsource
  refine group_eq_ok_iff.2 ⟨?_, ?_, ?_⟩
  · simp [hend]
  · rw [hend, List.drop_length, List.take_length, stages_eq_singleton (by simp [placed]) hpipe']
    simp only [segmentsOf, startOr, startOf, placed, List.length_nil, Nat.add_zero, htext]
  · rw [redirectGroups_eq_nil hredirect]
    exact .nil

theorem group_lineOf (h : ∀ v ∈ w :: ws, v.Writable) (nullWord : String) :
    group (lineOf (w :: ws)) (Spaced.placed 1 (w.tokens [] ++ blankBefore ws)) nullWord =
      .ok ⟨[⟨Spaced.placed 1 (w.tokens [] ++ blankBefore ws), 1, lineOf (w :: ws)⟩], []⟩ := by
  obtain ⟨first, s, hs⟩ : ∃ first s, w.tokens [] ++ blankBefore ws = ([], first) :: s := by
    cases w <;> exact ⟨_, _, rfl⟩
  have hapart := apart_words h
  have hline := toList_lineOf w ws
  have hkind : ∀ x ∈ w.tokens [] ++ blankBefore ws, x.2.kind ≠ .pipe ∧ x.2.kind ≠ .redirect := by
    intro x hx
    rcases List.mem_append.1 hx with hx | hx
    · exact Word.kind_tokens _ _ x hx
    · obtain ⟨v, -, hx⟩ := List.mem_flatMap.1 hx
      exact Word.kind_tokens _ _ x hx
  rw [hs] at hapart hline hkind ⊢
  exact hapart.group_eq hkind hline nullWord

theorem optionName_eq_ok {n : String} (hn : n ≠ "") (hnew : ∀ o ∈ raw.options, foldAscii o.name ≠ foldAscii n) :
    optionName raw ⟨.optionName, "-" ++ n, pos, false⟩ = .ok n := by
  have hlength : n.length ≠ 0 := by simpa using hn
  refine optionName_eq_ok_iff.2 ⟨?_, by simp [Token.unsigned], hnew⟩
  rw [String.length_append]
  exact fun h => hlength (Nat.add_left_cancel (h : 1 + n.length = 1 + 0))

theorem kind_blankBefore_head (pos : Nat) (ws : List Word) :
    ∀ t ∈ (Spaced.placed pos (blankBefore ws)).head?, t.kind ≠ .equalSign := by
  rcases ws with _ | ⟨w, ws⟩
  · nofun
  · cases w <;> rintro t ⟨⟩ <;> exact TokenKind.noConfusion

/-- The values and options that were written are found again. -/
theorem splitFrom_blankBefore (raw : RawArguments) (pos : Nat) (h : ∀ w ∈ ws, w.Writable)
    (hnames : (raw.options.map (foldAscii ·.name) ++ (ws.filterMap Word.option?).map (foldAscii ·.1)).Nodup) :
    ∃ raw', splitFrom raw (Spaced.placed pos (blankBefore ws)) = .ok raw' ∧
      raw'.positional = raw.positional ++ ws.filterMap Word.positional? ∧
      raw'.options.map (fun o => (o.name, o.value)) =
        raw.options.map (fun o => (o.name, o.value)) ++ ws.filterMap Word.option? := by
  induction ws generalizing raw pos with
  | nil => exact ⟨raw, rfl, by simp, by simp⟩
  | cons w ws ih =>
      obtain ⟨hw, hws⟩ := List.forall_mem_cons.1 h
      rw [blankBefore_cons, Spaced.placed_append]
      cases w with
      | name t | value t =>
          obtain ⟨raw', hsplit, hpositional, hoptions⟩ := ih (raw.pushValue t) _ hws hnames
          exact ⟨raw', hsplit, by simp [hpositional, RawArguments.pushValue, Word.positional?], hoptions⟩
      | option n v =>
          have hnew : ∀ o ∈ raw.options, foldAscii o.name ≠ foldAscii n := by
            intro o ho heq
            refine (List.nodup_append.1 hnames).2.2 _ (List.mem_map_of_mem ho) _ ?_ heq
            simp [Word.option?]
          have hname (pos : Nat) : optionName raw ⟨.optionName, "-" ++ n, pos, false⟩ = .ok n :=
            optionName_eq_ok hw.ne_empty hnew
          have hrest (pos : Nat) : ((raw.pushOption ⟨n, v, pos⟩).options.map (foldAscii ·.name) ++
              (ws.filterMap Word.option?).map (foldAscii ·.1)).Nodup := by
            simpa [RawArguments.pushOption, Word.option?] using hnames
          cases v with
          | none =>
              obtain ⟨raw', hsplit, hpositional, hoptions⟩ := ih _ _ hws (hrest _)
              refine ⟨raw', (splitFrom_flag rfl (hname _) (kind_blankBefore_head _ ws)).trans hsplit, hpositional, ?_⟩
              simp [hoptions, RawArguments.pushOption, Word.option?]
          | some v =>
              obtain ⟨raw', hsplit, hpositional, hoptions⟩ := ih _ _ hws (hrest _)
              refine ⟨raw', ?_, hpositional, by simp [hoptions, RawArguments.pushOption, Word.option?]⟩
              rw [← hsplit]
              simp only [Word.tokens, Word.assignedTokens, Spaced.placed, List.cons_append, List.nil_append]
              rw [splitFrom]
              dsimp only
              rw [hname]
              rfl

end CommandShell.Line
