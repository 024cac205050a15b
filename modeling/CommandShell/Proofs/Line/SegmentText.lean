import CommandShell.Proofs.Line.Grouping
import Mathlib.Data.List.DropRight

/-!
The part of a line that a segment keeps.  Main statement: it is read as the segment's tokens, and no pipe
is left after them exactly if those that follow the stage stand together with only blanks behind.
-/

namespace CommandShell.Text

variable {α : Type} {p : α → Bool} {xs ys : List α}

theorem dropTrailing_eq (p : α → Bool) (xs : List α) : dropTrailing p xs = xs.rdropWhile p := rfl

theorem dropTrailing_append (h : ∀ x ∈ xs.getLast?, p x = false) :
    dropTrailing p (xs ++ ys) = xs ++ dropTrailing p ys := by
  rw [dropTrailing_eq, dropTrailing_eq]
  induction ys using List.reverseRecOn with
  | nil =>
      rw [List.append_nil, List.rdropWhile_nil, List.append_nil, List.rdropWhile_eq_self_iff]
      intro hne
      simp [h _ (List.getLast?_eq_some_getLast hne)]
  | append_singleton ys y ih =>
      rw [← List.append_assoc, List.rdropWhile_concat, List.rdropWhile_concat, ih]
      split <;> simp

theorem isPrefix_dropTrailing (p : α → Bool) (xs : List α) : dropTrailing p xs <+: xs :=
  List.rdropWhile_prefix p xs

theorem exists_dropTrailing (p : α → Bool) (xs : List α) :
    ∃ ys, xs = dropTrailing p xs ++ ys ∧ ∀ y ∈ ys, p y = true :=
  ⟨xs.rtakeWhile p, List.rdropWhile_append_rtakeWhile.symm, fun _ hy => List.mem_rtakeWhile_imp hy⟩

theorem dropTrailing_append_of_all (h : ∀ y ∈ ys, p y = true) :
    dropTrailing p (xs ++ ys) = dropTrailing p xs := by
  rw [dropTrailing, dropTrailing, List.reverse_append,
    List.dropWhile_append_of_pos fun y hy => h y (List.mem_reverse.1 hy)]

end CommandShell.Text

namespace CommandShell.Line

open Text

/-- Pipes and what can stand between them. -/
def isGap (c : Char) : Bool := isSeparator c || c == '|'

/-- The position after the last token. -/
def Segment.stop (s : Segment) : Nat :=
  match s.tokens.getLast? with
  | none => s.position
  | some t => t.position + t.spelling.length

/-- The separators and pipes that follow the segment's tokens in the line. -/
def Segment.gap (s : Segment) (line : String) : List Char :=
  (line.toList.drop (s.stop - 1)).takeWhile isGap

/-- The pipes stand together, and nothing but blanks comes after them. -/
def OneRun (gap : List Char) : Prop :=
  ∃ before n after, gap = before ++ List.replicate n '|' ++ after ∧
    before.all isSeparator = true ∧ after.all isBlank = true

/-- The token `k` characters before its position. -/
def Token.lower (k : Nat) (t : Token) : Token := { t with position := t.position - k }

/-- What is left of separators and pipes at the end of a stage's text. -/
def leftover (gap : List Char) : List Char :=
  dropTrailing isBlank (dropTrailing (· == '|') (dropTrailing isBlank gap))

theorem isPrefix_leftover (gap : List Char) : leftover gap <+: gap :=
  ((isPrefix_dropTrailing _ _).trans (isPrefix_dropTrailing _ _)).trans (isPrefix_dropTrailing _ _)

theorem all_isGap {cs : List Char} (h : cs.all isSeparator = true) : cs.all isGap = true := by
  rw [List.all_eq_true] at h ⊢
  intro c hc
  rw [isGap, h c hc, Bool.true_or]

theorem pipe_notMem_of_separators {cs : List Char} (h : cs.all isSeparator = true) : '|' ∉ cs := by
  intro hmem
  exact absurd (List.all_eq_true.1 h _ hmem) (by decide)

theorem isSeparator_of_isBlank {c : Char} (h : isBlank c = true) : isSeparator c = true := by
  rw [isSeparator, h, Bool.true_or]

theorem leftover_of_oneRun {before after : List Char} (n : Nat) (hafter : after.all isBlank = true) :
    leftover (before ++ List.replicate n '|' ++ after) <+: before := by
  have hrun : dropTrailing (· == '|') (dropTrailing isBlank (before ++ List.replicate n '|')) <+: before := by
    cases n with
    | zero =>
        rw [List.replicate_zero, List.append_nil]
        exact (isPrefix_dropTrailing _ _).trans (isPrefix_dropTrailing _ _)
    | succ n =>
        have hkeep : dropTrailing isBlank (before ++ List.replicate (n + 1) '|') =
            before ++ List.replicate (n + 1) '|' := by
          rw [List.replicate_succ', ← List.append_assoc, dropTrailing_eq, List.rdropWhile_concat_neg]
          decide
        rw [hkeep, dropTrailing_append_of_all (by simp)]
        exact isPrefix_dropTrailing _ _
  rw [leftover, dropTrailing_append_of_all (List.all_eq_true.1 hafter)]
  exact (isPrefix_dropTrailing _ _).trans hrun

theorem pipe_notMem_leftover_iff {gap : List Char} (h : gap.all isGap = true) :
    '|' ∉ leftover gap ↔ OneRun gap := by
  constructor
  · intro hnot
    obtain ⟨after, hafter, hblank⟩ := exists_dropTrailing isBlank gap
    obtain ⟨pipes, hpipes, hpipe⟩ := exists_dropTrailing (· == '|') (dropTrailing isBlank gap)
    refine ⟨dropTrailing (· == '|') (dropTrailing isBlank gap), pipes.length, after, ?_, ?_, ?_⟩
    · have hrun : pipes = List.replicate pipes.length '|' :=
        List.eq_replicate_length.2 fun c hc => by simpa using hpipe c hc
      rw [← hrun, ← hpipes, ← hafter]
    · -- what is left has no pipe in it, and blanks are all that was cut from its end
      obtain ⟨blanks, hblanks, hall⟩ :=
        exists_dropTrailing isBlank (dropTrailing (· == '|') (dropTrailing isBlank gap))
      rw [List.all_eq_true]
      intro c hc
      rw [hblanks, List.mem_append] at hc
      rcases hc with hc | hc
      · have hgap : isGap c = true := List.all_eq_true.1 h c ((isPrefix_leftover gap).subset hc)
        have hne : c ≠ '|' := fun heq => hnot (heq ▸ hc)
        simpa [isGap, hne] using hgap
      · exact isSeparator_of_isBlank (hall c hc)
    · rw [List.all_eq_true]
      exact hblank
  · rintro ⟨before, n, after, rfl, hbefore, hafter⟩ hmem
    exact pipe_notMem_of_separators hbefore ((leftover_of_oneRun n hafter).subset hmem)

theorem Token.Spelled.last {t : Token} (h : t.Spelled) (hkind : t.kind ≠ .pipe) :
    ∀ c ∈ t.spelling.getLast?, isBlank c = false ∧ c ≠ '|' := by
  intro c hc
  cases h with
  | quoted text pos =>
      have hlast : Token.spelling ⟨.value, text, pos, true⟩ = ('"' :: doubleQuotes text.toList) ++ ['"'] := rfl
      rw [hlast, List.getLast?_concat, Option.mem_some_iff] at hc
      rw [← hc]
      decide
  | word kind text pos hword hne hplain hsign =>
      obtain ⟨hsep, -, hop⟩ := hplain c (List.mem_of_getLast? hc)
      rw [isSeparator, Bool.or_eq_false_iff] at hsep
      refine ⟨hsep.1, ?_⟩
      rintro rfl
      exact absurd hop (by decide)
  | equalSign pos =>
      obtain rfl : '=' = c := by simpa [Token.spelling] using hc
      decide
  | pipe pos => exact absurd rfl hkind
  | redirect text pos h =>
      have hall : (redirectOperators.all fun op =>
          op.toList.getLast?.all fun c => !isBlank c && c != '|') = true := by decide
      have hop := List.all_eq_true.1 hall text h
      rw [show text.toList.getLast? = some c from hc] at hop
      simpa using hop

theorem Token.Spelled.eq_pipe {t : Token} (h : t.Spelled) (hkind : t.kind = .pipe) : t.spelling = ['|'] := by
  cases h with
  | pipe pos => simp [Token.spelling]
  | word kind text pos h =>
      subst hkind
      rcases h with h | h <;> cases h
  | quoted | equalSign | redirect => cases hkind

namespace Spaced

variable {s r : Spaced} {last : List Char} {pos : Nat}

theorem forall_kind_placed (p : TokenKind → Prop) :
    (∀ t ∈ placed pos s, p t.kind) ↔ ∀ x ∈ s, p x.2.kind := by
  induction s generalizing pos with
  | nil => simp [placed]
  | cons x s ih =>
      obtain ⟨gap, t⟩ := x
      rw [placed, List.forall_mem_cons, List.forall_mem_cons, ih]

theorem placed_eq_nil_iff : placed pos s = [] ↔ s = [] := by
  cases s <;> simp [placed]

theorem chars_last (h : s.Apart last) (hne : s ≠ []) (hkind : ∀ x ∈ s, x.2.kind ≠ .pipe) :
    ∀ c ∈ s.chars.getLast?, isBlank c = false ∧ c ≠ '|' := by
  obtain ⟨s, ⟨gap, t⟩, rfl⟩ := (List.eq_nil_or_concat' s).resolve_left hne
  obtain ⟨-, hspell, -, -⟩ := h.right
  obtain ⟨d, ds, hd, -⟩ := hspell.exists_cons
  have hlast : (chars (s ++ [(gap, t)])).getLast? = t.spelling.getLast? := by
    rw [chars_concat, List.getLast?_append, hd, List.getLast?_cons, Option.some_or]
  rw [hlast]
  exact hspell.last (hkind (gap, t) (by simp))

theorem chars_pipes (h : s.Apart last) (hkind : ∀ x ∈ s, x.2.kind = .pipe) : s.chars.all isGap = true := by
  induction s with
  | nil => rfl
  | cons x s ih =>
      obtain ⟨gap, t⟩ := x
      obtain ⟨hgap, hspell, -, hs⟩ := h
      obtain ⟨ht, hkinds⟩ := List.forall_mem_cons.1 hkind
      rw [chars_cons, hspell.eq_pipe ht, List.all_append, List.all_append, all_isGap hgap, ih hs hkinds]
      decide

/-- Separators and pipes that are cut off somewhere. -/
theorem exists_take_of_prefix {cut : List Char} (h : s.Apart last) (hkind : ∀ x ∈ s, x.2.kind = .pipe)
    (hcut : cut <+: s.chars ++ last) : ∃ n gap, cut = chars (s.take n) ++ gap ∧
      gap.all isSeparator = true ∧ (s.take n = [] ↔ '|' ∉ cut) := by
  have hprefix : ∀ {cut gap : List Char}, gap.all isSeparator = true → cut <+: gap →
      cut.all isSeparator = true := by
    intro cut gap hgap h
    exact List.all_eq_true.2 fun c hc => List.all_eq_true.1 hgap c (h.subset hc)
  induction s generalizing cut with
  | nil =>
      have hsep := hprefix h hcut
      exact ⟨0, cut, rfl, hsep, iff_of_true rfl (pipe_notMem_of_separators hsep)⟩
  | cons x s ih =>
      obtain ⟨gap, t⟩ := x
      obtain ⟨hgap, hspell, -, hs⟩ := h
      obtain ⟨ht, hkinds⟩ := List.forall_mem_cons.1 hkind
      have hpipe := hspell.eq_pipe ht
      rw [chars_cons, hpipe, List.append_assoc] at hcut
      -- the cut lies in the gap, or the pipe is kept
      have hcases : cut <+: gap ∨ gap ++ ['|'] <+: cut := by
        rcases List.prefix_or_prefix_of_prefix hcut (List.prefix_append _ _) with hshort | hlong
        · rcases List.prefix_concat_iff.1 hshort with rfl | hshort
          · exact .inr (List.prefix_refl _)
          · exact .inl hshort
        · exact .inr hlong
      rcases hcases with hshort | ⟨more, rfl⟩
      · have hsep := hprefix hgap hshort
        exact ⟨0, cut, rfl, hsep, iff_of_true rfl (pipe_notMem_of_separators hsep)⟩
      · rw [List.prefix_append_right_inj] at hcut
        obtain ⟨n, after, rfl, hafter, -⟩ := ih hs hkinds hcut
        refine ⟨n + 1, after, ?_, hafter, ?_⟩
        · rw [List.take_succ_cons, chars_cons, hpipe]
          simp
        · simp

end Spaced

/-- The text of a stage: its tokens up to the last one, and what is left of the gap after that. -/
theorem sourceText_eq {chars before body gap after : List Char} {c : Char} {cs : List Char}
    (hchars : chars = before ++ (body ++ gap) ++ after) (hbody : body = c :: cs)
    (hfirst : isBlank c = false) (hlast : ∀ c ∈ body.getLast?, isBlank c = false ∧ c ≠ '|') :
    sourceText chars (1 + before.length) (1 + before.length + (body ++ gap).length) =
      String.ofList (body ++ leftover gap) := by
  have hstop : min (1 + before.length + (body ++ gap).length) (chars.length + 1) =
      1 + before.length + (body ++ gap).length := by
    rw [hchars]
    simp only [List.length_append]
    omega
  have hslice : slice chars (1 + before.length) (1 + before.length + (body ++ gap).length) = body ++ gap := by
    rw [slice, hchars, Nat.add_sub_cancel_left, Nat.add_sub_cancel_left, List.append_assoc,
      List.drop_left, List.take_left]
  have htrim : (body ++ gap).dropWhile isBlank = body ++ gap := by
    rw [hbody, List.cons_append, List.dropWhile_cons_of_neg (by simp [hfirst])]
  have hblank : ∀ c ∈ body.getLast?, isBlank c = false := fun c hc => (hlast c hc).1
  have hpipe : ∀ c ∈ body.getLast?, (c == '|') = false := fun c hc => by simpa using (hlast c hc).2
  rw [sourceText, hstop, hslice, trimChars, htrim, dropTrailing_append hblank, dropTrailing_append hpipe,
    dropTrailing_append hblank]
  rfl

section Stages

variable {ts : List Token} {t : Token}

theorem stages_of_pipe (h : t.kind = .pipe) : stages (t :: ts) = stages ts := by
  simp [stages, pieces, h]

theorem stages_append {xs : List Token} (hne : xs ≠ []) (hxs : ∀ t ∈ xs, t.kind ≠ .pipe)
    (hts : ∀ t ∈ ts.head?, t.kind = .pipe) : stages (xs ++ ts) = xs :: stages ts := by
  obtain ⟨rs, hrs⟩ : ∃ rs, pieces (·.kind == .pipe) ts = [] :: rs := by
    rcases ts with _ | ⟨t, ts⟩
    · exact ⟨[], rfl⟩
    · exact ⟨_, by rw [pieces, if_pos (by simpa using hts t rfl)]⟩
  have hpieces := pieces_append (fun t ht => by simpa using hxs t ht) ts [] rs hrs
  rw [stages, stages, hpieces, hrs]
  simp [hne]

theorem stages_dropWhile (ts : List Token) : stages (ts.dropWhile (·.kind == .pipe)) = stages ts := by
  induction ts with
  | nil => rfl
  | cons t ts ih =>
      by_cases ht : t.kind = .pipe
      · rw [List.dropWhile_cons_of_pos (by simpa using ht), ih, stages_of_pipe ht]
      · rw [List.dropWhile_cons_of_neg (by simpa using ht)]

/-- Tokens that do not start with a pipe start with a stage. -/
theorem exists_stage (ts : List Token) (h : ∀ t ∈ ts.head?, t.kind ≠ .pipe) (hne : ts ≠ []) :
    ∃ xs pipes after, ts = xs ++ pipes ++ after ∧ xs ≠ [] ∧ (∀ t ∈ xs, t.kind ≠ .pipe) ∧
      (∀ t ∈ pipes, t.kind = .pipe) ∧ (∀ t ∈ after.head?, t.kind ≠ .pipe) ∧
      stages ts = xs :: stages after := by
  let xs := ts.takeWhile (·.kind != .pipe)
  let rest := ts.dropWhile (·.kind != .pipe)
  have hcut : xs ++ rest = ts := List.takeWhile_append_dropWhile
  have hxs : ∀ t ∈ xs, t.kind ≠ .pipe := fun t ht => by simpa using List.mem_takeWhile_imp ht
  have hnonempty : xs ≠ [] := by
    obtain ⟨t, ts, rfl⟩ := List.exists_cons_of_ne_nil hne
    have ht : t.kind ≠ .pipe := h t rfl
    simp [xs, List.takeWhile_cons_of_pos, ht]
  have hrest : ∀ t ∈ rest.head?, t.kind = .pipe := by
    intro t ht
    have hhead := List.head?_dropWhile_not (·.kind != .pipe) ts
    rw [show (ts.dropWhile (·.kind != .pipe)).head? = some t from ht] at hhead
    simpa using hhead
  refine ⟨xs, rest.takeWhile (·.kind == .pipe), rest.dropWhile (·.kind == .pipe), ?_, hnonempty, hxs, ?_, ?_, ?_⟩
  · rw [List.append_assoc, List.takeWhile_append_dropWhile, hcut]
  · exact fun t ht => by simpa using List.mem_takeWhile_imp ht
  · intro t ht
    have hhead := List.head?_dropWhile_not (·.kind == .pipe) rest
    rw [show (rest.dropWhile (·.kind == .pipe)).head? = some t from ht] at hhead
    simpa using hhead
  · rw [stages_dropWhile, ← stages_append hnonempty hxs hrest, hcut]

theorem segmentsOf_cons (chars : List Char) (stop : Nat) (xs ts : List Token)
    (h : ∀ t ∈ ts.head?, t.kind ≠ .pipe) :
    segmentsOf chars stop (xs :: stages ts) =
      ⟨xs, startOf xs, sourceText chars (startOf xs) (startOr stop ts)⟩ :: segmentsOf chars stop (stages ts) := by
  rcases ts with _ | ⟨t, ts⟩
  · rfl
  · obtain ⟨ys, pipes, after, heq, hne, -, -, -, hstages⟩ := exists_stage (t :: ts) h (by simp)
    obtain ⟨y, ys, rfl⟩ := List.exists_cons_of_ne_nil hne
    cases heq
    rw [hstages]
    rfl

/-- Where a segment comes from: its tokens, the pipes after them, and then the next stage or the end. -/
theorem mem_segmentsOf {chars : List Char} {stop : Nat} {s : Segment}
    (h : s ∈ segmentsOf chars stop (stages ts)) :
    ∃ before pipes after, ts = before ++ s.tokens ++ pipes ++ after ∧ s.tokens ≠ [] ∧
      (∀ t ∈ s.tokens, t.kind ≠ .pipe) ∧ (∀ t ∈ pipes, t.kind = .pipe) ∧
      (∀ t ∈ after.head?, t.kind ≠ .pipe) ∧
      s.text = sourceText chars (startOf s.tokens) (startOr stop after) := by
  induction hn : ts.length using Nat.strongRecOn generalizing ts with
  | _ n ih =>
      subst hn
      rcases ts with _ | ⟨t, ts⟩
      · cases h
      by_cases ht : t.kind = .pipe
      · rw [stages_of_pipe ht] at h
        obtain ⟨before, pipes, after, rfl, hrest⟩ := ih ts.length (by simp) h rfl
        exact ⟨t :: before, pipes, after, rfl, hrest⟩
      obtain ⟨xs, pipes, after, heq, hne, hxs, hpipes, hafter, hstages⟩ :=
        exists_stage (t :: ts) (by simpa using ht) (by simp)
      rw [hstages, segmentsOf_cons _ _ _ _ hafter] at h
      rcases List.mem_cons.1 h with rfl | h
      · exact ⟨[], pipes, after, heq, hne, hxs, hpipes, hafter, rfl⟩
      · have hshort : after.length < (t :: ts).length := by
          rw [heq, List.length_append, List.length_append]
          have := List.length_pos_of_ne_nil hne
          omega
        obtain ⟨before, pipes', after', rfl, hrest⟩ := ih after.length hshort h rfl
        refine ⟨xs ++ pipes ++ before, pipes', after', ?_, hrest⟩
        rw [heq]
        simp only [List.append_assoc]

end Stages

theorem startOr_append (stop : Nat) (ts us : List Token) :
    startOr stop (ts ++ us) = startOr (startOr stop us) ts := by
  cases ts <;> rfl

namespace Spaced

variable {s r : Spaced} {last : List Char} {pos : Nat}

theorem map_lower_placed (k : Nat) (s : Spaced) (pos : Nat) :
    (placed (pos + k) s).map (·.lower k) = placed pos s := by
  induction s generalizing pos with
  | nil => rfl
  | cons x s ih =>
      obtain ⟨gap, t⟩ := x
      have hnext : pos + k + gap.length + t.spelling.length = pos + gap.length + t.spelling.length + k := by
        omega
      have hhere : pos + k + gap.length - k = pos + gap.length := by omega
      rw [placed, placed, hnext, List.map_cons, ih, Token.lower]
      dsimp only
      rw [hhere]

theorem stop_of_placed {seg : Segment} (hne : s ≠ []) (h : seg.tokens = placed pos s) :
    seg.stop = pos + s.chars.length := by
  obtain ⟨s, ⟨gap, t⟩, rfl⟩ := (List.eq_nil_or_concat' s).resolve_left hne
  rw [Segment.stop, h, placed_append, placed, placed, List.getLast?_concat, chars_concat]
  simp only [Token.spelling, List.length_append]
  omega

/-- The gap before the first token, or before the end. -/
theorem exists_gap (h : s.Apart last) (hkind : ∀ x ∈ s.head?, x.2.kind ≠ .pipe) :
    ∃ gap after, s.chars ++ last = gap ++ after ∧ gap.all isSeparator = true ∧
      (∀ c ∈ after.head?, isGap c = false) ∧
      ∀ pos, startOr (pos + (s.chars ++ last).length) (placed pos s) = pos + gap.length := by
  rcases s with _ | ⟨⟨gap, t⟩, s⟩
  · exact ⟨last, [], by simp, h, nofun, fun _ => rfl⟩
  · obtain ⟨hgap, hspell, -, -⟩ := h
    obtain ⟨c, cs, hc, hsep, hpipe⟩ := hspell.exists_cons
    refine ⟨gap, t.spelling ++ chars s ++ last, by simp, hgap, ?_, fun _ => rfl⟩
    have hne : c ≠ '|' := hpipe (hkind (gap, t) rfl)
    rw [hc]
    simp [isGap, hsep, hne]

end Spaced

/-- The layout of a line around one of its segments: what stands before it, its first token, the others, the
pipes after them and what comes then. -/
structure Segment.LaidOut (s : Segment) (line : String) (before : Spaced) (lead : List Char) (first : Token)
    (others pipes after : Spaced) (last : List Char) : Prop where
  chars_eq : line.toList = (before ++ ((lead, first) :: others ++ (pipes ++ after))).chars ++ last
  apart : (before ++ ((lead, first) :: others ++ (pipes ++ after))).Apart last
  tokenize_eq : tokenize line = .ok ((before ++ ((lead, first) :: others ++ (pipes ++ after))).placed 1)
  tokens_eq : s.tokens = Spaced.placed (1 + before.chars.length) ((lead, first) :: others)
  position_eq : s.position = 1 + before.chars.length + lead.length
  words : ∀ x ∈ (lead, first) :: others, x.2.kind ≠ .pipe
  pipes_only : ∀ x ∈ pipes, x.2.kind = .pipe
  no_pipe : ∀ x ∈ after.head?, x.2.kind ≠ .pipe
  text_eq : s.text = sourceText line.toList s.position (startOr (line.toList.length + 1)
    (after.placed (1 + before.chars.length + (Spaced.chars ((lead, first) :: others)).length + pipes.chars.length)))

theorem exists_laidOut_of_parse {line nullWord : String} {cl : CommandLine}
    (h : parse line nullWord = .ok cl) {s : Segment} (hs : s ∈ cl.segments) :
    ∃ before lead first others pipes after last, s.LaidOut line before lead first others pipes after last := by
  rw [parse] at h
  cases htokens : tokenize line with
  | error e =>
      rw [htokens] at h
      cases h
  | ok ts =>
      rw [htokens] at h
      obtain ⟨hpipe, hsegments, -⟩ := group_eq_ok_iff.1 (show group line ts nullWord = .ok cl from h)
      rw [hsegments] at hs
      have hposition := position_of_mem_segmentsOf hs
      obtain ⟨before, pipes, after, hts, hne, hstage, hpipes, hafter, htext⟩ := mem_segmentsOf hs
      rw [← startOr_append] at htext
      have hrest : ∀ t ∈ (after ++ ts.drop (firstRedirect ts)).head?, t.kind ≠ .pipe := by
        cases after with
        | nil => exact fun t ht => hpipe t (List.mem_of_head? ht)
        | cons t after => exact hafter
      obtain ⟨-, spaced, last, hline, happart, hplaced⟩ := tokenize_eq_ok_iff.1 htokens
      have hcut : spaced.placed 1 =
          before ++ (s.tokens ++ (pipes ++ (after ++ ts.drop (firstRedirect ts)))) := by
        rw [hplaced]
        conv => lhs; rw [← List.take_append_drop (firstRedirect ts) ts, hts]
        simp only [List.append_assoc]
      obtain ⟨B, r, rfl, hB, hr⟩ := Spaced.exists_of_placed_eq_append hcut
      obtain ⟨S, r, rfl, hS, hr⟩ := Spaced.exists_of_placed_eq_append hr
      obtain ⟨P, R, rfl, hP, hR⟩ := Spaced.exists_of_placed_eq_append hr
      rcases S with _ | ⟨⟨lead, first⟩, others⟩
      · exact absurd hS.symm hne
      refine ⟨B, lead, first, others, P, R, last, hline, happart, by rw [hplaced, htokens], hS.symm, ?_, ?_, ?_, ?_, ?_⟩
      · rw [hposition, ← hS]
        rfl
      · exact (Spaced.forall_kind_placed (· ≠ .pipe)).1 (hS ▸ hstage)
      · exact (Spaced.forall_kind_placed (· = .pipe)).1 (hP ▸ hpipes)
      · rw [← hR] at hrest
        cases R with
        | nil => nofun
        | cons x R => simpa [Spaced.placed] using hrest
      · rw [htext, hR, hposition]

namespace Spaced

variable {before stage pipes rest : Spaced} {lead last left : List Char} {first : Token}

/-- Some tokens after each other are read alike where the line is cut before and after them. -/
theorem Apart.tokenize (h : Apart (before ++ ((lead, first) :: stage ++ rest)) last)
    (hleft : left <+: rest.chars ++ last) (hsep : left.all isSeparator = true) :
    Line.tokenize (String.ofList (chars (([], first) :: stage) ++ left)) =
      .ok ((placed (1 + before.chars.length) ((lead, first) :: stage)).map
        (·.lower (before.chars.length + lead.length))) := by
  obtain ⟨-, hspell, hends, hstage⟩ := h.right.left hleft hsep
  obtain ⟨c, cs, hc, hcsep, -⟩ := hspell.exists_cons
  rw [isSeparator, Bool.or_eq_false_iff] at hcsep
  refine tokenize_eq_ok_iff.2 ⟨?_, ([], first) :: stage, left, String.toList_ofList, ⟨rfl, hspell, hends, hstage⟩, ?_⟩
  · rw [isAllBlank, String.toList_ofList, chars_cons, hc]
    simp [hcsep.1]
  · rw [← map_lower_placed (before.chars.length + lead.length)]
    simp only [placed, List.length_nil, Nat.add_assoc, Nat.add_zero]

/-- A stage's text, if the line goes on with pipes, a gap and something that is neither. -/
theorem Apart.sourceText {gap after : List Char} (h : Apart (before ++ ((lead, first) :: stage ++ rest)) last)
    (hkind : ∀ x ∈ (lead, first) :: stage, x.2.kind ≠ .pipe) :
    Line.sourceText (before.chars ++ (chars ((lead, first) :: stage) ++ (gap ++ after)))
        (1 + before.chars.length + lead.length)
        (1 + before.chars.length + (chars ((lead, first) :: stage)).length + gap.length) =
      String.ofList (chars (([], first) :: stage) ++ leftover gap) := by
  obtain ⟨-, hspell, hends, hstage⟩ := h.right.left List.nil_prefix rfl
  obtain ⟨c, cs, hc, hcsep, -⟩ := hspell.exists_cons
  rw [isSeparator, Bool.or_eq_false_iff] at hcsep
  have hlast := chars_last (s := ([], first) :: stage) ⟨rfl, hspell, hends, hstage⟩ (List.cons_ne_nil _ _)
    (List.forall_mem_cons.2 (List.forall_mem_cons.1 hkind))
  have hbody : chars (([], first) :: stage) = c :: (cs ++ stage.chars) := by
    rw [chars_cons, hc]
    rfl
  have hlayout : before.chars ++ (chars ((lead, first) :: stage) ++ (gap ++ after)) =
      (before.chars ++ lead) ++ (chars (([], first) :: stage) ++ gap) ++ after := by simp
  rw [← sourceText_eq hlayout hbody hcsep.1 hlast]
  congr 1
  · rw [List.length_append, Nat.add_assoc]
  · simp only [chars_cons, List.length_append, List.length_nil]
    omega

end Spaced

namespace Segment.LaidOut

variable {s : Segment} {line : String} {before others pipes after : Spaced} {first : Token}
  {lead last gap rest : List Char}

theorem isGap_pipes (h : s.LaidOut line before lead first others pipes after last)
    (hsplit : after.chars ++ last = gap ++ rest) (hgap : gap.all isSeparator = true) :
    pipes.Apart gap ∧ (pipes.chars ++ gap).all isGap = true := by
  have hpipes : pipes.Apart gap := h.apart.right.right.left ⟨rest, hsplit.symm⟩ hgap
  refine ⟨hpipes, ?_⟩
  rw [List.all_append, Spaced.chars_pipes hpipes h.pipes_only, all_isGap hgap]
  rfl

theorem chars_split (h : s.LaidOut line before lead first others pipes after last)
    (hsplit : after.chars ++ last = gap ++ rest) : line.toList =
      before.chars ++ (Spaced.chars ((lead, first) :: others) ++ ((pipes.chars ++ gap) ++ rest)) := by
  rw [h.chars_eq]
  simp only [Spaced.chars_append, List.append_assoc, hsplit]

theorem gap_eq (h : s.LaidOut line before lead first others pipes after last)
    (hsplit : after.chars ++ last = gap ++ rest) (hgap : gap.all isSeparator = true)
    (hrest : ∀ c ∈ rest.head?, isGap c = false) : s.gap line = pipes.chars ++ gap := by
  have hskip : s.stop - 1 = (before.chars ++ Spaced.chars ((lead, first) :: others)).length := by
    rw [Spaced.stop_of_placed (List.cons_ne_nil _ _) h.tokens_eq, List.length_append]
    omega
  have hnil : rest.takeWhile isGap = [] := by
    cases rest with
    | nil => rfl
    | cons c rest => rw [List.takeWhile_cons_of_neg (by simp [hrest c rfl])]
  rw [Segment.gap, hskip, h.chars_split hsplit, ← List.append_assoc, List.drop_left,
    List.takeWhile_append_of_pos (List.all_eq_true.1 (h.isGap_pipes hsplit hgap).2), hnil, List.append_nil]

theorem text_eq_leftover (h : s.LaidOut line before lead first others pipes after last)
    (hsplit : after.chars ++ last = gap ++ rest)
    (hstart : ∀ pos, startOr (pos + (after.chars ++ last).length) (after.placed pos) = pos + gap.length) :
    s.text = String.ofList (Spaced.chars (([], first) :: others) ++ leftover (pipes.chars ++ gap)) := by
  have hend : line.toList.length + 1 = 1 + before.chars.length +
      (Spaced.chars ((lead, first) :: others)).length + pipes.chars.length + (after.chars ++ last).length := by
    rw [h.chars_split hsplit, hsplit]
    simp only [List.length_append]
    omega
  have hstop : 1 + before.chars.length + (Spaced.chars ((lead, first) :: others)).length +
      pipes.chars.length + gap.length =
        1 + before.chars.length + (Spaced.chars ((lead, first) :: others)).length +
          (pipes.chars ++ gap).length := by
    rw [List.length_append, ← Nat.add_assoc]
  rw [h.text_eq, hend, hstart, hstop, h.position_eq, h.chars_split hsplit]
  exact Spaced.Apart.sourceText h.apart h.words

end Segment.LaidOut

/-- The text that a segment keeps of the line is read as its tokens and as some of the pipes that follow
them.  No pipe is left exactly if those pipes stand together and only blanks come after them. -/
theorem tokenize_text_of_parse {line nullWord : String} {cl : CommandLine}
    (h : parse line nullWord = .ok cl) {s : Segment} (hs : s ∈ cl.segments) :
    ∃ ts pipes, tokenize line = .ok ts ∧ s.tokens ++ pipes <:+: ts ∧ (∀ p ∈ pipes, p.kind = .pipe) ∧
      tokenize s.text = .ok ((s.tokens ++ pipes).map (·.lower (s.position - 1))) ∧
      (pipes = [] ↔ OneRun (s.gap line)) := by
  obtain ⟨before, lead, first, others, pipes, after, last, hlaid⟩ := exists_laidOut_of_parse h hs
  obtain ⟨gap, rest, hsplit, hgap, hrest, hstart⟩ :=
    Spaced.exists_gap hlaid.apart.right.right.right hlaid.no_pipe
  obtain ⟨hpipes, hgaps⟩ := hlaid.isGap_pipes hsplit hgap
  obtain ⟨n, left, hleft, hseparators, hnil⟩ :=
    Spaced.exists_take_of_prefix hpipes hlaid.pipes_only (isPrefix_leftover _)
  -- the pipes that are kept belong to the stage, the others to what comes after it
  have hregroup : before ++ ((lead, first) :: others ++ (pipes ++ after)) =
      before ++ ((lead, first) :: (others ++ pipes.take n) ++ (pipes.drop n ++ after)) := by
    conv => lhs; rw [← List.take_append_drop n pipes]
    simp only [List.cons_append, List.append_assoc]
  have hprefix : left <+: Spaced.chars (pipes.drop n ++ after) ++ last := by
    have hmore : Spaced.chars (pipes.take n) ++ left <+:
        Spaced.chars (pipes.take n) ++ (Spaced.chars (pipes.drop n) ++ gap) := by
      rw [← hleft, ← List.append_assoc, ← Spaced.chars_append, List.take_append_drop]
      exact isPrefix_leftover _
    refine ((List.prefix_append_right_inj _).1 hmore).trans ⟨rest, ?_⟩
    rw [Spaced.chars_append, List.append_assoc, List.append_assoc, hsplit]
  have hkept : s.tokens ++ Spaced.placed (1 + before.chars.length +
      (Spaced.chars ((lead, first) :: others)).length) (pipes.take n) =
        Spaced.placed (1 + before.chars.length) ((lead, first) :: (others ++ pipes.take n)) := by
    rw [hlaid.tokens_eq, ← Spaced.placed_append]
    rfl
  have htext : s.text = String.ofList (Spaced.chars (([], first) :: (others ++ pipes.take n)) ++ left) := by
    rw [hlaid.text_eq_leftover hsplit hstart, hleft, ← List.append_assoc, ← Spaced.chars_append]
    rfl
  have hmove : s.position - 1 = before.chars.length + lead.length := by
    rw [hlaid.position_eq]
    omega
  refine ⟨_, Spaced.placed (1 + before.chars.length + (Spaced.chars ((lead, first) :: others)).length)
    (pipes.take n), hlaid.tokenize_eq, ?_, ?_, ?_, ?_⟩
  · rw [hkept, hregroup, Spaced.placed_append, Spaced.placed_append, ← List.append_assoc]
    exact List.infix_append _ _ _
  · exact (Spaced.forall_kind_placed (· = .pipe)).2 fun x hx => hlaid.pipes_only x (List.mem_of_mem_take hx)
  · rw [hkept, htext, hmove]
    exact Spaced.Apart.tokenize (hregroup ▸ hlaid.apart) hprefix hseparators
  · rw [Spaced.placed_eq_nil_iff, hnil, hlaid.gap_eq hsplit hgap hrest]
    exact pipe_notMem_leftover_iff hgaps

/-- The first stage of `| A "|" || B`. -/
def quotedPipe : Segment :=
  ⟨[⟨.value, "A", 3, false⟩, ⟨.value, "|", 5, true⟩], 3, "A \"|\""⟩

theorem tokenize_text_of_quoted_pipe :
    parse "| A \"|\" || B" = .ok ⟨[quotedPipe, ⟨[⟨.value, "B", 12, false⟩], 12, "B"⟩], []⟩ ∧
      OneRun (quotedPipe.gap "| A \"|\" || B") ∧
      tokenize quotedPipe.text = .ok (quotedPipe.tokens.map (·.lower 2)) := by
  have hparse : parse "| A \"|\" || B" =
      .ok ⟨[quotedPipe, ⟨[⟨.value, "B", 12, false⟩], 12, "B"⟩], []⟩ := by rfl
  obtain ⟨ts, pipes, -, -, -, htokens, hnil⟩ := tokenize_text_of_parse hparse (s := quotedPipe) (by simp)
  have hrun : OneRun (quotedPipe.gap "| A \"|\" || B") := ⟨[' '], 2, [' '], by rfl, by rfl, by rfl⟩
  refine ⟨hparse, hrun, ?_⟩
  rw [hnil.2 hrun, List.append_nil] at htokens
  exact htokens

/-- A blank between two pipes keeps the first of them. -/
theorem text_keeps_spaced_pipe :
    tokenize "A |" = .ok [⟨.value, "A", 1, false⟩, ⟨.pipe, "|", 3, false⟩] ∧
      ¬ ∀ line nullWord cl, parse line nullWord = .ok cl → ∀ s ∈ cl.segments,
        tokenize s.text = .ok (s.tokens.map (·.lower (s.position - 1))) := by
  refine ⟨by rfl, fun h => ?_⟩
  have hparse : parse "A | | B" = .ok ⟨[⟨[⟨.value, "A", 1, false⟩], 1, "A |"⟩,
      ⟨[⟨.value, "B", 7, false⟩], 7, "B"⟩], []⟩ := by rfl
  have hkept : tokenize "A |" = .ok [⟨.value, "A", 1, false⟩, ⟨.pipe, "|", 3, false⟩] := by rfl
  have hclaim := (h _ _ _ hparse ⟨[⟨.value, "A", 1, false⟩], 1, "A |"⟩ (by simp)).symm.trans hkept
  simp at hclaim

end CommandShell.Line
