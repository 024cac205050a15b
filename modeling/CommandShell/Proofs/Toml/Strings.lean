import CommandShell.Proofs.Lists
import CommandShell.Toml.Printer
import CommandShell.Toml.Quoted
import Mathlib.Data.List.TakeWhile

/-!
Strings in TOML.  Main statement: a string that has been written is read back, in whichever form it is written,
unless a quote or an apostrophe follows it.
-/

namespace CommandShell.Toml

open Reader Printer

variable {c q : Char} {cs rest text : List Char} {long : Bool} {most run fuel : Nat}

/-! ### Characters -/

/-- What is written for a character that is not a quote. -/
def written (long : Bool) (c : Char) : List Char :=
  if c = '\x08' then ['\\', 'b']
  else if c = '\t' then ['\\', 't']
  else if c = '\n' then if long then [c] else ['\\', 'n']
  else if c = '\x0c' then ['\\', 'f']
  else if c = '\r' then ['\\', 'r']
  else if c = '\\' then ['\\', '\\']
  else if needsEscape c then ['\\', 'u'] ++ hex4 c.toNat
  else [c]

theorem escape_cons (hc : c ≠ '"') : escape long most run (c :: cs) = written long c ++ escape long most 0 cs := by
  rw [escape, if_neg hc]
  rfl

theorem escape_bare (h : run < most) : escape long most run ('"' :: cs) = '"' :: escape long most (run + 1) cs := by
  rw [escape, if_pos rfl, if_pos h]

theorem escape_quote (h : ¬run < most) : escape long most run ('"' :: cs) = '\\' :: '"' :: escape long most 0 cs := by
  rw [escape, if_pos rfl, if_neg h]

theorem eq_of_isForbidden (h : needsEscape c = false) (hforbidden : isForbidden c = true) : c = '\n' := by
  simp only [needsEscape, isForbidden] at h hforbidden
  grind

theorem scalarOf_hex4 : ∀ n < 128, scalarOf (hex4 n) = some (Char.ofNat n) := by decide

/-- A character is written as an escape that is read as this character, or as itself if it can be read so. -/
theorem written_cases (long : Bool) (c : Char) :
    (∃ e, written long c = '\\' :: e ∧ ∀ rest, readEscape (e ++ rest) = some (c, rest)) ∨
      (written long c = [c] ∧ c ≠ '\\' ∧ c ≠ '\r' ∧ (isForbidden c = true → long = true ∧ c = '\n')) := by
  unfold written
  split_ifs with hb ht hn hlong hf hr hs hescape
  · exact .inl ⟨['b'], rfl, fun rest => by rw [hb]; rfl⟩
  · exact .inl ⟨['t'], rfl, fun rest => by rw [ht]; rfl⟩
  · exact .inr ⟨rfl, by rw [hn]; decide, by rw [hn]; decide, fun _ => ⟨hlong, hn⟩⟩
  · exact .inl ⟨['n'], rfl, fun rest => by rw [hn]; rfl⟩
  · exact .inl ⟨['f'], rfl, fun rest => by rw [hf]; rfl⟩
  · exact .inl ⟨['r'], rfl, fun rest => by rw [hr]; rfl⟩
  · exact .inl ⟨['\\'], rfl, fun rest => by rw [hs]; rfl⟩
  · refine .inl ⟨'u' :: hex4 c.toNat, rfl, fun rest => ?_⟩
    have hsmall : c.toNat < 128 := by
      simp only [needsEscape, Bool.or_eq_true, Bool.and_eq_true, decide_eq_true_eq, beq_iff_eq] at hescape
      omega
    change (scalarOf (hex4 c.toNat)).map (·, rest) = _
    rw [scalarOf_hex4 _ hsmall, Char.ofNat_toNat]
    rfl
  · refine .inr ⟨rfl, hs, hr, fun hforbidden => ?_⟩
    simp [needsEscape, isForbidden, ht, hn] at hescape hforbidden
    omega

/-- What is written for a string starts with a backslash or with the first character. -/
theorem head?_escape_cons (long : Bool) (most run : Nat) (c : Char) (cs : List Char) :
    (escape long most run (c :: cs)).head? = some '\\' ∨
      ((escape long most run (c :: cs)).head? = some c ∧ c ≠ '\r' ∧ (c = '"' → run < most)) := by
  by_cases hc : c = '"'
  · subst hc
    by_cases hbare : run < most
    · rw [escape_bare hbare]
      exact .inr ⟨rfl, by decide, fun _ => hbare⟩
    · rw [escape_quote hbare]
      exact .inl rfl
  · rw [escape_cons hc]
    rcases written_cases long c with ⟨e, he, -⟩ | ⟨hplain, -, hreturn, -⟩
    · rw [he]
      exact .inl rfl
    · rw [hplain]
      exact .inr ⟨rfl, hreturn, fun h => absurd h hc⟩

/-! ### Strings on one line -/

theorem readBasic_escaped (h : readEscape cs = some (c, rest)) :
    readBasic (fuel + 1) text ('\\' :: cs) = readBasic fuel (c :: text) rest := by
  rw [readBasic, if_neg (by decide), if_pos rfl, h]

theorem readBasic_plain (hquote : c ≠ '"') (hslash : c ≠ '\\') (hallowed : isForbidden c = false) :
    readBasic (fuel + 1) text (c :: cs) = readBasic fuel (c :: text) cs := by
  rw [readBasic, if_neg hquote, if_neg hslash, if_neg (Bool.eq_false_iff.1 hallowed)]

theorem readBasic_escape (text cs rest : List Char) (h : (escape false 0 0 cs).length < fuel) :
    readBasic fuel text (escape false 0 0 cs ++ '"' :: rest) = some (String.ofList (text.reverse ++ cs), rest) := by
  induction cs generalizing text fuel with
  | nil =>
      obtain ⟨fuel, rfl⟩ := Nat.exists_eq_add_of_lt h
      simp [escape, readBasic]
  | cons c cs ih =>
      obtain ⟨fuel, rfl⟩ : ∃ n, fuel = n + 1 := ⟨fuel - 1, by omega⟩
      have hskip : text.reverse ++ c :: cs = (c :: text).reverse ++ cs := by simp
      by_cases hc : c = '"'
      · subst hc
        rw [escape_quote (Nat.lt_irrefl 0)] at h ⊢
        rw [List.length_cons, List.length_cons] at h
        rw [List.cons_append, List.cons_append, readBasic_escaped rfl, ih _ (by omega), hskip]
      · rw [escape_cons hc] at h ⊢
        rcases written_cases false c with ⟨e, he, hread⟩ | ⟨hplain, hslash, -, hforbidden⟩
        · rw [he, List.length_append, List.length_cons] at h
          rw [he, List.append_assoc, List.cons_append, readBasic_escaped (hread _), ih _ (by omega), hskip]
        · rw [hplain, List.length_append, List.length_singleton] at h
          have hallowed : isForbidden c = false := Bool.eq_false_iff.2 fun h => Bool.noConfusion (hforbidden h).1
          rw [hplain, List.singleton_append, List.cons_append, readBasic_plain hc hslash hallowed, ih _ (by omega),
            hskip]

theorem readLiteral_append (h : ∀ c ∈ cs, c ≠ '\'' ∧ isForbidden c = false) (rest : List Char) :
    readLiteral (cs ++ '\'' :: rest) = some (String.ofList cs, rest) := by
  have hbody : (cs ++ '\'' :: rest).takeWhile (fun c => c != '\'' && !isForbidden c) = cs :=
    takeWhile_append_of_head (fun c hc => by simp [h c hc]) (by simp)
  rw [readLiteral, hbody, List.drop_left]
  rfl

/-! ### Strings of several lines -/

theorem closing_of_short (h : (cs.takeWhile (· == q)).length < 3) : closing q cs = none := if_pos h

/-- Up to two quotes before the closing ones belong to the string. -/
theorem closing_append (cs : List Char) (hcs : ∀ c ∈ cs, c = q) (hlength : cs.length ≤ 2)
    (hrest : rest.head? ≠ some q) :
    closing q (cs ++ q :: q :: q :: rest) = some (cs, rest) := by
  have hrun : (cs ++ q :: q :: q :: rest).takeWhile (· == q) = cs ++ [q, q, q] := by
    have hsplit : cs ++ q :: q :: q :: rest = (cs ++ [q, q, q]) ++ rest := by simp
    rw [hsplit]
    refine takeWhile_append_of_head (fun c hc => ?_) (fun c hc => ?_)
    · simp only [List.mem_append, List.mem_cons, List.not_mem_nil, or_false, or_self] at hc
      exact beq_iff_eq.2 (hc.elim (hcs c) id)
    · rw [beq_eq_false_iff_ne]
      rintro rfl
      exact hrest hc
  have htake : (cs ++ [q, q, q]).take (min ((cs ++ [q, q, q]).length - 3) 2) = cs := by
    rw [List.length_append, List.length_cons, List.length_cons, List.length_cons, List.length_nil,
      Nat.min_eq_left (by omega), Nat.add_sub_cancel, List.take_left]
  rw [closing]
  dsimp only
  rw [hrun, if_neg (by simp), htake, List.drop_append, List.drop_eq_nil_of_le (by omega)]
  simp

/-- Quotes that end the string and need no escape. -/
def EndsInQuotes (run : Nat) (cs : List Char) : Prop := (∀ c ∈ cs, c = '"') ∧ run + cs.length ≤ 2

theorem EndsInQuotes.escape_eq (h : EndsInQuotes run cs) : escape true 2 run cs = cs := by
  induction cs generalizing run with
  | nil => rfl
  | cons c cs ih =>
      obtain ⟨hall, hlength⟩ := h
      obtain ⟨rfl, htail⟩ := List.forall_mem_cons.1 hall
      rw [List.length_cons] at hlength
      rw [escape_bare (by omega), ih ⟨htail, by omega⟩]

/-- No more than two quotes stand together in what is written, other than at its end. -/
theorem length_takeWhile_escape (hrun : run ≤ 2) (h : ¬EndsInQuotes run cs) (rest : List Char) :
    ((escape true 2 run cs ++ rest).takeWhile (· == '"')).length ≤ 2 - run := by
  induction cs generalizing run with
  | nil => exact absurd ⟨nofun, hrun⟩ h
  | cons c cs ih =>
      by_cases hc : c = '"' ∧ run < 2
      · obtain ⟨rfl, hbare⟩ := hc
        have hmore : ¬EndsInQuotes (run + 1) cs := by
          rintro ⟨hcs, hlength⟩
          exact h ⟨List.forall_mem_cons.2 ⟨rfl, hcs⟩, by rw [List.length_cons]; omega⟩
        have hlength := ih (by omega) hmore
        rw [escape_bare hbare, List.cons_append, List.takeWhile_cons_of_pos rfl, List.length_cons]
        omega
      · obtain hhead | ⟨hhead, -, hquote⟩ := head?_escape_cons true 2 run c cs
        all_goals
          obtain ⟨xs, hxs⟩ := List.head?_eq_some_iff.1 hhead
          rw [hxs, List.cons_append, List.takeWhile_cons_of_neg]
        · exact Nat.zero_le _
        · decide
        · exact Nat.zero_le _
        · simpa using fun heq => hc ⟨heq, hquote heq⟩

theorem readLongBasic_closing {extra : List Char} (h : closing '"' (c :: cs) = some (extra, rest)) :
    readLongBasic (fuel + 1) text (c :: cs) = some (String.ofList (text.reverse ++ extra), rest) := by
  rw [readLongBasic.eq_def]
  dsimp only
  rw [h]

theorem readLongBasic_escaped (hopen : closing '"' ('\\' :: cs) = none) (h : readEscape cs = some (c, rest)) :
    readLongBasic (fuel + 1) text ('\\' :: cs) = readLongBasic fuel (c :: text) rest := by
  rw [readLongBasic.eq_def]
  dsimp only
  rw [hopen]
  dsimp only
  rw [if_pos rfl, h]

theorem readLongBasic_plain (hopen : closing '"' (c :: cs) = none) (hslash : c ≠ '\\') (hreturn : c ≠ '\r')
    (hallowed : isForbidden c = true → c = '\n') :
    readLongBasic (fuel + 1) text (c :: cs) = readLongBasic fuel (c :: text) cs := by
  rw [readLongBasic.eq_def]
  dsimp only
  rw [hopen]
  dsimp only
  rw [if_neg hslash, if_neg hreturn, if_neg (by simpa using hallowed)]

theorem readLongBasic_escape (hrest : rest.head? ≠ some '"') (text cs : List Char) (hrun : run ≤ 2)
    (h : (escape true 2 run cs).length < fuel) :
    readLongBasic fuel text (escape true 2 run cs ++ '"' :: '"' :: '"' :: rest) =
      some (String.ofList (text.reverse ++ cs), rest) := by
  induction cs generalizing run text fuel with
  | nil =>
      obtain ⟨fuel, rfl⟩ : ∃ n, fuel = n + 1 := ⟨fuel - 1, by omega⟩
      exact readLongBasic_closing (closing_append [] nofun (by simp) hrest)
  | cons c cs ih =>
      obtain ⟨fuel, rfl⟩ : ∃ n, fuel = n + 1 := ⟨fuel - 1, by omega⟩
      have hskip : text.reverse ++ c :: cs = (c :: text).reverse ++ cs := by simp
      by_cases hend : EndsInQuotes run (c :: cs)
      · have hclosing := closing_append _ hend.1 (Nat.le_trans (Nat.le_add_left _ run) hend.2) hrest
        rw [hend.escape_eq]
        exact readLongBasic_closing hclosing
      · have hopen : closing '"' (escape true 2 run (c :: cs) ++ '"' :: '"' :: '"' :: rest) = none := by
          refine closing_of_short ?_
          have := length_takeWhile_escape hrun hend ('"' :: '"' :: '"' :: rest)
          omega
        by_cases hc : c = '"'
        · subst hc
          by_cases hbare : run < 2
          · rw [escape_bare hbare] at h hopen ⊢
            rw [List.length_cons] at h
            rw [List.cons_append] at hopen ⊢
            rw [readLongBasic_plain hopen (by decide) (by decide) (fun h => absurd h (by decide)),
              ih _ (by omega) (by omega), hskip]
          · rw [escape_quote hbare] at h hopen ⊢
            rw [List.length_cons, List.length_cons] at h
            rw [List.cons_append, List.cons_append] at hopen ⊢
            rw [readLongBasic_escaped hopen rfl, ih _ (by omega) (by omega), hskip]
        · rw [escape_cons hc] at h hopen ⊢
          rcases written_cases true c with ⟨e, he, hread⟩ | ⟨hplain, hslash, hreturn, hforbidden⟩
          · rw [he, List.length_append, List.length_cons] at h
            rw [he, List.append_assoc, List.cons_append] at hopen ⊢
            rw [readLongBasic_escaped hopen (hread _), ih _ (by omega) (by omega), hskip]
          · rw [hplain, List.length_append, List.length_singleton] at h
            rw [hplain, List.append_assoc, List.singleton_append] at hopen ⊢
            rw [readLongBasic_plain hopen hslash hreturn (fun h => (hforbidden h).2), ih _ (by omega) (by omega),
              hskip]

/-! ### Runs of one character -/

theorem le_longestRun (run : Nat) (cs : List Char) : run + (cs.takeWhile (· == q)).length ≤ longestRun q run cs := by
  induction cs generalizing run with
  | nil => exact Nat.le_refl run
  | cons c cs ih =>
      rw [longestRun]
      by_cases hc : c = q
      · rw [if_pos hc, List.takeWhile_cons_of_pos (by simpa using hc), List.length_cons]
        have := ih (run + 1)
        omega
      · rw [if_neg hc, List.takeWhile_cons_of_neg (by simpa using hc)]
        exact Nat.le_max_left run _

theorem longestRun_mono (h : run ≤ most) (cs : List Char) : longestRun q run cs ≤ longestRun q most cs := by
  induction cs generalizing run most with
  | nil => exact h
  | cons c cs ih =>
      rw [longestRun, longestRun]
      split
      · exact ih (Nat.succ_le_succ h)
      · omega

theorem longestRun_tail_le (c : Char) (cs : List Char) : longestRun q 0 cs ≤ longestRun q 0 (c :: cs) := by
  rw [longestRun]
  split
  · exact longestRun_mono (Nat.zero_le _) cs
  · exact Nat.le_max_right _ _

theorem not_mem_of_longestRun (h : longestRun q 0 cs = 0) : q ∉ cs := by
  induction cs with
  | nil => exact List.not_mem_nil
  | cons c cs ih =>
      have htail := longestRun_tail_le (q := q) c cs
      have hhead := le_longestRun (q := q) 0 (c :: cs)
      refine List.not_mem_cons_of_ne_of_not_mem (fun hc => ?_) (ih (by omega))
      subst hc
      rw [h, List.takeWhile_cons_of_pos (by simp), List.length_cons] at hhead
      omega

theorem readLongLiteral_append (hrest : rest.head? ≠ some '\'') (text cs : List Char)
    (hruns : longestRun '\'' 0 cs ≤ 2) (hplain : ∀ c ∈ cs, needsEscape c = false) :
    readLongLiteral text (cs ++ '\'' :: '\'' :: '\'' :: rest) = some (String.ofList (text.reverse ++ cs), rest) := by
  induction cs generalizing text with
  | nil =>
      have hclosing := closing_append [] nofun (by simp) hrest
      rw [List.nil_append] at hclosing ⊢
      rw [readLongLiteral, hclosing]
  | cons c cs ih =>
      have hrun := le_longestRun (q := '\'') 0 (c :: cs)
      rw [List.cons_append, readLongLiteral]
      by_cases hend : ((c :: cs).takeWhile (· == '\'')).length = (c :: cs).length
      · have hall : ∀ x ∈ c :: cs, x = '\'' := by
          have := List.takeWhile_eq_self_iff.1 ((List.takeWhile_prefix _).eq_of_length hend)
          simpa using this
        rw [← List.cons_append, closing_append _ hall (by omega) hrest]
      · have hopen : closing '\'' (c :: (cs ++ '\'' :: '\'' :: '\'' :: rest)) = none := by
          refine closing_of_short ?_
          rw [← List.cons_append, List.takeWhile_append, if_neg hend]
          omega
        have hhead := hplain c List.mem_cons_self
        have hreturn : c ≠ '\r' := fun h => by
          subst h
          exact absurd hhead (by decide)
        have hallowed : ¬(isForbidden c && c != '\n') = true := by
          simpa using eq_of_isForbidden hhead
        rw [hopen]
        dsimp only
        rw [if_neg hreturn, if_neg hallowed,
          ih _ (Nat.le_trans (longestRun_tail_le c cs) hruns) (fun x hx => hplain x (List.mem_cons_of_mem c hx))]
        simp

/-! ### Every form -/

theorem skipFirstBreak_of_head (hbreak : cs.head? ≠ some '\n') (hreturn : cs.head? ≠ some '\r') :
    skipFirstBreak cs = cs := by
  unfold skipFirstBreak
  split
  · simp at hbreak
  · simp at hreturn
  · rfl

theorem head?_escape (h : '\n' ∉ cs) :
    (escape long most run cs).head? ≠ some '\n' ∧ (escape long most run cs).head? ≠ some '\r' := by
  cases cs with
  | nil => exact ⟨nofun, nofun⟩
  | cons c cs =>
      obtain hhead | ⟨hhead, hreturn, -⟩ := head?_escape_cons long most run c cs
      · rw [hhead]
        exact ⟨by decide, by decide⟩
      · rw [hhead]
        simpa using ⟨fun heq => h (heq ▸ List.mem_cons_self), hreturn⟩

theorem head?_escape_ne_quote : (escape false 0 0 cs).head? ≠ some '"' := by
  cases cs with
  | nil => nofun
  | cons c cs =>
      obtain hhead | ⟨hhead, -, hquote⟩ := head?_escape_cons false 0 0 c cs
      · rw [hhead]
        decide
      · rw [hhead, Ne, Option.some.injEq]
        exact fun hc => Nat.lt_irrefl 0 (hquote hc)

theorem readString_basic (hcs : cs.head? ≠ some '"') (hrest : rest.head? ≠ some '"') :
    readString ('"' :: (cs ++ '"' :: rest)) = readBasic ((cs ++ '"' :: rest).length + 1) [] (cs ++ '"' :: rest) := by
  unfold readString
  split
  · next heq =>
      cases cs with
      | nil => simp_all
      | cons c cs => simp_all
  all_goals simp_all

theorem readString_literal (hcs : cs.head? ≠ some '\'') (hrest : rest.head? ≠ some '\'') :
    readString ('\'' :: (cs ++ '\'' :: rest)) = readLiteral (cs ++ '\'' :: rest) := by
  unfold readString
  split
  · simp_all
  · next heq =>
      cases cs with
      | nil => simp_all
      | cons c cs => simp_all
  all_goals simp_all

theorem of_formOf_literal (h : formOf cs = .literal) :
    longestRun '\'' 0 cs = 0 ∧ '\n' ∉ cs ∧ ∀ c ∈ cs, needsEscape c = false := by
  unfold formOf at h
  dsimp only at h
  split_ifs at h with _ hliteral
  simpa [and_comm, and_left_comm] using hliteral

theorem of_formOf_longLiteral (h : formOf cs = .longLiteral) :
    longestRun '\'' 0 cs ≤ 2 ∧ ∀ c ∈ cs, needsEscape c = false := by
  unfold formOf at h
  dsimp only at h
  split_ifs at h with _ _ _ hlong
  simpa [and_comm] using hlong

theorem head?_append_cons_ne {x y : Char} (h : cs.head? ≠ some y) (hx : x ≠ y) :
    (cs ++ x :: rest).head? ≠ some y := by
  cases cs with
  | nil => simpa using hx
  | cons c cs => exact h

/-- A break at the start is written whenever the string has one, so no break of the string itself is skipped. -/
theorem skipFirstBreak_start (h : '\n' ∉ cs → rest.head? ≠ some '\n' ∧ rest.head? ≠ some '\r') :
    skipFirstBreak ((if cs.contains '\n' then "\n" else "").toList ++ rest) = rest := by
  split
  · rfl
  · next hbreak =>
      have hhead := h (by simpa using hbreak)
      exact skipFirstBreak_of_head hhead.1 hhead.2

theorem readString_string (s : String) (hquote : rest.head? ≠ some '"') (hapostrophe : rest.head? ≠ some '\'') :
    readString ((Printer.string s).toList ++ rest) = some (s, rest) := by
  unfold Printer.string
  dsimp only
  split
  · have htext : ("\"" ++ String.ofList (escape false 0 0 s.toList) ++ "\"").toList ++ rest =
        '"' :: (escape false 0 0 s.toList ++ '"' :: rest) := by simp
    rw [htext, readString_basic head?_escape_ne_quote hquote,
      readBasic_escape _ _ _ (by rw [List.length_append]; omega)]
    simp
  · next hform =>
      obtain ⟨hruns, hbreak, hplain⟩ := of_formOf_literal hform
      have hmem := not_mem_of_longestRun hruns
      have hbody : ∀ c ∈ s.toList, c ≠ '\'' ∧ isForbidden c = false := fun c hc =>
        ⟨fun h => hmem (h ▸ hc), Bool.eq_false_iff.2 fun h => hbreak (eq_of_isForbidden (hplain c hc) h ▸ hc)⟩
      have htext : ("'" ++ s ++ "'").toList ++ rest = '\'' :: (s.toList ++ '\'' :: rest) := by simp
      rw [htext, readString_literal (fun h => hmem (List.mem_of_mem_head? h)) hapostrophe, readLiteral_append hbody]
      simp
  · generalize hstart : (if s.toList.contains '\n' then "\n" else "") = start
    have htext : ("\"\"\"" ++ start ++ String.ofList (escape true 2 0 s.toList) ++ "\"\"\"").toList ++ rest =
        '"' :: '"' :: '"' :: (start.toList ++ (escape true 2 0 s.toList ++ '"' :: '"' :: '"' :: rest)) := by simp
    have hbody : skipFirstBreak (start.toList ++ (escape true 2 0 s.toList ++ '"' :: '"' :: '"' :: rest)) =
        escape true 2 0 s.toList ++ '"' :: '"' :: '"' :: rest := by
      rw [← hstart]
      refine skipFirstBreak_start fun h => ?_
      have hhead := @head?_escape _ true 2 0 h
      exact ⟨head?_append_cons_ne hhead.1 (by decide), head?_append_cons_ne hhead.2 (by decide)⟩
    rw [htext, readString, hbody,
      readLongBasic_escape hquote _ _ (by decide) (by simp only [List.length_append]; omega)]
    simp
  · next hform =>
      obtain ⟨hruns, hplain⟩ := of_formOf_longLiteral hform
      generalize hstart : (if s.toList.contains '\n' then "\n" else "") = start
      have htext : ("'''" ++ start ++ s ++ "'''").toList ++ rest =
          '\'' :: '\'' :: '\'' :: (start.toList ++ (s.toList ++ '\'' :: '\'' :: '\'' :: rest)) := by simp
      have hbody : skipFirstBreak (start.toList ++ (s.toList ++ '\'' :: '\'' :: '\'' :: rest)) =
          s.toList ++ '\'' :: '\'' :: '\'' :: rest := by
        rw [← hstart]
        refine skipFirstBreak_start fun h => ?_
        have hreturn : s.toList.head? ≠ some '\r' := fun h =>
          absurd (hplain _ (List.mem_of_mem_head? h)) (by decide)
        exact ⟨head?_append_cons_ne (fun hbreak => h (List.mem_of_mem_head? hbreak)) (by decide),
          head?_append_cons_ne hreturn (by decide)⟩
      rw [htext, readString, hbody, readLongLiteral_append hapostrophe _ _ hruns hplain]
      simp

end CommandShell.Toml
