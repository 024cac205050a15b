import CommandShell.Proofs.Toml.Bounds
import CommandShell.Proofs.Toml.Strings
import Mathlib.Data.List.Basic

/-!
Values in TOML.  Main statement: a value that has been written is read back, unless it is a number that is too large.
-/

namespace CommandShell.Toml

open Reader Printer

variable {cs rest more : List Char} {fuel depth n : Nat} {s : String} {ss : List String}

/-- The value that a field is written for. -/
def Field.value : Field → Value
  | .text s => .text s
  | .number n => .integer n
  | .truth b => .truth b
  | .texts ss => .list (ss.map .text)

/-- The number, if it is one, is not too large to be read. -/
def Field.IsReadable : Field → Prop
  | .number n => n < integerBound
  | _ => True

/-! ### Numbers -/

/-- Digits and the end of the line. -/
def DigitsToBreak (cs : List Char) : Prop := ∃ ds rest, cs = ds ++ '\n' :: rest ∧ ∀ d ∈ ds, d.isDigit = true

theorem DigitsToBreak.cases {c : Char} (h : DigitsToBreak (c :: cs)) :
    c = '\n' ∨ (c.isDigit = true ∧ DigitsToBreak cs) := by
  obtain ⟨ds, rest, heq, hds⟩ := h
  cases ds with
  | nil => exact .inl (List.cons.inj heq).1
  | cons d ds =>
      obtain ⟨rfl, rfl⟩ := List.cons.inj heq
      obtain ⟨hd, hds⟩ := List.forall_mem_cons.1 hds
      exact .inr ⟨hd, ds, rest, rfl, hds⟩

theorem DigitsToBreak.readTwoDigits {least most : Nat} (h : DigitsToBreak cs)
    (hread : readTwoDigits least most cs = some (n, rest)) : DigitsToBreak rest := by
  unfold Reader.readTwoDigits at hread
  split at hread
  · next a b _ =>
      dsimp only at hread
      split_ifs at hread with hdigits
      obtain ⟨-, rfl⟩ := Prod.mk.inj (Option.some.inj hread)
      simp only [Bool.and_eq_true] at hdigits
      obtain rfl | ⟨-, h⟩ := h.cases
      · simp at hdigits
      obtain rfl | ⟨-, h⟩ := h.cases
      · simp at hdigits
      exact h
  · cases hread

theorem DigitsToBreak.skipTime_eq (h : DigitsToBreak cs) : skipTime cs = none := by
  unfold skipTime
  cases hread : Reader.readTwoDigits 0 23 cs with
  | none => rfl
  | some x =>
      obtain ⟨n, rest⟩ := x
      have hrest := h.readTwoDigits hread
      cases rest with
      | nil => rfl
      | cons c rest =>
          obtain rfl | ⟨hc, -⟩ := hrest.cases
          · rfl
          · simp only [Option.bind_eq_bind, Option.bind_some]
            split
            · simp_all
            · rfl

theorem DigitsToBreak.skipDay_eq (h : DigitsToBreak cs) : skipDay cs = none := by
  unfold skipDay
  cases hread : Reader.readTwoDigits 0 99 cs with
  | none => rfl
  | some x =>
      obtain ⟨century, cs⟩ := x
      have hcs := h.readTwoDigits hread
      dsimp only [Option.bind_eq_bind, Option.bind_some]
      cases hread : Reader.readTwoDigits 0 99 cs with
      | none => rfl
      | some x =>
          obtain ⟨n, rest⟩ := x
          have hrest := hcs.readTwoDigits hread
          cases rest with
          | nil => rfl
          | cons c rest =>
              obtain rfl | ⟨hc, -⟩ := hrest.cases
              · rfl
              · simp only [Option.bind_some]
                split
                · simp_all
                · rfl

theorem DigitsToBreak.skipDate_eq (h : DigitsToBreak cs) : skipDate cs = none := by
  rw [skipDate, h.skipDay_eq]
  exact h.skipTime_eq

theorem head?_toDigits (h : 0 < n) : (Nat.toDigits 10 n).head? ≠ some '0' := by
  induction n using Nat.strongRecOn with
  | ind n ih =>
      rw [Nat.toDigits_eq_if (by decide)]
      by_cases hsmall : n < 10
      · have hdigit : ∀ n < 10, 0 < n → [n.digitChar].head? ≠ some '0' := by decide
        rw [if_pos hsmall]
        exact hdigit n hsmall h
      · have hhead := ih (n / 10) (by omega) (by omega)
        rw [if_neg hsmall, List.head?_append]
        cases hds : (Nat.toDigits 10 (n / 10)).head? with
        | none => exact absurd (List.head?_eq_none_iff.1 hds) Nat.toDigits_ne_nil
        | some d => rwa [hds] at hhead

theorem isDigit_toDigits : ∀ d ∈ Nat.toDigits 10 n, d.isDigit = true := fun _ hd =>
  Nat.isDigit_of_mem_toDigits (by decide) (by decide) hd

theorem numberOf_toDigits : numberOf 10 (Nat.toDigits 10 n) = n := by
  calc numberOf 10 (Nat.toDigits 10 n)
    _ = Nat.ofDigitChars 10 (Nat.toDigits 10 n) 0 := by
      rw [Nat.ofDigitChars_eq_foldl]
      refine List.foldl_ext _ _ _ fun value d hd => ?_
      rw [hexValue?, if_pos (isDigit_toDigits d hd), Nat.mul_comm]
      rfl
    _ = n := Nat.ofDigitChars_ten_toDigits

theorem decimal?_toDigits : decimal? (Nat.toDigits 10 n) = some (Nat.toDigits 10 n) := by
  have hpieces : Text.pieces (· == '_') (Nat.toDigits 10 n) = [Nat.toDigits 10 n] := by
    refine Text.pieces_joinPieces (List.cons_ne_nil _ []) ?_
    rintro _ (_ | ⟨_, ⟨⟩⟩) d hd
    rw [beq_eq_false_iff_ne]
    rintro rfl
    exact absurd (isDigit_toDigits _ hd) (by decide)
  have hdigits : digits? Char.isDigit (Nat.toDigits 10 n) = some (Nat.toDigits 10 n) := by
    rw [digits?, hpieces, if_pos]
    · simp
    · simpa using isDigit_toDigits
  rw [decimal?, hdigits]
  split
  · next heq =>
      have hhead : n = 0 := Nat.eq_zero_of_not_pos fun h => head?_toDigits h (by rw [Option.some.inj heq]; rfl)
      rw [hhead] at heq
      cases heq
  · rfl

theorem bareValue?_toDigits (h : n < integerBound) : bareValue? (Nat.toDigits 10 n) = some (.integer n) := by
  have hinteger : integer? n = some (.integer n) := by
    rw [integer?, if_pos]
    exact ⟨by omega, Int.ofNat_lt.2 h⟩
  have hunsigned : unsigned? false (Nat.toDigits 10 n) = some (.integer n) := by
    rw [unsigned?, decimal?_toDigits]
    simpa [numberOf_toDigits] using hinteger
  have hother {c : Char} {cs : List Char} (hc : c.isDigit = false) (hmem : c ∈ cs) : Nat.toDigits 10 n ≠ cs := by
    rintro rfl
    rw [isDigit_toDigits c hmem] at hc
    cases hc
  have htrue : Nat.toDigits 10 n ≠ "true".toList := hother (c := 't') rfl (by simp)
  have hfalse : Nat.toDigits 10 n ≠ "false".toList := hother (c := 'f') rfl (by simp)
  rw [bareValue?.eq_def, if_neg htrue, if_neg hfalse]
  split
  · next heq => exact (hother (c := 'x') rfl (by simp) heq).elim
  · next heq => exact (hother (c := 'o') rfl (by simp) heq).elim
  · next heq => exact (hother (c := 'b') rfl (by simp) heq).elim
  · next heq => exact (hother (c := '+') rfl (by simp) heq).elim
  · next heq => exact (hother (c := '-') rfl (by simp) heq).elim
  · exact hunsigned

/-! ### Values -/

theorem ne_cons {p : Char → Bool} {c x : Char} (hc : p c = true) (hx : p x = false) (cs xs : List Char) :
    c :: cs ≠ x :: xs := by
  rintro ⟨⟩
  rw [hc] at hx
  cases hx

/-- A word without quotes that is no date. -/
theorem readValue_word {word : List Char} {v : Value} (hne : word ≠ [])
    (hword : ∀ c ∈ word, isBareValueChar c = true) (hdate : skipDate (word ++ '\n' :: rest) = none)
    (h : bareValue? word = some v) :
    readValue (fuel + 1) depth (word ++ '\n' :: rest) = some (v, '\n' :: rest) := by
  have htake : (word ++ '\n' :: rest).takeWhile isBareValueChar = word :=
    takeWhile_append_of_head hword (by simp; decide)
  obtain ⟨c, word, rfl⟩ := List.exists_cons_of_ne_nil hne
  have hc := hword c List.mem_cons_self
  rw [List.cons_append] at hdate htake ⊢
  have hother {x : Char} {xs : List Char} (hx : isBareValueChar x = false) := ne_cons hc hx (word ++ '\n' :: rest) xs
  rw [readValue, hdate]
  · simp only [htake, h]
    simp
  · exact fun _ => hother (x := '"') rfl
  · exact fun _ => hother (x := '\'') rfl
  · exact fun _ heq _ => hother (x := '[') rfl heq
  · exact fun _ heq _ => hother (x := '\x7b') rfl heq
  · exact fun _ _ heq _ => hother (x := '[') rfl heq
  · exact fun _ _ heq _ => hother (x := '\x7b') rfl heq

theorem readValue_number (h : n < integerBound) :
    readValue (fuel + 1) depth ((toString n).toList ++ '\n' :: rest) = some (.integer n, '\n' :: rest) := by
  rw [Nat.toString_eq_ofList_toDigits, String.toList_ofList]
  refine readValue_word Nat.toDigits_ne_nil (fun c hc => ?_) ?_ (bareValue?_toDigits h)
  · simp [isBareValueChar, Char.isAlphanum, isDigit_toDigits c hc]
  · exact DigitsToBreak.skipDate_eq ⟨_, _, rfl, isDigit_toDigits⟩

theorem skipDate_of_head {c : Char} (hc : c.isDigit = false) : skipDate (c :: cs) = none := by
  have hread (least most : Nat) : readTwoDigits least most (c :: cs) = none := by
    cases cs with
    | nil => rfl
    | cons d cs => simp [Reader.readTwoDigits, hc]
  have hday : skipDay (c :: cs) = none := by
    rw [skipDay, hread]
    rfl
  rw [skipDate, hday]
  dsimp only
  rw [skipTime, hread]
  rfl

theorem readValue_truth (b : Bool) :
    readValue (fuel + 1) depth ((if b then "true" else "false").toList ++ '\n' :: rest) =
      some (.truth b, '\n' :: rest) := by
  cases b with
  | false => exact readValue_word (by decide) (by simp [isBareValueChar]) (skipDate_of_head rfl) rfl
  | true => exact readValue_word (by decide) (by simp [isBareValueChar]) (skipDate_of_head rfl) rfl

theorem head?_of_readString (h : readString cs = some (s, rest)) : cs.head? = some '"' ∨ cs.head? = some '\'' := by
  unfold readString at h
  split at h
  · exact .inl rfl
  · exact .inr rfl
  · exact .inl rfl
  · exact .inr rfl
  · cases h

theorem readValue_text (h : readString cs = some (s, rest)) :
    readValue (fuel + 1) depth cs = some (.text s, rest) := by
  obtain hhead | hhead := head?_of_readString h
  all_goals
    obtain ⟨cs, rfl⟩ := List.head?_eq_some_iff.1 hhead
    rw [readValue, h]
    rfl

theorem skipFiller_of_readString (h : readString cs = some (s, rest)) : skipFiller false cs = some cs := by
  obtain hhead | hhead := head?_of_readString h
  all_goals
    obtain ⟨cs, rfl⟩ := List.head?_eq_some_iff.1 hhead
    rfl

theorem skipFiller_space (cs : List Char) : skipFiller false (' ' :: cs) = skipFiller false cs := rfl

theorem readItems_break : readItems fuel depth ('\n' :: cs) = readItems fuel depth cs := by
  cases fuel with
  | zero => rfl
  | succ fuel =>
      rw [readItems.eq_def, readItems.eq_def]
      rfl

/-- An item that is a string. -/
theorem readItems_of_readString (hskip : skipFiller false cs = some more) (h : readString more = some (s, rest)) :
    readItems (fuel + 2) depth cs = match skipFiller false rest with
      | some (',' :: rest) => (readItems (fuel + 1) depth rest).map fun (vs, rest) => (.text s :: vs, rest)
      | some (']' :: rest) => some ([.text s], rest)
      | _ => none := by
  have hhead := head?_of_readString h
  rw [readItems, hskip]
  split
  · next heq => cases heq
  · next heq =>
      cases heq
      simp at hhead
  · next heq =>
      cases heq
      rewrite [readValue_text h]
      rfl

/-- The items of a list, each of which is on a line of its own and followed by a comma. -/
theorem readItems_lines (h : ss.length < fuel) :
    readItems fuel depth ((String.join (ss.map fun s => "    " ++ Printer.string s ++ ",\n")).toList ++ ']' :: rest) =
      some (ss.map .text, rest) := by
  induction ss generalizing fuel with
  | nil =>
      obtain ⟨fuel, rfl⟩ := Nat.exists_eq_add_of_lt h
      rfl
  | cons s ss ih =>
      rw [List.length_cons] at h
      obtain ⟨fuel, rfl⟩ : ∃ n, fuel = n + 2 := ⟨fuel - 2, by omega⟩
      have htext : (String.join ((s :: ss).map fun s => "    " ++ Printer.string s ++ ",\n")).toList ++ ']' :: rest =
          ' ' :: ' ' :: ' ' :: ' ' :: ((Printer.string s).toList ++ ',' :: '\n' ::
            ((String.join (ss.map fun s => "    " ++ Printer.string s ++ ",\n")).toList ++ ']' :: rest)) := by simp
      have hmore := @ih (fuel + 1) (by omega)
      generalize (String.join (ss.map fun s => "    " ++ Printer.string s ++ ",\n")).toList ++ ']' :: rest = more
        at hmore htext
      have hread := @readString_string (',' :: '\n' :: more) s (by simp) (by simp)
      have hskip : skipFiller false (' ' :: ' ' :: ' ' :: ' ' :: ((Printer.string s).toList ++ ',' :: '\n' :: more)) =
          some ((Printer.string s).toList ++ ',' :: '\n' :: more) := by
        rw [skipFiller_space, skipFiller_space, skipFiller_space, skipFiller_space, skipFiller_of_readString hread]
      rw [htext, readItems_of_readString hskip hread]
      change (readItems (fuel + 1) depth ('\n' :: more)).map _ = _
      rw [readItems_break, hmore]
      rfl

theorem length_le_lines (ss : List String) :
    ss.length ≤ (String.join (ss.map fun s => "    " ++ Printer.string s ++ ",\n")).toList.length := by
  induction ss with
  | nil => exact Nat.zero_le _
  | cons s ss ih =>
      simp at ih ⊢
      omega

theorem readValue_texts (h : (Printer.strings ss).toList.length < fuel) :
    readValue fuel (depth + 1) ((Printer.strings ss).toList ++ rest) = some (.list (ss.map .text), rest) := by
  obtain ⟨fuel, rfl⟩ : ∃ n, fuel = n + 1 := ⟨fuel - 1, by omega⟩
  match ss with
  | [] =>
      obtain ⟨fuel, rfl⟩ : ∃ n, fuel = n + 1 := ⟨fuel - 1, by simp [strings] at h; omega⟩
      rfl
  | [s] =>
      obtain ⟨fuel, rfl⟩ : ∃ n, fuel = n + 2 := ⟨fuel - 2, by simp [strings] at h; omega⟩
      have htext : (Printer.strings [s]).toList ++ rest = '[' :: ((Printer.string s).toList ++ ']' :: rest) := by
        simp [strings]
      have hread := @readString_string (']' :: rest) s (by simp) (by simp)
      rw [htext, readValue, readItems_of_readString (skipFiller_of_readString hread) hread]
      rfl
  | s :: t :: ss =>
      have htext : (Printer.strings (s :: t :: ss)).toList = '[' :: '\n' ::
          ((String.join ((s :: t :: ss).map fun s => "    " ++ Printer.string s ++ ",\n")).toList ++ [']']) := by
        simp [strings]
      have hlength := length_le_lines (s :: t :: ss)
      rw [htext, List.length_cons, List.length_cons, List.length_append] at h
      rw [htext, List.cons_append, List.cons_append, List.append_assoc, readValue, readItems_break,
        List.singleton_append, readItems_lines (by omega)]
      rfl

theorem readValue_render (f : Field) (hf : f.IsReadable) (h : f.render.toList.length < fuel) (rest : List Char) :
    readValue fuel (depth + 1) (f.render.toList ++ '\n' :: rest) = some (f.value, '\n' :: rest) := by
  obtain ⟨n, rfl⟩ : ∃ n, fuel = n + 1 := ⟨fuel - 1, by omega⟩
  cases f with
  | text s => exact readValue_text (readString_string s (by simp) (by simp))
  | number n => exact readValue_number hf
  | truth b => exact readValue_truth b
  | texts ss => exact readValue_texts h

end CommandShell.Toml
