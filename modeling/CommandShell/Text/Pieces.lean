/-!
A list cut at its separators.  Main statements: joining the pieces with the separator gives the list
back, and pieces without separators come back from a list that is joined from them.
-/

namespace CommandShell.Text

variable {α : Type}

/-- Adds an element to the first of some lists. -/
def consHead (a : α) : List (List α) → List (List α)
  | [] => [[a]]
  | p :: ps => (a :: p) :: ps

/-- The parts of a list between the elements on which `p` holds, empty ones included. -/
def pieces (p : α → Bool) : List α → List (List α)
  | [] => [[]]
  | a :: as => if p a then [] :: pieces p as else consHead a (pieces p as)

/-- The lists one after another with `sep` between them. -/
def joinPieces (sep : List α) : List (List α) → List α
  | [] => []
  | [p] => p
  | p :: q :: ps => p ++ sep ++ joinPieces sep (q :: ps)

theorem pieces_ne_nil (p : α → Bool) (as : List α) : pieces p as ≠ [] := by
  cases as with
  | nil => simp [pieces]
  | cons a as => simp only [pieces]; split <;> (try cases pieces p as) <;> simp [consHead]

theorem joinPieces_consHead (sep : List α) (a : α) {ps : List (List α)} (h : ps ≠ []) :
    joinPieces sep (consHead a ps) = a :: joinPieces sep ps := by
  match ps with
  | [] => exact absurd rfl h
  | [_] | _ :: _ :: _ => simp [consHead, joinPieces]

theorem joinPieces_pieces [BEq α] [LawfulBEq α] (c : α) (as : List α) :
    joinPieces [c] (pieces (· == c) as) = as := by
  induction as with
  | nil => rfl
  | cons a as ih =>
    simp only [pieces]
    split
    · next h =>
      rcases hp : pieces (· == c) as with _ | ⟨q, qs⟩
      · exact absurd hp (pieces_ne_nil _ _)
      · rw [hp] at ih
        simp [joinPieces, ih, eq_of_beq h]
    · rw [joinPieces_consHead _ _ (pieces_ne_nil _ _), ih]

theorem mem_pieces {p : α → Bool} {as q : List α} (hq : q ∈ pieces p as) : ∀ a ∈ q, p a = false := by
  induction as generalizing q with
  | nil => simp_all [pieces]
  | cons b as ih =>
    simp only [pieces] at hq
    split at hq
    · rcases List.mem_cons.1 hq with rfl | hq
      · simp
      · exact ih hq
    · next hb =>
      rcases hps : pieces p as with _ | ⟨r, rs⟩
      · exact absurd hps (pieces_ne_nil _ _)
      · rw [hps, consHead] at hq
        rcases List.mem_cons.1 hq with rfl | hq
        · intro a ha
          rcases List.mem_cons.1 ha with rfl | ha
          · simpa using hb
          · exact ih (by simp [hps]) a ha
        · exact ih (by simp [hps, hq])

/-- A piece is the first one if none of its elements is a separator. -/
theorem pieces_append {p : α → Bool} {q : List α} (hq : ∀ a ∈ q, p a = false) (as r : List α)
    (rs : List (List α)) (has : pieces p as = r :: rs) : pieces p (q ++ as) = (q ++ r) :: rs := by
  induction q with
  | nil => exact has
  | cons a q ih =>
    obtain ⟨ha, hq⟩ := List.forall_mem_cons.1 hq
    rw [List.cons_append, pieces, if_neg (by simp [ha]), ih hq]
    rfl

theorem pieces_joinPieces [BEq α] [LawfulBEq α] {c : α} {ps : List (List α)} (hne : ps ≠ [])
    (hps : ∀ p ∈ ps, ∀ a ∈ p, (a == c) = false) : pieces (· == c) (joinPieces [c] ps) = ps := by
  induction ps with
  | nil => exact absurd rfl hne
  | cons p ps ih =>
    obtain ⟨hp, hps⟩ := List.forall_mem_cons.1 hps
    cases ps with
    | nil => simpa [joinPieces] using pieces_append hp [] [] [] rfl
    | cons q ps =>
      have hcut : pieces (· == c) (c :: joinPieces [c] (q :: ps)) = [] :: q :: ps := by
        rw [pieces, if_pos (by simp), ih (by simp) hps]
      rw [joinPieces, List.append_assoc, List.singleton_append, pieces_append hp _ _ _ hcut,
        List.append_nil]

end CommandShell.Text
