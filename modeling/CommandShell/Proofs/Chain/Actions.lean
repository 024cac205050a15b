import CommandShell.Proofs.Chain.Pouring

/-!
Whole lists of actions on an output.  Main statement: on an output that goes to a file they all succeed, and
the file takes the text of all of them.
-/

namespace CommandShell

open OutputAction

namespace ChainOutput

/-- Performs actions one after another, up to the first one that fails. -/
def performAll (o : ChainOutput) (w : World) : List OutputAction → Attempt (ChainOutput × World)
  | [] => (.ok (), o, w)
  | action :: rest =>
    match o.perform w action with
    | (.error e, after) => (.error e, after)
    | (.ok (), o, w) => o.performAll w rest

variable {t : Destination} {o p : ChainOutput} {w v : World}

theorem performAll_cons_of_ok {action : OutputAction} (h : o.perform w action = (.ok (), p, v))
    (rest : List OutputAction) : o.performAll w (action :: rest) = p.performAll v rest := by
  rw [performAll, h]

theorem performAll_cons_of_error {action : OutputAction} {e : IoFault}
    (h : o.perform w action = (.error e, p, v)) (rest : List OutputAction) :
    o.performAll w (action :: rest) = (.error e, p, v) := by
  rw [performAll, h]

theorem performAll_append_of_ok {first : List OutputAction} (h : o.performAll w first = (.ok (), p, v))
    (rest : List OutputAction) : o.performAll w (first ++ rest) = p.performAll v rest := by
  induction first generalizing o w with
  | nil => cases h; rfl
  | cons action first ih =>
      rcases hperform : o.perform w action with ⟨e | _, q, u⟩
      · rw [performAll_cons_of_error hperform] at h
        cases h
      · rw [performAll_cons_of_ok hperform] at h
        rw [List.cons_append, performAll_cons_of_ok hperform, ih h]

theorem poured_performAll {before : List OutputAction} (h : Poured t o w (textOf before) (sinceClear before))
    (actions : List OutputAction) :
    ∃ p v, o.performAll w actions = (.ok (), p, v) ∧
      Poured t p v (textOf (before ++ actions)) (sinceClear (before ++ actions)) := by
  induction actions generalizing before o w with
  | nil => exact ⟨o, w, rfl, by rwa [List.append_nil]⟩
  | cons action rest ih =>
      obtain ⟨q, u, hperform, hq, -⟩ := poured_perform h action
      obtain ⟨p, v, hrest, hp⟩ := ih hq
      rw [List.append_assoc, List.singleton_append] at hp
      exact ⟨p, v, (performAll_cons_of_ok hperform rest).trans hrest, hp⟩

end ChainOutput

end CommandShell
