import CommandShell.Cancellation

/-!
A token that is cancelled stays so, whatever else is cancelled.
-/

namespace CommandShell

namespace CancelTree

/-- The second tree is the first one at a later time: what is cancelled stays so. -/
def Later (t u : CancelTree) : Prop := ∀ j, t.isCancelled j = true → u.isCancelled j = true

variable {t u v : CancelTree} {id j : TokenId}

theorem Later.refl (t : CancelTree) : t.Later t := fun _ h => h

theorem Later.trans (h : t.Later u) (h' : u.Later v) : t.Later v := fun j hj => h' j (h j hj)

theorem get?_update (t : CancelTree) (id j : TokenId) (change : CancelToken → CancelToken)
    (hid : ∀ token, (change token).id = token.id) : (t.update id change).get? j =
      (t.get? j).map fun token => if token.id = id then change token else token := by
  have hsame : ((·.id == j) ∘ fun token : CancelToken => if token.id = id then change token else token) =
      (·.id == j) := by
    funext token
    by_cases h : token.id = id
    · simp [h, hid]
    · simp [h]
  simp only [get?, update, List.find?_map, hsame]

theorem get?_mark (t : CancelTree) (id j : TokenId) : (t.mark id).get? j =
    (t.get? j).map fun token => if token.id = id then { token with cancelled := true } else token :=
  get?_update t id j (fun token => { token with cancelled := true }) fun _ => rfl

theorem later_mark (t : CancelTree) (id : TokenId) : t.Later (t.mark id) := by
  intro j h
  rw [isCancelled] at h ⊢
  rw [get?_mark]
  rcases hj : t.get? j with _ | token
  · simp [hj] at h
  · rw [hj] at h
    by_cases hid : token.id = id
    · simp [hid]
    · simpa [hid] using h

theorem runAll_skip {rest : List Callback} (h : ∀ token, t.get? id = some token → token.cancelled = true) :
    t.runAll (.cancel id :: rest) = t.runAll rest := by
  rw [runAll]
  split
  · rfl
  · next token hget => rw [dif_pos (h token hget)]

theorem runAll_mark {token : CancelToken} {rest : List Callback} (hget : t.get? id = some token)
    (hlive : token.cancelled = false) :
    t.runAll (.cancel id :: rest) = (t.mark id).runAll (token.callbacks.map (·.2) ++ rest) := by
  rw [runAll]
  split
  · next hnone => cases hget.symm.trans hnone
  · next other hother =>
      cases hget.symm.trans hother
      rw [dif_neg (Bool.eq_false_iff.1 hlive)]

/-- Running callbacks step by step: a token that is missing or cancelled is passed over, another one is
marked and its callbacks come next. -/
@[elab_as_elim]
theorem runAll_induction {motive : CancelTree → List Callback → CancelTree × List String → Prop}
    (nil : ∀ t, motive t [] (t, []))
    (notify : ∀ t label rest, motive t rest (t.runAll rest) →
      motive t (.notify label :: rest) ((t.runAll rest).1, label :: (t.runAll rest).2))
    (skip : ∀ t id rest, (∀ token, t.get? id = some token → token.cancelled = true) →
      motive t rest (t.runAll rest) → motive t (.cancel id :: rest) (t.runAll rest))
    (mark : ∀ t id token rest, t.get? id = some token → token.cancelled = false →
      motive (t.mark id) (token.callbacks.map (·.2) ++ rest)
        ((t.mark id).runAll (token.callbacks.map (·.2) ++ rest)) →
      motive t (.cancel id :: rest) ((t.mark id).runAll (token.callbacks.map (·.2) ++ rest)))
    (t : CancelTree) (pending : List Callback) : motive t pending (t.runAll pending) := by
  induction t, pending using runAll.induct with
  | case1 t =>
      rw [runAll]
      exact nil t
  | case2 t label rest _ _ _ ih =>
      rw [runAll]
      exact notify t label rest ih
  | case3 t id rest hnone ih =>
      have hskip : ∀ token, t.get? id = some token → token.cancelled = true :=
        fun token hget => nomatch hnone.symm.trans hget
      rw [runAll_skip hskip]
      exact skip t id rest hskip ih
  | case4 t id rest token hget hcancelled ih =>
      have hskip : ∀ other, t.get? id = some other → other.cancelled = true := by
        intro other hother
        cases hget.symm.trans hother
        exact hcancelled
      rw [runAll_skip hskip]
      exact skip t id rest hskip ih
  | case5 t id rest token hget hcancelled ih =>
      have hlive : token.cancelled = false := by simpa using hcancelled
      rw [runAll_mark hget hlive]
      exact mark t id token rest hget hlive ih

theorem later_runAll (t : CancelTree) (pending : List Callback) : t.Later (t.runAll pending).1 := by
  induction t, pending using runAll_induction with
  | nil t => exact .refl t
  | notify t label rest ih => exact ih
  | skip t id rest _ ih => exact ih
  | mark t id token rest _ _ ih => exact (later_mark t id).trans ih

theorem later_cancel (t : CancelTree) (id : TokenId) : t.Later (t.cancel id).1 := later_runAll t _

end CancelTree

end CommandShell
