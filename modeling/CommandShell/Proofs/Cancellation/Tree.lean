import CommandShell.Proofs.Cancellation
import Mathlib.Logic.Relation

/-!
What cancelling does to a tree of tokens.  Main statements: exactly the tokens that callbacks lead to are
cancelled, and each callback of a token that is cancelled runs once.
-/

namespace CommandShell.CancelTree

open Relation

variable {t u : CancelTree} {id j p c : TokenId} {pending : List Callback} {label : String}

/-- A callback of the first token cancels the second one. -/
def Link (t : CancelTree) (p c : TokenId) : Prop :=
  ∃ token, t.get? p = some token ∧ .cancel c ∈ token.callbacks.map (·.2) ∧ (t.get? c).isSome = true

/-- What is linked to a cancelled token is cancelled, or is going to be. -/
def ClosedUpTo (t : CancelTree) (pending : List Callback) : Prop :=
  ∀ p c, t.isCancelled p = true → t.Link p c → t.isCancelled c = true ∨ .cancel c ∈ pending

/-- What is linked to a cancelled token is cancelled. -/
def Closed (t : CancelTree) : Prop := ∀ p c, t.isCancelled p = true → t.Link p c → t.isCancelled c = true

/-- How many callbacks of a label belong to tokens that are not cancelled. -/
def waiting (t : CancelTree) (label : String) : Nat :=
  ((t.tokens.filter (!·.cancelled)).flatMap fun token => token.callbacks.map (·.2)).count (.notify label)

theorem id_of_get? {token : CancelToken} (h : t.get? id = some token) : token.id = id := by
  simpa using List.find?_some h

theorem isCancelled_eq_true_iff :
    t.isCancelled j = true ↔ ∃ token, t.get? j = some token ∧ token.cancelled = true := by
  rw [isCancelled]
  cases t.get? j <;> simp

theorem isSome_of_isCancelled (h : t.isCancelled j = true) : (t.get? j).isSome = true := by
  obtain ⟨token, hget, -⟩ := isCancelled_eq_true_iff.1 h
  rw [hget]
  rfl

/-- Nothing can be reached from a token that is missing. -/
theorem isSome_of_reach (h : ReflTransGen t.Link id j) (hj : (t.get? j).isSome = true) :
    (t.get? id).isSome = true := by
  rcases h.cases_head with rfl | ⟨c, ⟨token, hget, -⟩, -⟩
  · exact hj
  · rw [hget]
    rfl

/-- Two trees that differ in what is cancelled only. -/
structure Alike (t u : CancelTree) : Prop where
  next : u.next = t.next
  tokens : u.tokens.map (fun token => { token with cancelled := false }) =
    t.tokens.map fun token => { token with cancelled := false }

namespace Alike

theorem refl (t : CancelTree) : t.Alike t := ⟨rfl, rfl⟩

theorem trans {v : CancelTree} (h : t.Alike u) (h' : u.Alike v) : t.Alike v :=
  ⟨h'.next.trans h.next, h'.tokens.trans h.tokens⟩

theorem ids (h : t.Alike u) : u.tokens.map (·.id) = t.tokens.map (·.id) := by
  simpa [Function.comp_def] using congrArg (List.map CancelToken.id) h.tokens

theorem get? (h : t.Alike u) (j : TokenId) :
    (u.get? j).map (fun token => { token with cancelled := false }) =
      (t.get? j).map fun token => { token with cancelled := false } := by
  have hfind (v : CancelTree) : (v.get? j).map (fun token => { token with cancelled := false }) =
      (v.tokens.map fun token => { token with cancelled := false }).find? (·.id == j) := by
    rw [List.find?_map]
    rfl
  rw [hfind, hfind, h.tokens]

theorem isSome_get? (h : t.Alike u) (j : TokenId) : (u.get? j).isSome = (t.get? j).isSome := by
  simpa using congrArg Option.isSome (h.get? j)

theorem link_iff (h : t.Alike u) : u.Link p c ↔ t.Link p c := by
  have hcallbacks (v : CancelTree) : (∃ token, v.get? p = some token ∧ .cancel c ∈ token.callbacks.map (·.2)) ↔
      ∃ token, (v.get? p).map (fun token => { token with cancelled := false }) = some token ∧
        .cancel c ∈ token.callbacks.map (·.2) := by
    cases v.get? p <;> simp
  simp only [Link, ← and_assoc, exists_and_right, hcallbacks, h.get?, h.isSome_get?]

end Alike

theorem alike_mark (t : CancelTree) (id : TokenId) : t.Alike (t.mark id) := by
  refine ⟨rfl, ?_⟩
  rw [mark, update, List.map_map]
  refine List.map_congr_left fun token _ => ?_
  by_cases h : token.id = id <;> simp [h]

theorem alike_runAll (t : CancelTree) (pending : List Callback) : t.Alike (t.runAll pending).1 := by
  induction t, pending using runAll_induction with
  | nil t => exact .refl t
  | notify t label rest ih => exact ih
  | skip t id rest _ ih => exact ih
  | mark t id token rest _ _ ih => exact (alike_mark t id).trans ih

section Reach

theorem isCancelled_mark (h : (t.get? id).isSome = true) :
    (t.mark id).isCancelled j = true ↔ t.isCancelled j = true ∨ j = id := by
  simp only [isCancelled_eq_true_iff, get?_mark, Option.map_eq_some_iff]
  constructor
  · rintro ⟨_, ⟨token, hget, rfl⟩, hcancelled⟩
    split at hcancelled
    · next hid => exact .inr ((id_of_get? hget).symm.trans hid)
    · exact .inl ⟨token, hget, hcancelled⟩
  · rintro (⟨token, hget, hcancelled⟩ | rfl)
    · exact ⟨_, ⟨token, hget, rfl⟩, by split <;> simp [hcancelled]⟩
    · obtain ⟨token, hget⟩ := Option.isSome_iff_exists.1 h
      exact ⟨_, ⟨token, hget, rfl⟩, by rw [if_pos (id_of_get? hget)]⟩

/-- Only what the callbacks lead to is cancelled. -/
theorem reached_of_runAll (h : (t.runAll pending).1.isCancelled j = true) :
    t.isCancelled j = true ∨ ∃ id, .cancel id ∈ pending ∧ ReflTransGen t.Link id j := by
  induction t, pending using runAll_induction with
  | nil t => exact .inl h
  | notify t label rest ih =>
      refine (ih h).imp_right ?_
      rintro ⟨id, hid, hreach⟩
      exact ⟨id, List.mem_cons_of_mem _ hid, hreach⟩
  | skip t id rest _ ih =>
      refine (ih h).imp_right ?_
      rintro ⟨i, hi, hreach⟩
      exact ⟨i, List.mem_cons_of_mem _ hi, hreach⟩
  | mark t id token rest hget _ ih =>
      have hlink : (t.mark id).Link = t.Link := by
        funext p c
        exact propext (alike_mark t id).link_iff
      rcases ih h with hmarked | ⟨i, hi, hreach⟩
      · rcases (isCancelled_mark (by rw [hget]; rfl)).1 hmarked with hold | rfl
        · exact .inl hold
        · exact .inr ⟨j, List.mem_cons_self, .refl⟩
      · rw [hlink] at hreach
        have hj : (t.get? j).isSome = true := by
          rw [← ((alike_mark t id).trans (alike_runAll _ _)).isSome_get?]
          exact isSome_of_isCancelled h
        rcases List.mem_append.1 hi with hi | hi
        · exact .inr ⟨id, List.mem_cons_self, .head ⟨token, hget, hi, isSome_of_reach hreach hj⟩ hreach⟩
        · exact .inr ⟨i, List.mem_cons_of_mem _ hi, hreach⟩

theorem isCancelled_of_mem (hmem : .cancel id ∈ pending) (hid : (t.get? id).isSome = true) :
    (t.runAll pending).1.isCancelled id = true := by
  induction t, pending using runAll_induction with
  | nil t => cases hmem
  | notify t label rest ih => exact ih (by simpa using hmem) hid
  | skip t i rest hcancelled ih =>
      rcases List.mem_cons.1 hmem with heq | hmem
      · cases heq
        obtain ⟨token, hget⟩ := Option.isSome_iff_exists.1 hid
        exact later_runAll t rest id (isCancelled_eq_true_iff.2 ⟨token, hget, hcancelled token hget⟩)
      · exact ih hmem hid
  | mark t i token rest hget _ ih =>
      rcases List.mem_cons.1 hmem with heq | hmem
      · cases heq
        exact later_runAll _ _ id ((isCancelled_mark hid).2 (.inr rfl))
      · refine ih (List.mem_append_right _ hmem) ?_
        rwa [(alike_mark t i).isSome_get?]

theorem closed_runAll (h : t.ClosedUpTo pending) : (t.runAll pending).1.Closed := by
  induction t, pending using runAll_induction with
  | nil t => exact fun p c hp hlink => (h p c hp hlink).resolve_right List.not_mem_nil
  | notify t label rest ih => exact ih fun p c hp hlink => (h p c hp hlink).imp_right fun hmem => by simpa using hmem
  | skip t id rest hcancelled ih =>
      refine ih fun p c hp hlink => ?_
      rcases h p c hp hlink with hc | hmem
      · exact .inl hc
      · rcases List.mem_cons.1 hmem with heq | hmem
        · cases heq
          obtain ⟨_, -, -, hsome⟩ := hlink
          obtain ⟨token, hget⟩ := Option.isSome_iff_exists.1 hsome
          exact .inl (isCancelled_eq_true_iff.2 ⟨token, hget, hcancelled token hget⟩)
        · exact .inr hmem
  | mark t id token rest hget _ ih =>
      have hid : (t.get? id).isSome = true := by rw [hget]; rfl
      refine ih fun p c hp hlink => ?_
      rw [isCancelled_mark hid] at hp ⊢
      rw [(alike_mark t id).link_iff] at hlink
      rcases hp with hp | rfl
      · rcases h p c hp hlink with hc | hmem
        · exact .inl (.inl hc)
        · rcases List.mem_cons.1 hmem with heq | hmem
          · cases heq
            exact .inl (.inr rfl)
          · exact .inr (List.mem_append_right _ hmem)
      · obtain ⟨token', hget', hmem, -⟩ := hlink
        cases hget.symm.trans hget'
        exact .inr (List.mem_append_left _ hmem)

theorem Closed.upTo (h : t.Closed) (pending : List Callback) : t.ClosedUpTo pending :=
  fun p c hp hlink => .inl (h p c hp hlink)

theorem Closed.of_reach (h : t.Closed) (hid : t.isCancelled id = true) (hreach : ReflTransGen t.Link id j) :
    t.isCancelled j = true := by
  induction hreach with
  | refl => exact hid
  | tail _ hlink ih => exact h _ _ ih hlink

/-- Running callbacks cancels exactly the tokens that they lead to. -/
theorem isCancelled_runAll_iff (h : t.ClosedUpTo pending) (hj : (t.get? j).isSome = true) :
    (t.runAll pending).1.isCancelled j = true ↔
      t.isCancelled j = true ∨ ∃ id, .cancel id ∈ pending ∧ ReflTransGen t.Link id j := by
  refine ⟨reached_of_runAll, ?_⟩
  rintro (hold | ⟨id, hid, hreach⟩)
  · exact later_runAll t pending j hold
  · refine (closed_runAll h).of_reach (isCancelled_of_mem hid (isSome_of_reach hreach hj)) ?_
    exact ReflTransGen.mono (fun p c hlink => (alike_runAll t pending).link_iff.2 hlink) _ _ hreach

end Reach

theorem waiting_mark {token : CancelToken} (hids : (t.tokens.map (·.id)).Nodup) (hget : t.get? id = some token)
    (hlive : token.cancelled = false) :
    (t.mark id).waiting label + (token.callbacks.map (·.2)).count (.notify label) = t.waiting label := by
  obtain ⟨hid, before, after, heq, -⟩ := List.find?_eq_some_iff_append.1 hget
  have hid : token.id = id := by simpa using hid
  have hother : ∀ other ∈ before ++ after, other.id ≠ id := by
    rw [heq, (List.perm_middle.map _).nodup_iff, List.map_cons, List.nodup_cons] at hids
    exact fun other hother hsame => hids.1 (List.mem_map.2 ⟨other, hother, hsame.trans hid.symm⟩)
  have hkeep : ∀ others : List CancelToken, (∀ other ∈ others, other.id ≠ id) →
      others.map (fun other => if other.id = id then { other with cancelled := true } else other) = others := by
    intro others hothers
    refine (List.map_congr_left fun other hother => ?_).trans (List.map_id others)
    exact if_neg (hothers other hother)
  have hbefore := hkeep before fun other h => hother other (List.mem_append_left _ h)
  have hafter := hkeep after fun other h => hother other (List.mem_append_right _ h)
  rw [waiting, waiting, mark, update, heq]
  simp only [List.map_append, List.map_cons, hbefore, hafter, if_pos hid, List.filter_append, List.filter_cons,
    hlive, List.flatMap_append, List.count_append]
  simp
  omega

/-- A callback that is notified has waited before, or was to be run. -/
theorem count_runAll (hids : (t.tokens.map (·.id)).Nodup) :
    (t.runAll pending).2.count label + (t.runAll pending).1.waiting label =
      pending.count (.notify label) + t.waiting label := by
  induction t, pending using runAll_induction with
  | nil t => simp
  | notify t l rest ih =>
      have hcount := ih hids
      rw [List.count_cons, List.count_cons]
      by_cases hl : l = label
      · simp only [hl, beq_self_eq_true, if_true]
        omega
      · simp only [beq_iff_eq, hl, Callback.notify.injEq, if_false]
        omega
  | skip t id rest _ ih =>
      rw [ih hids, List.count_cons_of_ne (by simp)]
  | mark t id token rest hget hlive ih =>
      have hcount := ih ((alike_mark t id).ids ▸ hids)
      have hwaiting : (t.mark id).waiting label + _ = t.waiting label := waiting_mark hids hget hlive
      rw [List.count_append] at hcount
      rw [List.count_cons_of_ne (by simp)]
      omega

end CommandShell.CancelTree
