import CommandShell.Proofs.Cancellation.Tree
import CommandShell.Proofs.Lists
import Mathlib.Data.List.Perm.Basic

/-!
What is registered with the tokens of a tree, as seen by those who hold the guards.  Main statements: the
callbacks of a token stay those whose guards are held, and a callback that is registered late runs at once.
-/

namespace CommandShell

def Callback.label? : Callback → Option String
  | notify label => some label
  | cancel _ => none

def Callback.child? : Callback → Option TokenId
  | cancel child => some child
  | notify _ => none

/-- A callback that has been registered, and what keeps it so. -/
structure Registration where
  token : TokenId
  callback : Callback
  guard : Guard
  held : Bool := true

namespace Registration

/-- The registration after a guard has been let go. -/
def letGo (g : Guard) (r : Registration) : Registration := if r.guard = g then { r with held := false } else r

variable (g : Guard) (r : Registration)

@[simp] theorem token_letGo : (r.letGo g).token = r.token := by
  rw [letGo]
  split <;> rfl

@[simp] theorem callback_letGo : (r.letGo g).callback = r.callback := by
  rw [letGo]
  split <;> rfl

@[simp] theorem guard_letGo : (r.letGo g).guard = r.guard := by
  rw [letGo]
  split <;> rfl

@[simp] theorem held_letGo : (r.letGo g).held = (r.guard != g && r.held) := by
  rw [letGo]
  split
  · next h => simp [h]
  · next h => simp [h]

end Registration

/-- The registrations with a token whose guards are held. -/
def heldBy (rs : List Registration) (j : TokenId) : List Registration := rs.filter fun r => r.held && r.token == j

/-- The second token is a child of the first one, and the guard of it is held. -/
def Linked (rs : List Registration) (p c : TokenId) : Prop :=
  ∃ r ∈ rs, r.held = true ∧ r.token = p ∧ r.callback = .cancel c

/-- The second token is a child of the first one. -/
def Born (rs : List Registration) (p c : TokenId) : Prop := ∃ r ∈ rs, r.token = p ∧ r.callback = .cancel c

/-- The registrations are those with the tokens of the tree, in order. -/
structure Listed (t : CancelTree) (rs : List Registration) : Prop where
  ids : t.tokens.map (·.id) = List.range t.next
  callbacks : ∀ j token, t.get? j = some token →
    token.callbacks = (heldBy rs j).map fun r => (r.guard.callback, r.callback)
  fresh : ∀ j token, t.get? j = some token → ∀ r ∈ rs, r.token = j → r.guard.callback < token.nextCallback
  guard : ∀ r ∈ rs, r.guard.token = r.token ∧ r.token < t.next
  once : (rs.map (·.guard)).Nodup
  child : ∀ r ∈ rs, ∀ c, r.callback = .cancel c → r.token < c ∧ c < t.next
  parent : (rs.filterMap (·.callback.child?)).Nodup

/-- The token with one more callback. -/
def CancelToken.enrolled (callback : Callback) (token : CancelToken) : CancelToken :=
  { token with
    callbacks := token.callbacks ++ [(token.nextCallback, callback)]
    nextCallback := token.nextCallback + 1 }

/-- The token without the callback of a number. -/
def CancelToken.released (number : Nat) (token : CancelToken) : CancelToken :=
  { token with callbacks := token.callbacks.filter (·.1 != number) }

namespace CancelTree

variable {t u : CancelTree} {id j p c : TokenId} {callback : Callback}

def enrolled (t : CancelTree) (id : TokenId) (callback : Callback) : CancelTree :=
  t.update id (CancelToken.enrolled callback)

theorem register_eq {token : CancelToken} (h : t.get? id = some token) (callback : Callback) :
    t.register id callback = (⟨id, token.nextCallback⟩,
      if token.cancelled then (t.enrolled id callback).runAll [callback] else (t.enrolled id callback, [])) := by
  rw [register, h]
  rfl

theorem get?_eq_none_iff (h : t.tokens.map (·.id) = List.range t.next) : t.get? j = none ↔ t.next ≤ j := by
  rw [get?, List.find?_eq_none, ← Nat.not_lt, ← List.mem_range, ← h, List.mem_map]
  simp

theorem get?_new (h : t.get? t.next = none) (j : TokenId) :
    t.new.2.get? j = if j = t.next then some { id := t.next } else t.get? j := by
  rw [get?, new, List.find?_append, ← get?]
  split
  · next hj =>
      rw [hj, h]
      simp
  · next hj =>
      rw [List.find?_cons_of_neg (by simpa using Ne.symm hj)]
      simp

theorem isCancelled_new (h : t.get? t.next = none) (j : TokenId) : t.new.2.isCancelled j = t.isCancelled j := by
  rw [isCancelled, isCancelled, get?_new h]
  by_cases hj : j = t.next
  · rw [if_pos hj, hj, h]
  · rw [if_neg hj]

/-- A change of a token's callbacks cancels nothing. -/
theorem isCancelled_update (change : CancelToken → CancelToken) (hid : ∀ token, (change token).id = token.id)
    (hcancelled : ∀ token, (change token).cancelled = token.cancelled) (t : CancelTree) (id j : TokenId) :
    (t.update id change).isCancelled j = t.isCancelled j := by
  rw [isCancelled, isCancelled, get?_update t id j change hid]
  cases t.get? j with
  | none => rfl
  | some token =>
      rw [Option.map_some]
      dsimp only
      split
      · exact hcancelled token
      · rfl

theorem isCancelled_enrolled (t : CancelTree) (id : TokenId) (callback : Callback) (j : TokenId) :
    (t.enrolled id callback).isCancelled j = t.isCancelled j :=
  isCancelled_update (CancelToken.enrolled callback) (fun _ => rfl) (fun _ => rfl) t id j

theorem isCancelled_release (t : CancelTree) (g : Guard) (j : TokenId) :
    (t.release g).isCancelled j = t.isCancelled j :=
  isCancelled_update (CancelToken.released g.callback) (fun _ => rfl) (fun _ => rfl) t g.token j

theorem next_release (t : CancelTree) (g : Guard) : (t.release g).next = t.next := rfl

theorem get?_enrolled (t : CancelTree) (id : TokenId) (callback : Callback) (j : TokenId) :
    (t.enrolled id callback).get? j =
      (t.get? j).map fun token => if token.id = id then token.enrolled callback else token :=
  get?_update t id j (CancelToken.enrolled callback) fun _ => rfl

theorem get?_release (t : CancelTree) (g : Guard) (j : TokenId) : (t.release g).get? j =
    (t.get? j).map fun token => if token.id = g.token then token.released g.callback else token :=
  get?_update t g.token j (CancelToken.released g.callback) fun _ => rfl

theorem link_of_enrolled (h : (t.enrolled id callback).Link p c) : t.Link p c ∨ p = id ∧ callback = .cancel c := by
  obtain ⟨token, hget, hmem, hc⟩ := h
  rw [get?_enrolled] at hget hc
  rw [Option.isSome_map] at hc
  obtain ⟨old, hold, rfl⟩ := Option.map_eq_some_iff.1 hget
  split at hmem
  · next hid =>
      rw [CancelToken.enrolled, List.map_append] at hmem
      rcases List.mem_append.1 hmem with hmem | hmem
      · exact .inl ⟨old, hold, hmem, hc⟩
      · exact .inr ⟨(id_of_get? hold).symm.trans hid, (List.mem_singleton.1 hmem).symm⟩
  · exact .inl ⟨old, hold, hmem, hc⟩

theorem link_enrolled (hid : (t.get? id).isSome = true) (hc : (t.get? c).isSome = true) :
    (t.enrolled id (.cancel c)).Link id c := by
  obtain ⟨token, hget⟩ := Option.isSome_iff_exists.1 hid
  refine ⟨token.enrolled (.cancel c), ?_, ?_, ?_⟩
  · rw [get?_enrolled, hget, Option.map_some, if_pos (id_of_get? hget)]
  · simp [CancelToken.enrolled]
  · rwa [get?_enrolled, Option.isSome_map]

theorem link_of_release {g : Guard} (h : (t.release g).Link p c) : t.Link p c := by
  obtain ⟨token, hget, hmem, hc⟩ := h
  rw [get?_release] at hget hc
  rw [Option.isSome_map] at hc
  obtain ⟨old, hold, rfl⟩ := Option.map_eq_some_iff.1 hget
  refine ⟨old, hold, ?_, hc⟩
  split at hmem
  · exact (List.filter_sublist.map _).subset hmem
  · exact hmem

theorem closed_release (h : t.Closed) (g : Guard) : (t.release g).Closed := by
  intro p c hp hlink
  rw [isCancelled_release] at hp ⊢
  exact h p c hp (link_of_release hlink)

theorem later_register (t : CancelTree) (id : TokenId) (callback : Callback) :
    t.Later (t.register id callback).2.1 := by
  intro j hj
  rcases hget : t.get? id with _ | token
  · rwa [register, hget]
  · rw [← isCancelled_enrolled t id callback] at hj
    rw [register_eq hget]
    split
    · exact later_runAll _ _ j hj
    · exact hj

theorem later_child (h : t.get? t.next = none) (parent : TokenId) : t.Later (t.child parent).2.2.1 :=
  fun j hj => later_register t.new.2 parent _ j ((isCancelled_new h j).trans hj)

/-- Registering with a token that is cancelled cancels the child at once. -/
theorem closed_register (h : t.Closed) (id : TokenId) (callback : Callback) :
    (t.register id callback).2.1.Closed := by
  have hsame := isCancelled_enrolled t id callback
  rcases hget : t.get? id with _ | token
  · rwa [register, hget]
  · rw [register_eq hget]
    split
    · -- a child that the callback is to cancel is linked already
      refine closed_runAll fun p c hp hlink => ?_
      rw [hsame] at hp ⊢
      rcases link_of_enrolled hlink with hlink | ⟨-, hcallback⟩
      · exact .inl (h p c hp hlink)
      · exact .inr (by rw [← hcallback]; exact List.mem_singleton_self _)
    · next hlive =>
        intro p c hp hlink
        rw [hsame] at hp ⊢
        rcases link_of_enrolled hlink with hlink | ⟨rfl, -⟩
        · exact h p c hp hlink
        · obtain ⟨other, hother, hcancelled⟩ := isCancelled_eq_true_iff.1 hp
          cases hget.symm.trans hother
          exact absurd hcancelled hlive

theorem ids_update (change : CancelToken → CancelToken) (hid : ∀ token, (change token).id = token.id)
    (t : CancelTree) (id : TokenId) : (t.update id change).tokens.map (·.id) = t.tokens.map (·.id) := by
  rw [update, List.map_map]
  refine List.map_congr_left fun token _ => ?_
  rw [Function.comp_apply]
  split
  · exact hid token
  · rfl

theorem Alike.exists_get? {token : CancelToken} (h : t.Alike u) (hget : u.get? j = some token) :
    ∃ old, t.get? j = some old ∧ token.callbacks = old.callbacks ∧ token.nextCallback = old.nextCallback := by
  have heq := h.get? j
  rw [hget, Option.map_some] at heq
  obtain ⟨old, hold, hsame⟩ := Option.map_eq_some_iff.1 heq.symm
  obtain ⟨-, -, hcallbacks, hnext⟩ := CancelToken.mk.inj hsame
  exact ⟨old, hold, hcallbacks.symm, hnext.symm⟩

end CancelTree

namespace Listed

variable {t u : CancelTree} {rs : List Registration} {id j p c : TokenId} {callback : Callback}

theorem isSome_get?_iff (h : Listed t rs) : (t.get? j).isSome = true ↔ j < t.next := by
  rw [Option.isSome_iff_ne_none, Ne, CancelTree.get?_eq_none_iff h.ids, Nat.not_le]

theorem get?_next (h : Listed t rs) : t.get? t.next = none :=
  (CancelTree.get?_eq_none_iff h.ids).2 (Nat.le_refl _)

theorem link_iff (h : Listed t rs) : t.Link p c ↔ Linked rs p c := by
  constructor
  · rintro ⟨token, hget, hmem, -⟩
    rw [h.callbacks p token hget, List.map_map] at hmem
    obtain ⟨r, hr, hcallback⟩ := List.mem_map.1 hmem
    obtain ⟨hr, hheld⟩ := List.mem_filter.1 hr
    rw [Bool.and_eq_true, beq_iff_eq] at hheld
    exact ⟨r, hr, hheld.1, hheld.2, hcallback⟩
  · rintro ⟨r, hr, hheld, rfl, hcallback⟩
    obtain ⟨token, hget⟩ := Option.isSome_iff_exists.1 (h.isSome_get?_iff.2 (h.guard r hr).2)
    refine ⟨token, hget, ?_, h.isSome_get?_iff.2 (h.child r hr c hcallback).2⟩
    rw [h.callbacks _ token hget, List.map_map]
    exact List.mem_map.2 ⟨r, List.mem_filter.2 ⟨hr, by simp [hheld]⟩, hcallback⟩

theorem alike (h : Listed t rs) (halike : t.Alike u) : Listed u rs := by
  refine ⟨by rw [halike.ids, halike.next, h.ids], ?_, ?_, halike.next ▸ h.guard, h.once,
    halike.next ▸ h.child, h.parent⟩
  · intro j token hget
    obtain ⟨old, hold, hcallbacks, -⟩ := halike.exists_get? hget
    rw [hcallbacks, h.callbacks j old hold]
  · intro j token hget
    obtain ⟨old, hold, -, hnext⟩ := halike.exists_get? hget
    rw [hnext]
    exact h.fresh j old hold

theorem new (h : Listed t rs) : Listed t.new.2 rs := by
  have hget := CancelTree.get?_new h.get?_next
  have hlt : ∀ r ∈ rs, r.token ≠ t.next := fun r hr => Nat.ne_of_lt (h.guard r hr).2
  refine ⟨?_, fun j token hj => ?_, fun j token hj r hr htoken => ?_, fun r hr => ?_, h.once, fun r hr c hc => ?_,
    h.parent⟩
  · rw [CancelTree.new, List.map_append, h.ids]
    exact List.range_succ.symm
  · rw [hget] at hj
    split at hj
    · next heq =>
        cases hj
        have hnone : heldBy rs j = [] := List.filter_eq_nil_iff.2 fun r hr => by simp [heq, hlt r hr]
        rw [hnone]
        rfl
    · exact h.callbacks j token hj
  · rw [hget, if_neg (htoken ▸ hlt r hr)] at hj
    exact h.fresh j token hj r hr htoken
  · exact ⟨(h.guard r hr).1, Nat.lt_succ_of_lt (h.guard r hr).2⟩
  · exact ⟨(h.child r hr c hc).1, Nat.lt_succ_of_lt (h.child r hr c hc).2⟩

/-- A further registration with a token, under a number that has not been in use. -/
theorem enrolled {token : CancelToken} (h : Listed t rs) (hget : t.get? id = some token)
    (hchild : ∀ c, callback = .cancel c → id < c ∧ c < t.next ∧ ∀ r ∈ rs, r.callback ≠ .cancel c) :
    Listed (t.enrolled id callback) (rs ++ [⟨id, callback, ⟨id, token.nextCallback⟩, true⟩]) := by
  have hid : id < t.next := h.isSome_get?_iff.1 (by rw [hget]; rfl)
  refine ⟨?_, fun j new hj => ?_, fun j new hj r hr htoken => ?_, fun r hr => ?_, ?_, fun r hr c hc => ?_, ?_⟩
  · exact (CancelTree.ids_update (CancelToken.enrolled callback) (fun _ => rfl) t id).trans h.ids
  · rw [CancelTree.get?_enrolled] at hj
    obtain ⟨old, hold, rfl⟩ := Option.map_eq_some_iff.1 hj
    have holdid := CancelTree.id_of_get? hold
    rw [heldBy, List.filter_append, List.map_append, ← heldBy, ← h.callbacks j old hold]
    by_cases heq : old.id = id
    · obtain rfl : id = j := heq.symm.trans holdid
      cases hget.symm.trans hold
      rw [if_pos heq, CancelToken.enrolled]
      simp
    · rw [if_neg heq]
      simp [← holdid, Ne.symm heq]
  · rw [CancelTree.get?_enrolled] at hj
    obtain ⟨old, hold, rfl⟩ := Option.map_eq_some_iff.1 hj
    have holdid := CancelTree.id_of_get? hold
    rcases List.mem_append.1 hr with hr | hr
    · have hlt := h.fresh j old hold r hr htoken
      split
      · exact Nat.lt_succ_of_lt hlt
      · exact hlt
    · obtain rfl := List.mem_singleton.1 hr
      obtain rfl : id = j := htoken
      cases hget.symm.trans hold
      rw [if_pos holdid]
      exact Nat.lt_succ_self _
  · rcases List.mem_append.1 hr with hr | hr
    · exact h.guard r hr
    · obtain rfl := List.mem_singleton.1 hr
      exact ⟨rfl, hid⟩
  · refine nodup_map_concat h.once fun r hr heq => ?_
    have hlt := h.fresh id token hget r hr ((h.guard r hr).1.symm.trans (congrArg Guard.token heq))
    rw [congrArg Guard.callback heq] at hlt
    exact Nat.lt_irrefl _ hlt
  · rcases List.mem_append.1 hr with hr | hr
    · exact h.child r hr c hc
    · obtain rfl := List.mem_singleton.1 hr
      exact ⟨(hchild c hc).1, (hchild c hc).2.1⟩
  · rw [List.filterMap_append]
    refine List.nodup_append.2 ⟨h.parent, ?_, fun a ha b hb => ?_⟩
    · cases callback <;> simp [Callback.child?]
    · rintro rfl
      obtain ⟨r, hr, hra⟩ := List.mem_filterMap.1 ha
      cases callback with
      | notify label => simp [Callback.child?] at hb
      | cancel c =>
          obtain rfl : a = c := by simpa [Callback.child?] using hb
          refine (hchild a rfl).2.2 r hr ?_
          revert hra
          cases r.callback <;> simp [Callback.child?]

/-- A guard tells its registration from all others. -/
theorem set_eq {n : Nat} {r : Registration} (h : Listed t rs) (hr : rs[n]? = some r) :
    rs.set n { r with held := false } = rs.map (·.letGo r.guard) := by
  obtain ⟨hn, rfl⟩ := List.getElem?_eq_some_iff.1 hr
  refine List.ext_getElem (by simp) fun i hi hi' => ?_
  have hi : i < rs.length := by simpa using hi
  rw [List.getElem_set, List.getElem_map, Registration.letGo]
  by_cases hni : n = i
  · subst hni
    simp
  · have hne : rs[i].guard ≠ rs[n].guard := fun heq =>
      hni ((h.once.of_map _).getElem_inj_iff.1
        (List.inj_on_of_nodup_map h.once (List.getElem_mem hi) (List.getElem_mem hn) heq)).symm
    rw [if_neg hni, if_neg hne]

/-- Letting go of a guard takes its registration away. -/
theorem release (h : Listed t rs) (g : Guard) : Listed (t.release g) (rs.map (·.letGo g)) := by
  have hheld (j : TokenId) : (heldBy (rs.map (·.letGo g)) j).map (fun r => (r.guard.callback, r.callback)) =
      ((heldBy rs j).filter (·.guard != g)).map fun r => (r.guard.callback, r.callback) := by
    simp [heldBy, List.filter_map, List.map_map, Function.comp_def, List.filter_filter, Bool.and_assoc]
  have hparent : (rs.map (·.letGo g)).filterMap (·.callback.child?) = rs.filterMap (·.callback.child?) := by
    simp [List.filterMap_map]
  refine ⟨?_, fun j new hj => ?_, fun j new hj r hr htoken => ?_, ?_, ?_, ?_, hparent ▸ h.parent⟩
  · exact (CancelTree.ids_update (CancelToken.released g.callback) (fun _ => rfl) t g.token).trans h.ids
  · rw [CancelTree.get?_release] at hj
    obtain ⟨old, hold, rfl⟩ := Option.map_eq_some_iff.1 hj
    obtain rfl := CancelTree.id_of_get? hold
    have htoken : ∀ r ∈ heldBy rs old.id, r.guard.token = old.id := by
      intro r hr
      obtain ⟨hr, hof⟩ := List.mem_filter.1 hr
      rw [Bool.and_eq_true, beq_iff_eq] at hof
      rw [(h.guard r hr).1, hof.2]
    rw [hheld]
    split
    · next heq =>
        rw [CancelToken.released, h.callbacks _ old hold]
        dsimp only
        rw [List.filter_map]
        refine congrArg _ (List.filter_congr fun r hr => ?_)
        have hsame : r.guard = g ↔ r.guard.callback = g.callback := by
          refine ⟨congrArg Guard.callback, fun hnumber => ?_⟩
          calc r.guard = ⟨r.guard.token, r.guard.callback⟩ := rfl
            _ = ⟨g.token, g.callback⟩ := by rw [htoken r hr, heq, hnumber]
        rw [Bool.eq_iff_iff, bne_iff_ne, Function.comp_apply, bne_iff_ne, Ne, Ne, hsame]
    · next hne =>
        rw [List.filter_eq_self.2, h.callbacks _ old hold]
        intro r hr
        rw [bne_iff_ne]
        rintro rfl
        exact hne (htoken r hr).symm
  · rw [CancelTree.get?_release] at hj
    obtain ⟨old, hold, rfl⟩ := Option.map_eq_some_iff.1 hj
    obtain ⟨x, hx, rfl⟩ := List.mem_map.1 hr
    have hlt := h.fresh j old hold x hx (by simpa using htoken)
    rw [Registration.guard_letGo]
    split
    · exact hlt
    · exact hlt
  · exact List.forall_mem_map.2 fun r hr => by simpa [CancelTree.next_release] using h.guard r hr
  · simpa [Function.comp_def] using h.once
  · exact List.forall_mem_map.2 fun r hr => by simpa [CancelTree.next_release] using h.child r hr

theorem nodup_ids (h : Listed t rs) : (t.tokens.map (·.id)).Nodup := h.ids ▸ List.nodup_range

theorem get?_of_mem (h : Listed t rs) {token : CancelToken} (htoken : token ∈ t.tokens) :
    t.get? token.id = some token := by
  obtain ⟨other, hother⟩ : ∃ other, t.get? token.id = some other :=
    Option.isSome_iff_exists.1 (List.find?_isSome.2 ⟨token, htoken, by simp⟩)
  rw [hother, List.inj_on_of_nodup_map h.nodup_ids (List.mem_of_find?_eq_some hother) htoken
    (CancelTree.id_of_get? hother)]

/-- What waits are the callbacks whose guards are held and whose tokens are not cancelled. -/
theorem waiting_eq (h : Listed t rs) (label : String) : t.waiting label =
    ((rs.filter fun r => r.held && !t.isCancelled r.token).map (·.callback)).count (.notify label) := by
  have hlive : (t.tokens.filter (!·.cancelled)).flatMap (fun token => token.callbacks.map (·.2)) =
      (((t.tokens.filter (!·.cancelled)).map (·.id)).flatMap fun j =>
        (rs.filter (·.held)).filter (·.token = j)).map (·.callback) := by
    rw [List.flatMap_map, List.map_flatMap]
    refine List.flatMap_congr fun token htoken => ?_
    rw [h.callbacks token.id token (h.get?_of_mem (List.mem_filter.1 htoken).1), List.map_map, heldBy,
      List.filter_filter]
    refine congrArg (List.map _) (List.filter_congr fun r _ => ?_)
    rw [Bool.and_comm]
    rfl
  have hmem : ∀ r ∈ rs, (r.token ∈ (t.tokens.filter (!·.cancelled)).map (·.id) ↔ t.isCancelled r.token = false) := by
    intro r hr
    obtain ⟨token, hget⟩ := Option.isSome_iff_exists.1 (h.isSome_get?_iff.2 (h.guard r hr).2)
    have hid := CancelTree.id_of_get? hget
    rw [CancelTree.isCancelled, hget, List.mem_map]
    constructor
    · rintro ⟨other, hother, heq⟩
      obtain ⟨hmem, hlive⟩ := List.mem_filter.1 hother
      cases hget.symm.trans (heq ▸ h.get?_of_mem hmem)
      simpa using hlive
    · intro hlive
      exact ⟨token, List.mem_filter.2 ⟨List.mem_of_find?_eq_some hget, by simpa using hlive⟩, hid⟩
  have hnodup : ((t.tokens.filter (!·.cancelled)).map (·.id)).Nodup := h.nodup_ids.sublist (List.filter_sublist.map _)
  rw [CancelTree.waiting, hlive, ((flatMap_filter_perm Registration.token _ hnodup).map _).count_eq,
    List.filter_filter]
  refine congrArg (fun rs => (List.map Registration.callback rs).count _) (List.filter_congr fun r hr => ?_)
  rw [Bool.and_comm]
  simp [hmem r hr]

end Listed

section Enroll

variable {t : CancelTree} {rs : List Registration} {id j p c : TokenId} {callback : Callback}

theorem CancelTree.runAll_notify (t : CancelTree) (label : String) : t.runAll [.notify label] = (t, [label]) := by
  rw [runAll, runAll]

theorem CancelTree.labels_runAll_cancel {token : CancelToken} (hget : t.get? c = some token)
    (hnone : token.callbacks = []) : (t.runAll [.cancel c]).2 = [] := by
  cases hc : token.cancelled with
  | true =>
      rw [runAll_skip fun other hother => by cases hget.symm.trans hother; exact hc, runAll]
  | false =>
      rw [runAll_mark hget hc, hnone, List.map_nil, List.nil_append, runAll]

theorem linked_concat {r : Registration} (hr : r.held = true) :
    Linked (rs ++ [r]) p c ↔ Linked rs p c ∨ r.token = p ∧ r.callback = .cancel c := by
  constructor
  · rintro ⟨x, hx, hheld, htoken, hcallback⟩
    rcases List.mem_append.1 hx with hx | hx
    · exact .inl ⟨x, hx, hheld, htoken, hcallback⟩
    · obtain rfl := List.mem_singleton.1 hx
      exact .inr ⟨htoken, hcallback⟩
  · rintro (⟨x, hx, hlink⟩ | ⟨htoken, hcallback⟩)
    · exact ⟨x, List.mem_append_left _ hx, hlink⟩
    · exact ⟨r, by simp, hr, htoken, hcallback⟩

/-- A callback that cancels, if it does, a token that nothing has been registered with or for. -/
def Fresh (t : CancelTree) (rs : List Registration) (id : TokenId) (callback : Callback) : Prop :=
  ∀ c, callback = .cancel c → id < c ∧ c < t.next ∧ ∀ r ∈ rs, r.callback ≠ .cancel c ∧ r.token ≠ c

/-- What a registration does. -/
structure Registers (t : CancelTree) (rs : List Registration) (id : TokenId) (callback : Callback)
    (made : Guard × CancelTree × List String) : Prop where
  listed : Listed made.2.1 (rs ++ [⟨id, callback, made.1, true⟩])
  same : ∀ j, (∀ c, callback = .cancel c → j ≠ c) → made.2.1.isCancelled j = t.isCancelled j
  labels : made.2.2 = if t.isCancelled id = true then callback.label?.toList else []

theorem registers_of_live {token : CancelToken} (h : Listed t rs) (hget : t.get? id = some token)
    (hfresh : Fresh t rs id callback) (hlive : token.cancelled = false) :
    Registers t rs id callback (t.register id callback) := by
  have hid : t.isCancelled id = false := by rw [CancelTree.isCancelled, hget]; exact hlive
  have hlisted := h.enrolled hget fun c hc =>
    ⟨(hfresh c hc).1, (hfresh c hc).2.1, fun r hr => ((hfresh c hc).2.2 r hr).1⟩
  rw [CancelTree.register_eq hget, if_neg (by simp [hlive])]
  have hsame := CancelTree.isCancelled_enrolled t id callback
  refine ⟨hlisted, fun j _ => hsame j, ?_⟩
  rw [hid, if_neg Bool.false_ne_true]

theorem registers_of_cancelled {token : CancelToken} (h : Listed t rs)
    (hget : t.get? id = some token) (hfresh : Fresh t rs id callback) (hcancelled : token.cancelled = true) :
    Registers t rs id callback (t.register id callback) := by
  have hid : t.isCancelled id = true := CancelTree.isCancelled_eq_true_iff.2 ⟨token, hget, hcancelled⟩
  have hlisted := h.enrolled hget fun c hc =>
    ⟨(hfresh c hc).1, (hfresh c hc).2.1, fun r hr => ((hfresh c hc).2.2 r hr).1⟩
  -- nothing is linked to the token that the callback cancels
  have hend : ∀ c, callback = .cancel c → ∀ d, ¬Linked (rs ++ [⟨id, callback, ⟨id, token.nextCallback⟩, true⟩]) c d := by
    intro c hc d hlink
    rcases (linked_concat rfl).1 hlink with ⟨r, hr, -, htoken, -⟩ | ⟨htoken, -⟩
    · exact ((hfresh c hc).2.2 r hr).2 htoken
    · exact Nat.ne_of_lt (hfresh c hc).1 htoken
  have hsame := CancelTree.isCancelled_enrolled t id callback
  rw [CancelTree.register_eq hget, if_pos hcancelled]
  refine ⟨hlisted.alike (CancelTree.alike_runAll _ _), fun j hj => ?_, ?_⟩
  · rw [← hsame j, Bool.eq_iff_iff]
    refine ⟨fun hrun => ?_, CancelTree.later_runAll _ _ j⟩
    rcases CancelTree.reached_of_runAll hrun with hold | ⟨c, hc, hreach⟩
    · exact hold
    · have hc := (List.mem_singleton.1 hc).symm
      rcases hreach.cases_head with rfl | ⟨d, hlink, -⟩
      · exact absurd rfl (hj c hc)
      · exact absurd (hlisted.link_iff.1 hlink) (hend c hc d)
  · rw [if_pos hid]
    cases hcallback : callback with
    | notify label => rw [CancelTree.runAll_notify]; rfl
    | cancel c =>
        subst hcallback
        obtain ⟨child, hchild⟩ := Option.isSome_iff_exists.1 (hlisted.isSome_get?_iff.2 (hfresh c rfl).2.1)
        refine CancelTree.labels_runAll_cancel hchild ?_
        rw [hlisted.callbacks c child hchild, heldBy, List.filter_eq_nil_iff.2, List.map_nil]
        intro r hr
        rcases List.mem_append.1 hr with hr | hr
        · simp [((hfresh c rfl).2.2 r hr).2]
        · obtain rfl := List.mem_singleton.1 hr
          simp [Nat.ne_of_lt (hfresh c rfl).1]

theorem registers (h : Listed t rs) (hid : id < t.next) (hfresh : Fresh t rs id callback) :
    Registers t rs id callback (t.register id callback) := by
  obtain ⟨token, hget⟩ := Option.isSome_iff_exists.1 (h.isSome_get?_iff.2 hid)
  cases hcancelled : token.cancelled with
  | false => exact registers_of_live h hget hfresh hcancelled
  | true => exact registers_of_cancelled h hget hfresh hcancelled

end Enroll

end CommandShell
