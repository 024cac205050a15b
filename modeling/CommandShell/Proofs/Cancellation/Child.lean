import CommandShell.Proofs.Cancellation.Registration

/-!
Trees in which numbers are given out in order.  Main statement: a child of a token is cancelled with it, also
if the token has been cancelled before the child is made.
-/

namespace CommandShell

namespace CancelTree

variable {t u : CancelTree} {id j p c : TokenId}

/-- No token and no child has a number that is still to be given out, and what is linked to a cancelled token
is cancelled. -/
structure Sturdy (t : CancelTree) : Prop where
  ids : ∀ {j token}, t.get? j = some token → j < t.next
  children : ∀ {p token c}, t.get? p = some token → .cancel c ∈ token.callbacks.map (·.2) → c < t.next
  closed : t.Closed

namespace Sturdy

theorem get?_next (h : t.Sturdy) : t.get? t.next = none :=
  Option.eq_none_iff_forall_ne_some.2 fun _ hget => Nat.lt_irrefl _ (h.ids hget)

theorem alike (h : t.Sturdy) (halike : t.Alike u) (hclosed : u.Closed) : u.Sturdy := by
  refine ⟨fun hget => ?_, fun hget hmem => ?_, hclosed⟩
  · obtain ⟨old, hold, -, -⟩ := halike.exists_get? hget
    exact halike.next ▸ h.ids hold
  · obtain ⟨old, hold, hcallbacks, -⟩ := halike.exists_get? hget
    exact halike.next ▸ h.children hold (hcallbacks ▸ hmem)

theorem cancel (h : t.Sturdy) (id : TokenId) : (t.cancel id).1.Sturdy :=
  h.alike (alike_runAll t _) (closed_runAll (h.closed.upTo _))

theorem new (h : t.Sturdy) : t.new.2.Sturdy := by
  have hget := get?_new h.get?_next
  refine ⟨fun {j token} hj => ?_, fun {p token c} hp hmem => ?_, fun p c hp hlink => ?_⟩
  · rw [hget] at hj
    split at hj
    · next heq => exact heq ▸ Nat.lt_succ_self _
    · exact Nat.lt_succ_of_lt (h.ids hj)
  · rw [hget] at hp
    split at hp
    · cases hp
      cases hmem
    · exact Nat.lt_succ_of_lt (h.children hp hmem)
  · obtain ⟨token, hp', hmem, hc⟩ := hlink
    rw [isCancelled_new h.get?_next] at hp ⊢
    obtain ⟨old, hold, -⟩ := isCancelled_eq_true_iff.1 hp
    have hne : p ≠ t.next := Nat.ne_of_lt (h.ids hold)
    rw [hget, if_neg hne] at hp'
    rw [hget, if_neg (Nat.ne_of_lt (h.children hp' hmem))] at hc
    exact h.closed p c hp ⟨token, hp', hmem, hc⟩

theorem register (h : t.Sturdy) (id : TokenId) {callback : Callback}
    (hchild : ∀ c, callback = .cancel c → c < t.next) : (t.register id callback).2.1.Sturdy := by
  have hclosed := closed_register h.closed id callback
  rcases hid : t.get? id with _ | token
  · rwa [CancelTree.register, hid]
  · have hsturdy : ∀ u : CancelTree, (t.enrolled id callback).Alike u → u.Closed → u.Sturdy := by
      intro u halike hclosed
      refine ⟨fun hget => ?_, fun hget hmem => ?_, hclosed⟩
      · obtain ⟨token, htoken, -, -⟩ := halike.exists_get? hget
        rw [get?_enrolled] at htoken
        obtain ⟨old, hold, -⟩ := Option.map_eq_some_iff.1 htoken
        exact halike.next ▸ h.ids hold
      · obtain ⟨token, htoken, hcallbacks, -⟩ := halike.exists_get? hget
        rw [get?_enrolled] at htoken
        obtain ⟨old, hold, rfl⟩ := Option.map_eq_some_iff.1 htoken
        rw [hcallbacks] at hmem
        refine halike.next ▸ ?_
        split at hmem
        · rw [CancelToken.enrolled, List.map_append] at hmem
          rcases List.mem_append.1 hmem with hmem | hmem
          · exact h.children hold hmem
          · exact hchild _ (List.mem_singleton.1 hmem).symm
        · exact h.children hold hmem
    rw [register_eq hid] at hclosed ⊢
    split at hclosed
    · next hcancelled =>
        rw [if_pos hcancelled]
        exact hsturdy _ (alike_runAll _ _) hclosed
    · next hlive =>
        rw [if_neg hlive]
        exact hsturdy _ (.refl _) hclosed

theorem release (h : t.Sturdy) (g : Guard) : (t.release g).Sturdy := by
  refine ⟨fun hget => ?_, fun hget hmem => ?_, closed_release h.closed g⟩
  · rw [get?_release] at hget
    obtain ⟨old, hold, -⟩ := Option.map_eq_some_iff.1 hget
    exact h.ids hold
  · rw [get?_release] at hget
    obtain ⟨old, hold, rfl⟩ := Option.map_eq_some_iff.1 hget
    refine h.children hold ?_
    split at hmem
    · exact (List.filter_sublist.map _).subset hmem
    · exact hmem

end Sturdy

theorem get?_drop_of_ne (h : j ≠ id) : (t.drop id).get? j = t.get? j := by
  rw [get?, drop, List.find?_filter, get?]
  refine congrArg (t.tokens.find? ·) (funext fun token => ?_)
  by_cases hj : token.id = j <;> simp [hj, h]

theorem get?_drop_self (t : CancelTree) (id : TokenId) : (t.drop id).get? id = none := by
  rw [get?, drop, List.find?_filter, List.find?_eq_none]
  simp

theorem get?_of_drop {token : CancelToken} (h : (t.drop id).get? j = some token) : t.get? j = some token := by
  by_cases hj : j = id
  · rw [hj, get?_drop_self] at h
    cases h
  · rwa [get?_drop_of_ne hj] at h

theorem isCancelled_drop_of_ne (h : j ≠ id) : (t.drop id).isCancelled j = t.isCancelled j := by
  rw [isCancelled, isCancelled, get?_drop_of_ne h]

theorem Sturdy.drop (h : t.Sturdy) (id : TokenId) : (t.drop id).Sturdy := by
  refine ⟨fun hget => h.ids (get?_of_drop hget), fun hget => h.children (get?_of_drop hget), fun p c hp hlink => ?_⟩
  obtain ⟨token, hget, hcancelled⟩ := isCancelled_eq_true_iff.1 hp
  obtain ⟨other, hother, hmem, hc⟩ := hlink
  cases hget.symm.trans hother
  obtain ⟨child, hchild⟩ := Option.isSome_iff_exists.1 hc
  have hne : c ≠ id := by
    rintro rfl
    rw [get?_drop_self] at hchild
    cases hchild
  rw [isCancelled_drop_of_ne hne]
  refine h.closed p c (isCancelled_eq_true_iff.2 ⟨token, get?_of_drop hget, hcancelled⟩)
    ⟨token, get?_of_drop hget, hmem, ?_⟩
  rw [get?_of_drop hchild]
  rfl

/-- What has come of making a child of a token. -/
structure Adopts (t : CancelTree) (parent : TokenId) (child : TokenId) (u : CancelTree) : Prop where
  sturdy : u.Sturdy
  later : t.Later u
  keeps : ∀ {j}, (t.get? j).isSome = true → (u.get? j).isSome = true
  link : u.Link parent child
  ne : child ≠ parent

theorem isSome_get?_register (t : CancelTree) (id : TokenId) (callback : Callback) (j : TokenId) :
    ((t.register id callback).2.1.get? j).isSome = (t.get? j).isSome := by
  rcases hid : t.get? id with _ | token
  · rw [register, hid]
  · have henrolled : ((t.enrolled id callback).get? j).isSome = (t.get? j).isSome := by
      rw [get?_enrolled, Option.isSome_map]
    rw [register_eq hid, ← henrolled]
    split
    · exact (alike_runAll _ _).isSome_get? j
    · rfl

theorem Sturdy.child (h : t.Sturdy) (hp : (t.get? p).isSome = true) :
    t.Adopts p (t.child p).1 (t.child p).2.2.1 := by
  obtain ⟨token, hget⟩ := Option.isSome_iff_exists.1 hp
  have hne : p ≠ t.next := Nat.ne_of_lt (h.ids hget)
  have hnew := get?_new h.get?_next
  have hparent : t.new.2.get? p = some token := by rw [hnew, if_neg hne, hget]
  have hkeeps : ∀ {j}, (t.get? j).isSome = true → (t.new.2.get? j).isSome = true := by
    intro j hj
    rw [hnew]
    split
    · rfl
    · exact hj
  refine ⟨h.new.register p ?_, later_child h.get?_next p, fun hj => ?_, ?_, hne.symm⟩
  · rintro c ⟨⟩
    exact Nat.lt_succ_self _
  · exact (isSome_get?_register _ _ _ _).trans (hkeeps hj)
  · have hlink : (t.new.2.enrolled p (.cancel t.next)).Link p t.next := by
      refine link_enrolled (hkeeps hp) ?_
      rw [hnew, if_pos rfl]
      rfl
    change (t.new.2.register p (.cancel t.next)).2.1.Link p t.next
    rw [register_eq hparent]
    split
    · exact (alike_runAll _ _).link_iff.2 hlink
    · exact hlink

end CancelTree

theorem Listed.sturdy {t : CancelTree} {rs : List Registration} (h : Listed t rs) (hclosed : t.Closed) :
    t.Sturdy := by
  refine ⟨fun hget => h.isSome_get?_iff.1 (by rw [hget]; rfl), fun {p token c} hget hmem => ?_, hclosed⟩
  rw [h.callbacks p token hget, List.map_map] at hmem
  obtain ⟨r, hr, hcallback⟩ := List.mem_map.1 hmem
  exact (h.child r (List.mem_filter.1 hr).1 c hcallback).2

end CommandShell
