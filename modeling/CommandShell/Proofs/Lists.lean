import Mathlib.Data.List.Forall2
import Mathlib.Data.List.Nodup
import Mathlib.Data.List.Pairwise

/-!
Results and lists of them, lists whose elements differ, sorted lists, and what a list starts with.
-/

namespace CommandShell

universe u v

theorem except_bind_eq_ok_iff {α β ε : Type} {x : Except ε α} {f : α → Except ε β} {b : β} :
    (x >>= f) = .ok b ↔ ∃ a, x = .ok a ∧ f a = .ok b := by
  cases x <;> simp [bind, Except.bind]

theorem except_bind_eq_error_iff {α β ε : Type} {x : Except ε α} {f : α → Except ε β} {e : ε} :
    (x >>= f) = .error e ↔ x = .error e ∨ ∃ a, x = .ok a ∧ f a = .error e := by
  cases x <;> simp [bind, Except.bind]

theorem except_map_eq_ok_iff {α β ε : Type} {x : Except ε α} {f : α → β} {b : β} :
    x.map f = .ok b ↔ ∃ a, x = .ok a ∧ f a = b := by
  cases x <;> simp [Except.map]

theorem except_map_eq_error_iff {α β ε : Type} {x : Except ε α} {f : α → β} {e : ε} :
    x.map f = .error e ↔ x = .error e := by
  cases x <;> simp [Except.map]

theorem mapM_eq_ok_iff {α β ε : Type} {f : α → Except ε β} {as : List α} {bs : List β} :
    as.mapM f = .ok bs ↔ List.Forall₂ (fun a b => f a = .ok b) as bs := by
  induction as generalizing bs with
  | nil => cases bs <;> simp [pure, Except.pure]
  | cons a as ih =>
      rw [List.mapM_cons]
      cases hb : f a with
      | error e => cases bs <;> simp [bind, Except.bind, hb]
      | ok b =>
          cases hbs : as.mapM f with
          | error e => cases bs <;> simp [bind, Except.bind, hb, ← ih, hbs]
          | ok cs => cases bs <;> simp [bind, Except.bind, pure, Except.pure, hb, ← ih, hbs]

theorem exists_of_mapM_eq_error {α β ε : Type} {f : α → Except ε β} {as : List α} {e : ε}
    (h : as.mapM f = .error e) : ∃ a ∈ as, f a = .error e := by
  induction as with
  | nil => cases h
  | cons a as ih =>
      rw [List.mapM_cons] at h
      cases hb : f a with
      | error d =>
          rw [hb] at h
          cases h
          exact ⟨a, List.mem_cons_self, hb⟩
      | ok b =>
          cases hbs : as.mapM f with
          | error d =>
              rw [hb, hbs] at h
              cases h
              obtain ⟨c, hc, hfault⟩ := ih hbs
              exact ⟨c, List.mem_cons_of_mem _ hc, hfault⟩
          | ok bs =>
              rw [hb, hbs] at h
              cases h

theorem exists_of_option_mapM_eq_error {α β ε : Type} {f : α → Except ε β} {a : Option α} {e : ε}
    (h : a.mapM f = .error e) : ∃ b ∈ a, f b = .error e := by
  cases a with
  | none => cases h
  | some b => exact ⟨b, rfl, except_map_eq_error_iff.1 h⟩

theorem exists_forall₂_iff {α β : Type} {R : α → β → Prop} {as : List α} :
    (∃ bs, List.Forall₂ R as bs) ↔ ∀ a ∈ as, ∃ b, R a b := by
  induction as with
  | nil => exact ⟨fun _ => nofun, fun _ => ⟨[], .nil⟩⟩
  | cons a as ih =>
      rw [List.forall_mem_cons, ← ih]
      constructor
      · rintro ⟨bs, h⟩
        cases h with
        | cons hb hbs => exact ⟨⟨_, hb⟩, _, hbs⟩
      · rintro ⟨⟨b, hb⟩, bs, hbs⟩
        exact ⟨b :: bs, .cons hb hbs⟩

theorem exists_of_mem_forall₂ {α : Type u} {β : Type v} {R : α → β → Prop} {as : List α} {bs : List β}
    (h : List.Forall₂ R as bs) {b : β} (hb : b ∈ bs) : ∃ a ∈ as, R a b := by
  induction h with
  | nil => cases hb
  | cons hr _ ih =>
      rcases List.mem_cons.1 hb with rfl | hb
      · exact ⟨_, List.mem_cons_self, hr⟩
      · obtain ⟨a, ha, hr⟩ := ih hb
        exact ⟨a, List.mem_cons_of_mem _ ha, hr⟩

theorem nodup_map_concat {α : Type u} {β : Type v} {f : α → β} {as : List α} {a : α} (h : (as.map f).Nodup)
    (hnew : ∀ b ∈ as, f b ≠ f a) : ((as ++ [a]).map f).Nodup := by
  rw [List.map_append]
  refine List.nodup_append.2 ⟨h, List.nodup_singleton _, ?_⟩
  intro _ hold _ hlast
  obtain ⟨b, hb, rfl⟩ := List.mem_map.1 hold
  rw [List.map_singleton, List.mem_singleton] at hlast
  rw [hlast]
  exact hnew b hb

theorem inj_on_of_nodup_filterMap {α β : Type} {f : α → Option β} {as : List α} (h : (as.filterMap f).Nodup) {a b : α}
    (ha : a ∈ as) (hb : b ∈ as) {c : β} (hac : f a = some c) (hbc : f b = some c) : a = b := by
  by_contra hne
  let R (a b : α) : Prop := ∀ c, f a = some c → ∀ d, f b = some d → c ≠ d
  have hsymm : Std.Symm R := ⟨fun a b hab c hc d hd heq => hab d hd c hc heq.symm⟩
  have hpairs : as.Pairwise R := List.pairwise_filterMap.1 h
  exact hpairs.forall ha hb hne c hac c hbc rfl

/-- Of elements with different keys, the one with a key is found. -/
theorem find?_key_eq_some_iff {α κ : Type} [DecidableEq κ] {key : α → κ} {as : List α} (h : (as.map key).Nodup)
    {k : κ} {a : α} : as.find? (key · = k) = some a ↔ a ∈ as ∧ key a = k := by
  constructor
  · intro hfind
    exact ⟨List.mem_of_find?_eq_some hfind, by simpa using List.find?_some hfind⟩
  · rintro ⟨ha, rfl⟩
    obtain ⟨b, hfind⟩ : ∃ b, as.find? (key · = key a) = some b :=
      Option.isSome_iff_exists.1 (List.find?_isSome.2 ⟨a, ha, by simp⟩)
    have hkey : key b = key a := by simpa using List.find?_some hfind
    rw [hfind, List.inj_on_of_nodup_map h (List.mem_of_find?_eq_some hfind) ha hkey]

theorem find?_key_perm {α κ : Type} [DecidableEq κ] {key : α → κ} {as bs : List α} (h : (as.map key).Nodup)
    (hperm : as.Perm bs) (k : κ) : as.find? (key · = k) = bs.find? (key · = k) := by
  have hbs : (bs.map key).Nodup := (hperm.map key).nodup_iff.1 h
  refine Option.ext fun a => ?_
  rw [find?_key_eq_some_iff h, find?_key_eq_some_iff hbs, hperm.mem_iff]

/-- The only element on which `p` holds is all that is left. -/
theorem filter_eq_singleton {α : Type u} {p : α → Bool} {as : List α} {a : α} (h : as.Nodup) (ha : a ∈ as)
    (hp : p a = true) (honly : ∀ b ∈ as, p b = true → b = a) : as.filter p = [a] := by
  have hall : ∀ b ∈ as.filter p, b = a := fun b hb => honly b (List.mem_of_mem_filter hb) (List.of_mem_filter hb)
  have hreplicate := List.eq_replicate_of_mem hall
  have hpos := List.length_pos_of_mem (List.mem_filter.2 ⟨ha, hp⟩)
  have hnodup := h.filter p
  rw [hreplicate, List.nodup_replicate] at hnodup
  rw [hreplicate, Nat.le_antisymm hnodup hpos, List.replicate_one]

/-- Lists cut by a key, for some different keys, hold what has one of these keys. -/
theorem flatMap_filter_perm {α κ : Type} [DecidableEq κ] (key : α → κ) (as : List α) {ks : List κ} (h : ks.Nodup) :
    (ks.flatMap fun k => as.filter fun a => key a = k).Perm (as.filter fun a => key a ∈ ks) := by
  induction ks with
  | nil => simp
  | cons k ks ih =>
      obtain ⟨hk, hks⟩ := List.nodup_cons.1 h
      rw [List.flatMap_cons]
      refine ((ih hks).append_left _).trans ?_
      have hcut := List.filter_append_perm (fun a => decide (key a = k)) (as.filter fun a => key a ∈ k :: ks)
      have hfirst : (as.filter fun a => key a ∈ k :: ks).filter (fun a => key a = k) = as.filter fun a => key a = k := by
        rw [List.filter_filter]
        exact List.filter_congr fun a _ => by by_cases ha : key a = k <;> simp [ha]
      have hrest : (as.filter fun a => key a ∈ k :: ks).filter (fun a => !decide (key a = k)) =
          as.filter fun a => key a ∈ ks := by
        rw [List.filter_filter]
        refine List.filter_congr fun a _ => ?_
        by_cases ha : key a = k <;> simp [ha, hk]
      rwa [hfirst, hrest] at hcut

section Sorting

variable {α : Type u} {κ : Type v} [LE κ] [DecidableLE κ] [Std.IsLinearOrder κ] {key : α → κ} {as bs : List α}

theorem pairwise_mergeSort (as : List α) (key : α → κ) :
    (as.mergeSort fun a b => key a ≤ key b).Pairwise fun a b => key a ≤ key b := by
  have hsorted := @List.pairwise_mergeSort _ (fun a b => decide (key a ≤ key b))
    (by simpa only [decide_eq_true_eq] using fun a b c => Std.le_trans)
    (by simpa only [Bool.or_eq_true, decide_eq_true_eq] using fun a b => Std.le_total) as
  exact hsorted.imp of_decide_eq_true

/-- Elements with different keys are sorted into one list, however they stood before. -/
theorem mergeSort_eq_of_perm (h : (as.map key).Nodup) (hperm : as.Perm bs) :
    (as.mergeSort fun a b => key a ≤ key b) = bs.mergeSort fun a b => key a ≤ key b := by
  refine List.Perm.eq_of_pairwise ?_ (pairwise_mergeSort as key) (pairwise_mergeSort bs key)
    ((List.mergeSort_perm as _).trans (hperm.trans (List.mergeSort_perm bs _).symm))
  intro a b ha hb hab hba
  have hb' := hperm.mem_iff.2 (List.mem_mergeSort.1 hb)
  exact List.inj_on_of_nodup_map h (List.mem_mergeSort.1 ha) hb' (Std.le_antisymm hab hba)

end Sorting

theorem takeWhile_append_of_head {α : Type} {p : α → Bool} {as bs : List α} (has : ∀ a ∈ as, p a = true)
    (hbs : ∀ b ∈ bs.head?, p b = false) : (as ++ bs).takeWhile p = as := by
  have hstop : bs.takeWhile p = [] := by
    cases bs with
    | nil => rfl
    | cons b bs => exact List.takeWhile_cons_of_neg (by simp [hbs b rfl])
  rw [List.takeWhile_append_of_pos has, hstop, List.append_nil]

end CommandShell
