import CommandShell.Proofs.Cancellation.Child
import Mathlib.Data.List.Induction

/-!
What is done with tokens, in any order.  Main statement: a token is cancelled exactly through itself or the
guarded links that lead to it, and a callback runs once if its guard is held when its token is cancelled, and
never otherwise.
-/

namespace CommandShell

open Relation

inductive TokenOp where
  | create
  | child (parent : TokenId)
  | watch (token : TokenId) (label : String)
  /-- Lets go of the guard of a registration. -/
  | letGo (n : Nat)
  | cancel (token : TokenId)

/-- A tree of tokens with all that has been registered, in order, and the labels that have been notified. -/
structure Client where
  tree : CancelTree := {}
  registrations : List Registration := []
  ran : List String := []

namespace Client

def enroll (s : Client) (token : TokenId) (callback : Callback) (made : Guard × CancelTree × List String) : Client :=
  ⟨made.2.1, s.registrations ++ [⟨token, callback, made.1, true⟩], s.ran ++ made.2.2⟩

/-- Does something; nothing if there is no such token or registration. -/
def perform (s : Client) : TokenOp → Client
  | .create => { s with tree := s.tree.new.2 }
  | .child parent =>
    if parent < s.tree.next then s.enroll parent (.cancel (s.tree.child parent).1) (s.tree.child parent).2 else s
  | .watch token label =>
    if token < s.tree.next then s.enroll token (.notify label) (s.tree.register token (.notify label)) else s
  | .letGo n =>
    match s.registrations[n]? with
    | none => s
    | some r =>
      { s with tree := s.tree.release r.guard, registrations := s.registrations.set n { r with held := false } }
  | .cancel token => { s with tree := (s.tree.cancel token).1, ran := s.ran ++ (s.tree.cancel token).2 }

def after (ops : List TokenOp) : Client := ops.foldl perform {}

/-- The guard of the registration is held, and its token is cancelled. -/
def Fires (s : Client) (n : Nat) : Prop :=
  ∃ r, s.registrations[n]? = some r ∧ r.held = true ∧ s.tree.isCancelled r.token = true

/-- At some time the guard of the registration has been held while its token was cancelled. -/
def Due (ops : List TokenOp) (n : Nat) : Prop := ∃ earlier, earlier <+: ops ∧ (after earlier).Fires n

open Classical in
noncomputable def labelsAt (places : Nat → Prop) (callbacks : List Callback) : List String :=
  (callbacks.zipIdx.filter fun x => places x.2).filterMap fun x => x.1.label?

/-- The tree is that of the registrations, and what is linked to a cancelled token is cancelled. -/
structure Sound (s : Client) : Prop where
  listed : Listed s.tree s.registrations
  closed : s.tree.Closed

variable {s : Client} {D E : Nat → Prop} {ops : List TokenOp} {op : TokenOp} {n : Nat} {cs : List Callback}

theorem Sound.registers_child (h : s.Sound) {parent : TokenId} (hparent : parent < s.tree.next) :
    Registers s.tree.new.2 s.registrations parent (.cancel s.tree.next) (s.tree.child parent).2 := by
  refine registers h.listed.new (Nat.lt_succ_of_lt hparent) ?_
  rintro c ⟨⟩
  refine ⟨hparent, Nat.lt_succ_self _, fun r hr => ⟨fun hc => ?_, Nat.ne_of_lt (h.listed.guard r hr).2⟩⟩
  exact Nat.lt_irrefl _ (h.listed.child r hr _ hc).2

theorem Sound.registers_watch (h : s.Sound) {token : TokenId} (htoken : token < s.tree.next) (label : String) :
    Registers s.tree s.registrations token (.notify label) (s.tree.register token (.notify label)) :=
  registers h.listed htoken nofun

theorem Sound.perform (h : s.Sound) (op : TokenOp) : (s.perform op).Sound := by
  cases op with
  | create => exact ⟨h.listed.new, (h.listed.sturdy h.closed).new.closed⟩
  | child parent =>
      rw [Client.perform]
      split
      · next hparent =>
          have hclosed := (h.listed.sturdy h.closed).new.closed
          exact ⟨(h.registers_child hparent).listed, CancelTree.closed_register hclosed _ _⟩
      · exact h
  | watch token label =>
      rw [Client.perform]
      split
      · next htoken => exact ⟨(h.registers_watch htoken label).listed, CancelTree.closed_register h.closed _ _⟩
      · exact h
  | letGo n =>
      rw [Client.perform]
      split
      · exact h
      · next r hr =>
          exact ⟨h.listed.set_eq hr ▸ h.listed.release r.guard, CancelTree.closed_release h.closed r.guard⟩
  | cancel token =>
      exact ⟨h.listed.alike (CancelTree.alike_runAll _ _), CancelTree.closed_runAll (h.closed.upTo _)⟩

theorem after_concat (ops : List TokenOp) (op : TokenOp) : after (ops ++ [op]) = (after ops).perform op :=
  List.foldl_concat ..

theorem sound_after (ops : List TokenOp) : (after ops).Sound := by
  induction ops using List.reverseRecOn with
  | nil => exact ⟨⟨rfl, nofun, nofun, nofun, List.nodup_nil, nofun, List.nodup_nil⟩, nofun⟩
  | append_singleton ops op ih =>
      rw [after_concat]
      exact ih.perform op

/-- What is cancelled stays so, and a registration stays with its token. -/
structure Grows (s s' : Client) : Prop where
  later : s.tree.Later s'.tree
  kept : ∀ (n : Nat) (r : Registration), s.registrations[n]? = some r →
    ∃ r' : Registration, s'.registrations[n]? = some r' ∧ r'.token = r.token

theorem Grows.refl (s : Client) : s.Grows s := ⟨.refl _, fun _ r hr => ⟨r, hr, rfl⟩⟩

theorem Grows.trans {s' s'' : Client} (h : s.Grows s') (h' : s'.Grows s'') : s.Grows s'' := by
  refine ⟨h.later.trans h'.later, fun n r hr => ?_⟩
  obtain ⟨r', hr', htoken⟩ := h.kept n r hr
  obtain ⟨r'', hr'', htoken'⟩ := h'.kept n r' hr'
  exact ⟨r'', hr'', htoken'.trans htoken⟩

theorem grows_enroll {id : TokenId} {callback : Callback} {made : Guard × CancelTree × List String}
    (h : s.tree.Later made.2.1) : s.Grows (s.enroll id callback made) := by
  refine ⟨h, fun n r hr => ⟨r, ?_, rfl⟩⟩
  rw [enroll, List.getElem?_append_left (List.getElem?_eq_some_iff.1 hr).1, hr]

theorem Sound.grows (h : s.Sound) (op : TokenOp) : s.Grows (s.perform op) := by
  cases op with
  | create => exact ⟨fun j hj => (CancelTree.isCancelled_new h.listed.get?_next j).trans hj, fun n r hr => ⟨r, hr, rfl⟩⟩
  | child parent =>
      rw [Client.perform]
      split
      · exact grows_enroll (CancelTree.later_child h.listed.get?_next parent)
      · exact .refl s
  | watch token label =>
      rw [Client.perform]
      split
      · exact grows_enroll (CancelTree.later_register _ _ _)
      · exact .refl s
  | letGo n =>
      rw [Client.perform]
      split
      · exact .refl s
      · next r hr =>
          refine ⟨fun j hj => (CancelTree.isCancelled_release _ _ j).trans hj, fun i x hx => ⟨x.letGo r.guard, ?_, ?_⟩⟩
          · dsimp only
            rw [h.listed.set_eq hr, List.getElem?_map, hx]
            rfl
          · exact x.token_letGo r.guard
  | cancel token => exact ⟨CancelTree.later_runAll _ _, fun n r hr => ⟨r, hr, rfl⟩⟩

theorem grows_after (ops more : List TokenOp) : (after ops).Grows (after (ops ++ more)) := by
  induction more using List.reverseRecOn with
  | nil =>
      rw [List.append_nil]
      exact .refl _
  | append_singleton more op ih =>
      rw [← List.append_assoc, after_concat]
      exact ih.trans ((sound_after _).grows op)

section Labels

theorem labelsAt_eq_filterMap {p : Callback × Nat → Bool} (h : ∀ x ∈ cs.zipIdx, (D x.2 ↔ p x = true)) :
    labelsAt D cs = (cs.zipIdx.filter p).filterMap fun x => x.1.label? := by
  classical
  refine congrArg _ (List.filter_congr fun x hx => ?_)
  rw [Bool.eq_iff_iff, decide_eq_true_iff]
  exact h x hx

theorem labelsAt_congr (h : ∀ n < cs.length, (D n ↔ E n)) : labelsAt D cs = labelsAt E cs := by
  classical
  refine labelsAt_eq_filterMap fun x hx => ?_
  rw [decide_eq_true_iff]
  exact h x.2 (List.getElem?_eq_some_iff.1 (List.mem_zipIdx_iff_getElem?.1 hx)).1

theorem labelsAt_concat (c : Callback) :
    labelsAt D (cs ++ [c]) = labelsAt D cs ++ open Classical in if D cs.length then c.label?.toList else [] := by
  rw [labelsAt, labelsAt, List.zipIdx_append, List.filter_append, List.filterMap_append, Nat.zero_add]
  congr 1
  by_cases hlast : D cs.length
  · cases hc : c.label? <;> simp [hlast, hc]
  · simp [hlast]

/-- More places give the labels there besides those from before. -/
theorem labelsAt_or (D E : Nat → Prop) (cs : List Callback) :
    (labelsAt (fun n => D n ∨ E n) cs).Perm (labelsAt D cs ++ labelsAt (fun n => ¬D n ∧ E n) cs) := by
  classical
  let both (x : Callback × Nat) : Bool := D x.2 ∨ E x.2
  have hcut := List.filter_append_perm (fun x : Callback × Nat => decide (D x.2)) (cs.zipIdx.filter both)
  rw [List.filter_filter, List.filter_filter] at hcut
  rw [labelsAt_eq_filterMap (p := both) (by simp [both])]
  refine (hcut.symm.filterMap _).trans (List.Perm.of_eq ?_)
  rw [List.filterMap_append, labelsAt_eq_filterMap, labelsAt_eq_filterMap]
  · intro x _
    simp [both]
    tauto
  · intro x _
    simp [both]
    tauto

/-- Places that can be told from the registrations there. -/
theorem labelsAt_eq {rs : List Registration} {p : Registration → Bool}
    (h : ∀ n r, rs[n]? = some r → (D n ↔ p r = true)) :
    labelsAt D (rs.map (·.callback)) = ((rs.filter p).map (·.callback)).filterMap Callback.label? := by
  classical
  have hplaces : rs.filter p = (rs.zipIdx.filter fun x => D x.2).map Prod.fst := by
    conv => lhs; rw [← List.zipIdx_map_fst 0 rs]
    rw [List.filter_map]
    refine congrArg _ (List.filter_congr fun x hx => ?_)
    rw [Bool.eq_iff_iff, decide_eq_true_iff]
    exact (h x.2 x.1 (List.mem_zipIdx_iff_getElem?.1 hx)).symm
  rw [labelsAt_eq_filterMap (p := fun x => decide (D x.2)) (by simp), List.zipIdx_map, List.filter_map,
    List.filterMap_map, hplaces, List.map_map, List.filterMap_map]
  rfl

end Labels

/-- What has run are the callbacks at some places, which are those that had to run. -/
structure Accounts (s : Client) (D : Nat → Prop) : Prop where
  ran : s.ran.Perm (labelsAt D (s.registrations.map (·.callback)))
  fired : ∀ n, s.Fires n → D n
  cancelled : ∀ n, D n → ∃ r : Registration, s.registrations[n]? = some r ∧ s.tree.isCancelled r.token = true

/-- Nothing runs where nothing is added and nothing comes to fire. -/
theorem Accounts.keep {s' : Client} (h : s.Accounts D) (hran : s'.ran = s.ran)
    (hcallbacks : s'.registrations.map (·.callback) = s.registrations.map (·.callback))
    (hfires : ∀ n, s'.Fires n → s.Fires n) :
    s'.ran.Perm (labelsAt (fun n => D n ∨ s'.Fires n) (s'.registrations.map (·.callback))) := by
  rw [hran, hcallbacks]
  refine h.ran.trans (List.Perm.of_eq (labelsAt_congr fun n _ => ?_))
  exact ⟨.inl, fun hn => hn.elim id fun hf => h.fired n (hfires n hf)⟩

theorem Accounts.enroll {t : CancelTree} {id : TokenId} {callback : Callback}
    {made : Guard × CancelTree × List String} (h : s.Accounts D)
    (hr : Registers t s.registrations id callback made) (hsame : ∀ j, t.isCancelled j = s.tree.isCancelled j)
    (hother : ∀ c, callback = .cancel c → id ≠ c ∧ ∀ r ∈ s.registrations, r.token ≠ c) :
    (s.enroll id callback made).ran.Perm (labelsAt (fun n => D n ∨ (s.enroll id callback made).Fires n)
      ((s.enroll id callback made).registrations.map (·.callback))) := by
  have hid : made.2.1.isCancelled id = t.isCancelled id := hr.same id fun c hc => (hother c hc).1
  have hold : ∀ n < s.registrations.length, (s.enroll id callback made).Fires n → D n := by
    rintro n hn ⟨r, hget, hheld, hcancelled⟩
    have hget : s.registrations[n]? = some r := by
      rwa [Client.enroll, List.getElem?_append_left hn] at hget
    have htoken := hr.same r.token fun c hc => (hother c hc).2 r (List.mem_of_getElem? hget)
    exact h.fired n ⟨r, hget, hheld, by rw [← hsame, ← htoken]; exact hcancelled⟩
  have hlast : (D s.registrations.length ∨ (s.enroll id callback made).Fires s.registrations.length) ↔
      t.isCancelled id = true := by
    rw [← hid]
    constructor
    · rintro (hD | ⟨r, hget, -, hcancelled⟩)
      · obtain ⟨r, hget, -⟩ := h.cancelled _ hD
        exact absurd (List.getElem?_eq_some_iff.1 hget).1 (Nat.lt_irrefl _)
      · have hget : (s.registrations ++ [⟨id, callback, made.1, true⟩])[s.registrations.length]? = some r := hget
        rw [List.getElem?_concat_length, Option.some_inj] at hget
        subst hget
        exact hcancelled
    · exact fun hcancelled => .inr ⟨_, List.getElem?_concat_length, rfl, hcancelled⟩
  have hran : (s.enroll id callback made).ran =
      s.ran ++ if t.isCancelled id = true then callback.label?.toList else [] := by
    rw [← hr.labels]
    rfl
  have hcallbacks : (s.enroll id callback made).registrations.map (·.callback) =
      s.registrations.map (·.callback) ++ [callback] := by
    rw [Client.enroll, List.map_append]
    rfl
  have hbefore : s.ran.Perm (labelsAt (fun n => D n ∨ (s.enroll id callback made).Fires n)
      (s.registrations.map (·.callback))) := by
    refine h.ran.trans (List.Perm.of_eq (labelsAt_congr fun n hn => ?_))
    rw [List.length_map] at hn
    exact ⟨.inl, fun hD => hD.elim (fun hn => hn) (hold n hn)⟩
  rw [hran, hcallbacks, labelsAt_concat, List.length_map]
  by_cases hcancelled : t.isCancelled id = true
  · rw [if_pos hcancelled, if_pos (hlast.2 hcancelled)]
    exact hbefore.append_right _
  · rw [if_neg hcancelled, if_neg (hlast.not.2 hcancelled)]
    exact hbefore.append_right _

theorem count_filterMap_label (label : String) (cs : List Callback) :
    (cs.filterMap Callback.label?).count label = cs.count (.notify label) := by
  rw [List.count_filterMap, List.count]
  refine List.countP_congr fun c _ => ?_
  cases c <;> simp [Callback.label?]

section Cancel

variable {t u : CancelTree} {rs : List Registration}

/-- The guard is held, and the token comes to be cancelled. -/
def comesToFire (t u : CancelTree) (r : Registration) : Bool :=
  r.held && !t.isCancelled r.token && u.isCancelled r.token

/-- What does not wait any longer has come to fire. -/
theorem filter_waiting_perm (h : t.Later u) (rs : List Registration) :
    (rs.filter fun r => r.held && !t.isCancelled r.token).Perm
      (rs.filter (comesToFire t u) ++ rs.filter fun r => r.held && !u.isCancelled r.token) := by
  have hcut := List.filter_append_perm (fun r => u.isCancelled r.token)
    (rs.filter fun r => r.held && !t.isCancelled r.token)
  rw [List.filter_filter, List.filter_filter] at hcut
  refine hcut.symm.trans (List.Perm.of_eq ?_)
  congr 1
  · exact List.filter_congr fun r _ => Bool.and_comm _ _
  · refine List.filter_congr fun r _ => ?_
    cases ht : t.isCancelled r.token with
    | false => simp [Bool.and_comm]
    | true => simp [h r.token ht]

theorem labels_cancel_perm (h : Listed t rs) (token : TokenId) : (t.cancel token).2.Perm
    (((rs.filter (comesToFire t (t.cancel token).1)).map (·.callback)).filterMap Callback.label?) := by
  refine List.perm_iff_count.2 fun label => ?_
  have hcount : (t.cancel token).2.count label + (t.cancel token).1.waiting label =
      [Callback.cancel token].count (.notify label) + t.waiting label := CancelTree.count_runAll h.nodup_ids
  have hlisted : Listed (t.cancel token).1 rs := h.alike (CancelTree.alike_runAll t _)
  have hsplit := ((filter_waiting_perm (CancelTree.later_cancel t token) rs).map (·.callback)).count_eq (.notify label)
  have hnone : [Callback.cancel token].count (.notify label) = 0 := by simp
  rw [h.waiting_eq, hlisted.waiting_eq, hnone] at hcount
  rw [List.map_append, List.count_append] at hsplit
  rw [count_filterMap_label]
  omega

end Cancel

theorem Accounts.cancel (h : s.Accounts D) (hs : s.Sound) (token : TokenId) :
    (s.perform (.cancel token)).ran.Perm (labelsAt (fun n => D n ∨ (s.perform (.cancel token)).Fires n)
      (s.registrations.map (·.callback))) := by
  have hplaces : ∀ n r, s.registrations[n]? = some r →
      (¬D n ∧ (s.perform (.cancel token)).Fires n ↔ comesToFire s.tree (s.tree.cancel token).1 r = true) := by
    intro n r hr
    rw [comesToFire, Bool.and_eq_true, Bool.and_eq_true, Bool.not_eq_true']
    constructor
    · rintro ⟨hD, x, hx, hheld, hcancelled⟩
      cases hr.symm.trans hx
      refine ⟨⟨hheld, Bool.eq_false_iff.2 fun hold => ?_⟩, hcancelled⟩
      exact hD (h.fired n ⟨r, hr, hheld, hold⟩)
    · rintro ⟨⟨hheld, hlive⟩, hcancelled⟩
      refine ⟨fun hD => ?_, r, hr, hheld, hcancelled⟩
      obtain ⟨x, hx, hold⟩ := h.cancelled n hD
      cases hr.symm.trans hx
      exact Bool.false_ne_true (hlive.symm.trans hold)
  refine (h.ran.append (labels_cancel_perm hs.listed token)).trans ?_
  rw [← labelsAt_eq hplaces]
  exact (labelsAt_or D _ _).symm

theorem Accounts.perform (h : s.Accounts D) (hs : s.Sound) (op : TokenOp) :
    (s.perform op).Accounts fun n => D n ∨ (s.perform op).Fires n := by
  have hgrows := hs.grows op
  refine ⟨?_, fun n hn => .inr hn, fun n hn => ?_⟩
  · cases op with
    | create =>
        refine h.keep rfl rfl ?_
        rintro n ⟨r, hr, hheld, hcancelled⟩
        exact ⟨r, hr, hheld, (CancelTree.isCancelled_new hs.listed.get?_next _).symm.trans hcancelled⟩
    | child parent =>
        rw [Client.perform]
        split
        · next hparent =>
            refine h.enroll (hs.registers_child hparent) (CancelTree.isCancelled_new hs.listed.get?_next) ?_
            rintro c ⟨⟩
            exact ⟨Nat.ne_of_lt hparent, fun r hr => Nat.ne_of_lt (hs.listed.guard r hr).2⟩
        · exact h.keep rfl rfl fun _ => id
    | watch token label =>
        rw [Client.perform]
        split
        · next htoken => exact h.enroll (hs.registers_watch htoken label) (fun _ => rfl) nofun
        · exact h.keep rfl rfl fun _ => id
    | letGo i =>
        rw [Client.perform]
        split
        · exact h.keep rfl rfl fun _ => id
        · next g hg =>
            have hset := hs.listed.set_eq hg
            refine h.keep rfl (by dsimp only; rw [hset]; simp [Function.comp_def]) ?_
            rintro n ⟨r, hr, hheld, hcancelled⟩
            rw [hset, List.getElem?_map] at hr
            obtain ⟨x, hx, rfl⟩ := Option.map_eq_some_iff.1 hr
            rw [Registration.held_letGo, Bool.and_eq_true] at hheld
            rw [Registration.token_letGo, CancelTree.isCancelled_release] at hcancelled
            exact ⟨x, hx, hheld.2, hcancelled⟩
    | cancel token => exact h.cancel hs token
  · rcases hn with hD | ⟨r, hr, -, hcancelled⟩
    · obtain ⟨r, hr, hcancelled⟩ := h.cancelled n hD
      obtain ⟨r', hr', htoken⟩ := hgrows.kept n r hr
      exact ⟨r', hr', htoken ▸ hgrows.later _ hcancelled⟩
    · exact ⟨r, hr, hcancelled⟩

theorem due_concat (ops : List TokenOp) (op : TokenOp) (n : Nat) :
    Due (ops ++ [op]) n ↔ Due ops n ∨ (after (ops ++ [op])).Fires n := by
  constructor
  · rintro ⟨earlier, hprefix, hfires⟩
    rcases List.prefix_concat_iff.1 hprefix with rfl | hprefix
    · exact .inr hfires
    · exact .inl ⟨earlier, hprefix, hfires⟩
  · rintro (⟨earlier, hprefix, hfires⟩ | hfires)
    · exact ⟨earlier, hprefix.trans (List.prefix_append _ _), hfires⟩
    · exact ⟨_, List.prefix_refl _, hfires⟩

theorem accounts_after (ops : List TokenOp) : (after ops).Accounts (Due ops) := by
  induction ops using List.reverseRecOn with
  | nil =>
      have hnone : ∀ n, ¬(after []).Fires n := by
        rintro n ⟨r, hr, -⟩
        cases hr
      refine ⟨List.Perm.refl _, fun n hn => absurd hn (hnone n), ?_⟩
      rintro n ⟨earlier, hprefix, hfires⟩
      obtain rfl := List.prefix_nil.1 hprefix
      exact absurd hfires (hnone n)
  | append_singleton ops op ih =>
      have hdue : Due (ops ++ [op]) = fun n => Due ops n ∨ ((after ops).perform op).Fires n := by
        funext n
        rw [← after_concat]
        exact propext (due_concat ops op n)
      rw [hdue, after_concat]
      exact ih.perform (sound_after ops) op

section Family

variable {t : CancelTree} {rs : List Registration} {p q c j token : TokenId}

theorem born_of_linked (h : Linked rs p c) : Born rs p c := by
  obtain ⟨r, hr, -, hlink⟩ := h
  exact ⟨r, hr, hlink⟩

theorem lt_of_born (h : Listed t rs) (hborn : Born rs p c) : p < c := by
  obtain ⟨r, hr, rfl, hcallback⟩ := hborn
  exact (h.child r hr c hcallback).1

theorem parent_unique (h : Listed t rs) (hp : Born rs p c) (hq : Born rs q c) : p = q := by
  obtain ⟨r, hr, rfl, hrc⟩ := hp
  obtain ⟨x, hx, rfl, hxc⟩ := hq
  have hchild (y : Registration) (hy : y.callback = .cancel c) : y.callback.child? = some c := by
    rw [hy]
    rfl
  rw [inj_on_of_nodup_filterMap h.parent hr hx (hchild r hrc) (hchild x hxc)]

theorem le_of_reach (h : Listed t rs) (hreach : ReflTransGen (Linked rs) p c) : p ≤ c := by
  induction hreach with
  | refl => exact Nat.le_refl p
  | tail _ hlink ih => exact Nat.le_of_lt (Nat.lt_of_le_of_lt ih (lt_of_born h (born_of_linked hlink)))

/-- Links lead to no ancestor and to no other child of a parent. -/
theorem not_ancestor_of_reach (h : Listed t rs) (hreach : ReflTransGen (Linked rs) token j) :
    ¬TransGen (Born rs) j token ∧ ∀ p, Born rs p token → Born rs p j → j = token := by
  constructor
  · intro hancestor
    have hlt : j < token := by
      clear hreach
      induction hancestor with
      | single hborn => exact lt_of_born h hborn
      | tail _ hborn ih => exact Nat.lt_trans ih (lt_of_born h hborn)
    exact Nat.lt_irrefl _ (Nat.lt_of_lt_of_le hlt (le_of_reach h hreach))
  · intro p htoken hj
    rcases hreach.cases_tail with heq | ⟨q, hreach, hlink⟩
    · exact heq
    · obtain rfl := parent_unique h (born_of_linked hlink) hj
      exact absurd (lt_of_born h htoken) (Nat.not_lt.2 (le_of_reach h hreach))

end Family

/-- What is cancelled stays so.  A child whose guard is held is cancelled if its parent is.  A call cancels the
token and what held links lead to from it, so no ancestor and no sibling.  What has run are the callbacks that
had to run, each once. -/
theorem cancellation_exact (ops : List TokenOp) :
    (∀ more j, (after ops).tree.isCancelled j = true → (after (ops ++ more)).tree.isCancelled j = true) ∧
    (∀ p c, Linked (after ops).registrations p c → (after ops).tree.isCancelled p = true →
      (after ops).tree.isCancelled c = true) ∧
    (∀ token j, j < (after ops).tree.next → ((after (ops ++ [.cancel token])).tree.isCancelled j = true ↔
      (after ops).tree.isCancelled j = true ∨ ReflTransGen (Linked (after ops).registrations) token j)) ∧
    (∀ token j, (after (ops ++ [.cancel token])).tree.isCancelled j = true → (after ops).tree.isCancelled j = false →
      ¬TransGen (Born (after ops).registrations) j token ∧
        ∀ p, Born (after ops).registrations p token → Born (after ops).registrations p j → j = token) ∧
    (after ops).ran.Perm (labelsAt (Due ops) ((after ops).registrations.map (·.callback))) := by
  have hsound := sound_after ops
  have hlink : (after ops).tree.Link = Linked (after ops).registrations := by
    funext p c
    exact propext hsound.listed.link_iff
  refine ⟨fun more j hj => (grows_after ops more).later j hj, fun p c hlinked hp => ?_, fun token j hj => ?_,
    fun token j hj hlive => ?_, (accounts_after ops).ran⟩
  · exact hsound.closed p c hp (hsound.listed.link_iff.2 hlinked)
  · rw [after_concat, ← hlink]
    refine (CancelTree.isCancelled_runAll_iff (hsound.closed.upTo [.cancel token])
      (hsound.listed.isSome_get?_iff.2 hj)).trans ?_
    simp
  · rw [after_concat] at hj
    rcases CancelTree.reached_of_runAll hj with hold | ⟨i, hi, hreach⟩
    · cases hlive.symm.trans hold
    · cases List.mem_singleton.1 hi
      rw [hlink] at hreach
      exact not_ancestor_of_reach hsound.listed hreach

/-- Two tokens, a callback with the second one, and what comes of cancelling the first. -/
theorem cancellation_exact_of_child :
    Linked (after [.create, .child 0, .watch 1 "a"]).registrations 0 1 ∧
      (after [.create, .child 0, .watch 1 "a", .cancel 0]).tree.isCancelled 1 = true ∧
      (after [.create, .child 0, .watch 1 "a", .cancel 0]).ran = ["a"] := by
  let rs : List Registration := [⟨0, .cancel 1, ⟨0, 0⟩, true⟩, ⟨1, .notify "a", ⟨1, 0⟩, true⟩]
  have hrs : (after [.create, .child 0, .watch 1 "a"]).registrations = rs := by rfl
  have hlinked : Linked (after [.create, .child 0, .watch 1 "a"]).registrations 0 1 := by
    rw [hrs]
    exact ⟨_, List.mem_cons_self, rfl, rfl, rfl⟩
  have hcancel := (cancellation_exact [.create, .child 0, .watch 1 "a"]).2.2.1 0
  have hfirst := (hcancel 0 (by decide)).2 (.inr .refl)
  have hsecond := (hcancel 1 (by decide)).2 (.inr (.single hlinked))
  have hran := (cancellation_exact [.create, .child 0, .watch 1 "a", .cancel 0]).2.2.2.2
  have hdue : ∀ n < rs.length, Due [.create, .child 0, .watch 1 "a", .cancel 0] n := by
    intro n hn
    refine ⟨_, List.prefix_refl _, ?_⟩
    match n, hn with
    | 0, _ => exact ⟨⟨0, .cancel 1, ⟨0, 0⟩, true⟩, hrs ▸ rfl, rfl, hfirst⟩
    | 1, _ => exact ⟨⟨1, .notify "a", ⟨1, 0⟩, true⟩, hrs ▸ rfl, rfl, hsecond⟩
  have hcallbacks : (after [.create, .child 0, .watch 1 "a", .cancel 0]).registrations.map (·.callback) =
      rs.map (·.callback) := congrArg (List.map Registration.callback) hrs
  rw [hcallbacks, labelsAt_eq_filterMap (p := fun _ => true)] at hran
  · exact ⟨hlinked, hsecond, List.perm_singleton.1 hran⟩
  · intro x hx
    have hlt := (List.getElem?_eq_some_iff.1 (List.mem_zipIdx_iff_getElem?.1 hx)).1
    rw [List.length_map] at hlt
    exact iff_of_true (hdue x.2 hlt) rfl

end Client

end CommandShell
