import CommandShell.Environment
import CommandShell.Proofs.Dict

/-!
Environments that are shared through handles.  Main statement: after any calls through any handles, an
environment is a map from the small forms of names to the variables as they were last set.
-/

namespace CommandShell

open Text

namespace Environment

/-- What can be asked of an environment. -/
inductive Access where
  | set (name value : String)
  | get (name : String)
  | remove (name : String)
  | snapshot
  | size
  deriving DecidableEq

inductive Answer where
  | done
  | value (value : Option String)
  | variables (vars : List Variable)
  | number (n : Nat)
  deriving DecidableEq

/-- The answer, and the environment afterwards. -/
def perform (env : Environment) : Access → Answer × Environment
  | .set name value => (.done, env.set name value)
  | .get name => (.value (env.get? name), env)
  | .remove name => (.value (env.take name).1, (env.take name).2)
  | .snapshot => (.variables env.snapshot, env)
  | .size => (.number env.size, env)

/-- The access decides what is under a small form of names. -/
def Access.Decides (key : String) : Access → Prop
  | .set name _ | .remove name => lowercase name = key
  | .get _ | .snapshot | .size => False

end Environment

/-- The environments there are, and the number of the one that each handle leads to. -/
structure Handles where
  environments : List Environment := []
  targets : List Nat := []

namespace Handles

open Environment

/-- A new environment with a handle of its own. -/
def create (s : Handles) : Handles :=
  ⟨s.environments ++ [⟨.empty⟩], s.targets ++ [s.environments.length]⟩

/-- One more handle, which leads where the handle `h` does. -/
def clone (s : Handles) (h : Nat) : Handles :=
  { s with targets := s.targets ++ s.targets[h]?.toList }

/-- A call through a handle; there is no answer if there is no such handle. -/
def call (s : Handles) (h : Nat) (a : Access) : Option (Answer × Handles) :=
  match s.targets[h]? with
  | none => none
  | some e =>
    match s.environments[e]? with
    | none => none
    | some env => some ((env.perform a).1, { s with environments := s.environments.set e (env.perform a).2 })

/-- The calls so far, each with the number of the environment that its handle leads to. -/
abbrev Log := List (Nat × Access)

/-- The state after calls through handles, which may be cloned at any time, of any number of environments. -/
inductive After : Log → Handles → Prop
  | start : After [] {}
  | create {log : Log} {s : Handles} : After log s → After log s.create
  | clone {log : Log} {s : Handles} {h : Nat} : After log s → After log (s.clone h)
  | call {log : Log} {s t : Handles} {h e : Nat} {a : Access} {answer : Answer} : After log s →
      s.targets[h]? = some e → s.call h a = some (answer, t) → After (log ++ [(e, a)]) t

/-- The variable was set in the environment `e`, and nothing of an equal name was set or removed since. -/
def Stands (log : Log) (e : Nat) (v : Variable) : Prop :=
  ∃ before later, log = before ++ (e, .set v.name v.value) :: later ∧
    ∀ a, (e, a) ∈ later → ¬a.Decides (lowercase v.name)

section Stands

variable {log : Log} {e d : Nat} {a : Access} {v : Variable}

theorem stands_nil : ¬Stands [] e v := by
  rintro ⟨before, later, heq, -⟩
  exact List.append_ne_nil_of_right_ne_nil before (List.cons_ne_nil _ _) heq.symm

theorem stands_concat : Stands (log ++ [(d, a)]) e v ↔
    (d = e ∧ a = .set v.name v.value) ∨ (Stands log e v ∧ ¬(d = e ∧ a.Decides (lowercase v.name))) := by
  constructor
  · rintro ⟨before, later, heq, hlater⟩
    rcases List.eq_nil_or_concat later with rfl | ⟨later, last, rfl⟩
    · obtain ⟨-, hlast⟩ := List.append_inj' heq rfl
      cases hlast
      exact .inl ⟨rfl, rfl⟩
    · have hsplit : log ++ [(d, a)] = (before ++ (e, .set v.name v.value) :: later) ++ [last] := by
        simpa using heq
      obtain ⟨rfl, hlast⟩ := List.append_inj' hsplit rfl
      cases hlast
      refine .inr ⟨⟨before, later, rfl, fun b hb => hlater b (by simp [hb])⟩, ?_⟩
      rintro ⟨rfl, hdecides⟩
      exact hlater a (by simp) hdecides
  · rintro (⟨rfl, rfl⟩ | ⟨⟨before, later, rfl, hlater⟩, hlast⟩)
    · exact ⟨log, [], rfl, nofun⟩
    · refine ⟨before, later ++ [(d, a)], by simp, fun b hb hdecides => ?_⟩
      rcases List.mem_append.1 hb with hb | hb
      · exact hlater b hb hdecides
      · cases List.mem_singleton.1 hb
        exact hlast ⟨rfl, hdecides⟩

theorem mem_of_stands (h : Stands log e v) : (e, Access.set v.name v.value) ∈ log := by
  obtain ⟨before, later, rfl, -⟩ := h
  exact List.mem_append_right _ List.mem_cons_self

end Stands

/-- The environment holds, under the small forms of their names, the variables that stand. -/
def Holds (log : Log) (e : Nat) (env : Environment) : Prop :=
  ∀ key v, env.vars.get? key = some v ↔ lowercase v.name = key ∧ Stands log e v

section Holds

variable {log : Log} {e d : Nat} {a : Access} {env : Environment}

theorem Holds.perform (h : Holds log e env) (a : Access) : Holds (log ++ [(e, a)]) e (env.perform a).2 := by
  intro key v
  rw [stands_concat]
  cases a with
  | set name value =>
      rw [Environment.perform, Environment.set, Dict.get?_insert]
      by_cases hkey : key = lowercase name
      · rw [if_pos hkey, Option.some.injEq]
        constructor
        · rintro rfl
          exact ⟨hkey.symm, .inl ⟨rfl, rfl⟩⟩
        · rintro ⟨hname, ⟨-, heq⟩ | ⟨-, hnot⟩⟩
          · cases heq
            rfl
          · exact absurd ⟨rfl, hkey.symm.trans hname.symm⟩ hnot
      · rw [if_neg hkey, h]
        refine and_congr_right fun hname => ?_
        constructor
        · exact fun hstands => .inr ⟨hstands, fun hdecides => hkey (hname.symm.trans hdecides.2.symm)⟩
        · rintro (⟨-, heq⟩ | ⟨hstands, -⟩)
          · cases heq
            exact absurd hname.symm hkey
          · exact hstands
  | remove name =>
      rw [Environment.perform, Environment.take, Environment.remove, Dict.get?_erase]
      by_cases hkey : key = lowercase name
      · rw [if_pos hkey]
        refine ⟨nofun, ?_⟩
        rintro ⟨hname, ⟨-, heq⟩ | ⟨-, hnot⟩⟩
        · cases heq
        · exact absurd ⟨rfl, hkey.symm.trans hname.symm⟩ hnot
      · rw [if_neg hkey, h]
        refine and_congr_right fun hname => ?_
        constructor
        · exact fun hstands => .inr ⟨hstands, fun hdecides => hkey (hname.symm.trans hdecides.2.symm)⟩
        · rintro (⟨-, heq⟩ | ⟨hstands, -⟩)
          · cases heq
          · exact hstands
  | get | snapshot | size => simp [Environment.perform, h key v, Access.Decides]

theorem Holds.of_ne (h : Holds log e env) (hne : d ≠ e) : Holds (log ++ [(d, a)]) e env := by
  intro key v
  simp [stands_concat, hne, h key v]

/-- The variables of an environment, in the order of the small forms of their names. -/
theorem Holds.snapshot (h : Holds log e env) :
    (∀ v, v ∈ env.snapshot ↔ Stands log e v) ∧
      env.snapshot.Pairwise fun v w => lowercase v.name < lowercase w.name := by
  have hentry : ∀ x, x ∈ env.vars.entries ↔ lowercase x.2.name = x.1 ∧ Stands log e x.2 := by
    intro x
    rw [← h, Dict.get?_eq_some_iff]
  constructor
  · intro v
    rw [Environment.snapshot, Dict.values, List.mem_map]
    constructor
    · rintro ⟨x, hx, rfl⟩
      exact ((hentry x).1 hx).2
    · intro hstands
      exact ⟨(lowercase v.name, v), (hentry _).2 ⟨rfl, hstands⟩, rfl⟩
  · rw [Environment.snapshot, Dict.values, List.pairwise_map]
    refine env.vars.ascending.imp_of_mem fun {x y} hx hy hlt => ?_
    rwa [((hentry x).1 hx).1, ((hentry y).1 hy).1]

theorem Holds.get? (h : Holds log e env) (name value : String) : env.get? name = some value ↔
    ∃ v, Stands log e v ∧ lowercase v.name = lowercase name ∧ v.value = value := by
  rw [Environment.get?, Option.map_eq_some_iff]
  exact exists_congr fun v => by rw [h, and_right_comm, and_assoc, and_comm (a := lowercase _ = _)]; tauto

end Holds

/-- Every handle leads to an environment, calls are made only to those there are, and each one holds what
stands in it. -/
structure Sound (log : Log) (s : Handles) : Prop where
  targets : ∀ e ∈ s.targets, e < s.environments.length
  called : ∀ x ∈ log, x.1 < s.environments.length
  holds : ∀ e env, s.environments[e]? = some env → Holds log e env

section Sound

variable {log : Log} {s t : Handles} {h e : Nat} {a : Access} {answer : Answer}

theorem Sound.create (hs : Sound log s) : Sound log s.create := by
  have hlength : s.create.environments.length = s.environments.length + 1 := List.length_append
  refine ⟨fun e he => ?_, fun x hx => ?_, fun e env henv => ?_⟩
  · rw [hlength]
    rcases List.mem_append.1 he with he | he
    · exact Nat.lt_succ_of_lt (hs.targets e he)
    · rw [List.mem_singleton.1 he]
      exact Nat.lt_succ_self _
  · rw [hlength]
    exact Nat.lt_succ_of_lt (hs.called x hx)
  · rw [Handles.create, List.getElem?_append] at henv
    split at henv
    · exact hs.holds e env henv
    · next hnew =>
        obtain ⟨-, rfl⟩ : e - s.environments.length < 1 ∧ env = ⟨.empty⟩ := by
          rw [List.getElem?_singleton] at henv
          split at henv
          · next hzero => exact ⟨by omega, (Option.some.inj henv).symm⟩
          · cases henv
        intro key v
        refine ⟨nofun, ?_⟩
        rintro ⟨-, hstands⟩
        exact absurd (hs.called _ (mem_of_stands hstands)) hnew

theorem Sound.clone (hs : Sound log s) (h : Nat) : Sound log (s.clone h) := by
  refine ⟨fun e he => ?_, hs.called, hs.holds⟩
  rcases List.mem_append.1 he with he | he
  · exact hs.targets e he
  · exact hs.targets e (List.mem_of_getElem? (Option.mem_toList.1 he))

/-- A call through a handle that there is has an answer. -/
theorem Sound.call_eq (hs : Sound log s) (htarget : s.targets[h]? = some e) :
    ∃ env, s.environments[e]? = some env ∧ Holds log e env ∧ ∀ a, s.call h a =
      some ((env.perform a).1, { s with environments := s.environments.set e (env.perform a).2 }) := by
  have henv := List.getElem?_eq_getElem (hs.targets e (List.mem_of_getElem? htarget))
  refine ⟨_, henv, hs.holds _ _ henv, fun a => ?_⟩
  rw [call, htarget]
  dsimp only
  rw [henv]

theorem Sound.call (hs : Sound log s) (htarget : s.targets[h]? = some e)
    (hcall : s.call h a = some (answer, t)) : Sound (log ++ [(e, a)]) t := by
  obtain ⟨env, henv, hholds, heq⟩ := hs.call_eq htarget
  rw [heq a] at hcall
  cases hcall
  have he := hs.targets e (List.mem_of_getElem? htarget)
  refine ⟨fun d hd => ?_, fun x hx => ?_, fun d denv hd => ?_⟩
  · rw [List.length_set]
    exact hs.targets d hd
  · rw [List.length_set]
    rcases List.mem_append.1 hx with hx | hx
    · exact hs.called x hx
    · rwa [List.mem_singleton.1 hx]
  · by_cases hde : e = d
    · subst hde
      rw [List.getElem?_set_self he] at hd
      cases hd
      exact hholds.perform a
    · rw [List.getElem?_set_ne hde] at hd
      exact (hs.holds d denv hd).of_ne hde

theorem sound_of_after (h : After log s) : Sound log s := by
  induction h with
  | start => exact ⟨nofun, nofun, nofun⟩
  | create _ ih => exact ih.create
  | clone _ ih => exact ih.clone _
  | call _ htarget hcall ih => exact ih.call htarget hcall

theorem After.exists_call (hs : After log s) (htarget : s.targets[h]? = some e) (a : Access) :
    ∃ t, After (log ++ [(e, a)]) t ∧ t.targets = s.targets := by
  obtain ⟨env, -, -, hcall⟩ := (sound_of_after hs).call_eq htarget
  exact ⟨_, hs.call htarget (hcall a), rfl⟩

end Sound

/-- Whatever has been done through whatever handles, an environment is a map whose keys are the small forms of
names: a name has the value that it was last set to, unless it was removed since, removing it answers with that
value, and the snapshot has each variable that stands, as it was written when it was last set, once and in
ascending order of the small forms. -/
theorem map_of_after {log : Log} {s : Handles} {h e : Nat} (hafter : After log s)
    (htarget : s.targets[h]? = some e) :
    (∀ name, ∃ value t, s.call h (.get name) = some (.value value, s) ∧
      s.call h (.remove name) = some (.value value, t) ∧
      ∀ text,
        value = some text ↔ ∃ v, Stands log e v ∧ lowercase v.name = lowercase name ∧ v.value = text) ∧
    ∃ vars, s.call h .snapshot = some (.variables vars, s) ∧ (∀ v, v ∈ vars ↔ Stands log e v) ∧
      (vars.Pairwise fun v w => lowercase v.name < lowercase w.name) ∧
      s.call h .size = some (.number vars.length, s) := by
  obtain ⟨env, henv, hholds, hcall⟩ := (sound_of_after hafter).call_eq htarget
  have hkept : s.environments.set e env = s.environments := by
    obtain ⟨he, rfl⟩ := List.getElem?_eq_some_iff.1 henv
    exact List.set_getElem_self he
  have hsame : ({ s with environments := s.environments.set e env } : Handles) = s := by rw [hkept]
  refine ⟨fun name => ⟨env.get? name, _, ?_, hcall _, hholds.get? name⟩, env.snapshot, ?_, hholds.snapshot.1,
    hholds.snapshot.2, ?_⟩
  · rw [hcall, perform, hsame]
  · rw [hcall, perform, hsame]
  · rw [hcall, perform, hsame, Environment.size, Dict.size, Environment.snapshot, Dict.values, List.length_map]

/-- A variable set through one handle, set again through a clone of it with its name in small letters, and one of
the same name in another environment. -/
def dottedNames : Log :=
  [(0, .set "İD" "1"), (0, .set "i\u0307d" "2"), (1, .set "İD" "3")]

theorem map_of_after_of_dotted_names : ∃ s, After dottedNames s ∧ s.targets[1]? = some 0 ∧
    (∃ t, s.call 1 (.get "İd") = some (.value (some "2"), s) ∧
      s.call 1 (.remove "İd") = some (.value (some "2"), t)) ∧
    s.call 1 .snapshot = some (.variables [⟨"i\u0307d", "2"⟩], s) ∧ s.call 1 .size = some (.number 1, s) := by
  have hcapital : lowercase "İD" = "i\u0307d" := by decide +kernel
  have hmixed : lowercase "İd" = "i\u0307d" := by decide +kernel
  have hsmall : lowercase "i\u0307d" = "i\u0307d" := by decide +kernel
  obtain ⟨s, hafter, htargets⟩ : ∃ s, After dottedNames s ∧ s.targets = [0, 0, 1] := by
    have hstart : After [] ⟨[⟨.empty⟩, ⟨.empty⟩], [0, 0, 1]⟩ := .create (.clone (h := 0) (.create .start))
    obtain ⟨s, hs, hfirst⟩ := hstart.exists_call (h := 0) rfl (.set "İD" "1")
    obtain ⟨t, ht, hsecond⟩ := hs.exists_call (h := 1) (by rw [hfirst]; rfl) (.set "i\u0307d" "2")
    obtain ⟨u, hu, hthird⟩ := ht.exists_call (h := 2) (by rw [hsecond, hfirst]; rfl) (.set "İD" "3")
    exact ⟨u, hu, by rw [hthird, hsecond, hfirst]⟩
  have htarget : s.targets[1]? = some 0 := by rw [htargets]; rfl
  have hstands (v : Variable) : Stands dottedNames 0 v ↔ v = ⟨"i\u0307d", "2"⟩ := by
    rw [show dottedNames = [] ++ [(0, .set "İD" "1")] ++ [(0, .set "i\u0307d" "2")] ++ [(1, .set "İD" "3")] from rfl,
      stands_concat, stands_concat, stands_concat]
    obtain ⟨name, value⟩ := v
    constructor
    · rintro (⟨h, -⟩ | ⟨⟨-, h⟩ | ⟨⟨-, h⟩ | ⟨h, -⟩, hnot⟩, -⟩)
      · cases h
      · cases h
        rfl
      · cases h
        exact absurd ⟨rfl, hsmall.trans hcapital.symm⟩ hnot
      · exact absurd h stands_nil
    · rintro ⟨⟩
      exact .inr ⟨.inl ⟨rfl, rfl⟩, nofun⟩
  obtain ⟨hnames, vars, hsnapshot, hvars, hascending, hsize⟩ := map_of_after hafter htarget
  obtain ⟨value, t, hget, hremove, hvalue⟩ := hnames "İd"
  obtain rfl : value = some "2" :=
    (hvalue "2").2 ⟨_, (hstands _).2 rfl, hsmall.trans hmixed.symm, rfl⟩
  obtain rfl : vars = [⟨"i\u0307d", "2"⟩] := by
    have hnodup : vars.Nodup := by
      refine hascending.imp fun hlt heq => ?_
      rw [heq] at hlt
      exact String.lt_irrefl _ hlt
    refine ((List.perm_ext_iff_of_nodup hnodup (List.nodup_singleton _)).2 fun v => ?_).eq_singleton
    rw [hvars, hstands, List.mem_singleton]
  exact ⟨s, hafter, htarget, ⟨t, hget, hremove⟩, hsnapshot, hsize⟩

end Handles

end CommandShell
