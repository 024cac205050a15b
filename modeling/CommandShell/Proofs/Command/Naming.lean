import CommandShell.Builtin.All
import Mathlib.Data.List.Basic

/-!
The names that the commands of a registry answer to.  Main statement: whatever qualifies the names of the
built-in commands and whichever of them are disabled, they can be registered, and each one that is enabled
is found under its plain name.
-/

namespace CommandShell

open Text

theorem foldAscii_append (a b : String) : foldAscii (a ++ b) = foldAscii a ++ foldAscii b := by
  simp [foldAscii]

/-- No capital letter becomes a dot. -/
theorem toLower_eq_dot {c : Char} : c.toLower = '.' ↔ c = '.' := by
  constructor
  · intro h
    by_cases hupper : c.val ≥ 'A'.val ∧ c.val ≤ 'Z'.val
    · rw [show c.toLower = _ from dif_pos hupper] at h
      have hval : c.val + 32 = 46 := congrArg Char.val h
      have hleast : 65 ≤ c.val.toNat := UInt32.le_iff_toNat_le.1 hupper.1
      have hmost : c.val.toNat ≤ 90 := UInt32.le_iff_toNat_le.1 hupper.2
      have hsum : (c.val.toNat + 32) % 2 ^ 32 = 46 := congrArg UInt32.toNat hval
      omega
    · rwa [show c.toLower = c from dif_neg hupper] at h
  · rintro rfl
    rfl

theorem dot_mem_foldAscii {s : String} : '.' ∈ foldAscii s ↔ '.' ∈ s.toList := by
  simp [foldAscii, toLower_eq_dot]

namespace Entry

/-- A name without a dot is the plain name of each command that answers to it. -/
theorem answersTo_eq {e : Entry} {name : String} (h : '.' ∉ name.toList) :
    e.answersTo name = eqIgnoringCase e.name name := by
  have hother : ∀ other : String, '.' ∈ other.toList → eqIgnoringCase other name = false := by
    intro other hdot
    rw [Bool.eq_false_iff, Ne, eqIgnoringCase_iff]
    intro heq
    exact h (dot_mem_foldAscii.1 (heq ▸ dot_mem_foldAscii.2 hdot))
  rw [answersTo, names, List.any_cons, List.any_append]
  have hqualified : (if e.group.qualifier.isEmpty then [] else [e.qualifiedName]).any
      (eqIgnoringCase · name) = false := by
    split
    · rfl
    · next hne =>
        rw [List.any_cons, List.any_nil, Bool.or_false, qualifiedName, if_neg hne]
        exact hother _ (by simp [toString])
  have hcore : (if e.group.isCore then ["." ++ e.name] else []).any (eqIgnoringCase · name) = false := by
    split
    · simp [hother]
    · rfl
  rw [hqualified, hcore, Bool.or_false, Bool.or_false]

end Entry

namespace Registered

theorem eqIgnoringCase_qualifiedName (g : Group) (a b : Command) :
    eqIgnoringCase (Registered.entry ⟨a, g⟩).qualifiedName (Registered.entry ⟨b, g⟩).qualifiedName =
      eqIgnoringCase a.name b.name := by
  rw [Bool.eq_iff_iff, eqIgnoringCase_iff, eqIgnoringCase_iff]
  by_cases h : g.qualifier.isEmpty
  · simp [Entry.qualifiedName, entry, h]
  · simp [Entry.qualifiedName, entry, h, toString, foldAscii_append]

end Registered

namespace Registry

/-- Commands of one group whose names differ can be registered one after another. -/
theorem registerAll_eq {r : Registry} {g : Group} {cs : List Command}
    (hfresh : ∀ c ∈ cs, ∀ e ∈ r.entries,
      eqIgnoringCase e.qualifiedName (Registered.entry ⟨c, g⟩).qualifiedName = false)
    (hdistinct : cs.Pairwise fun a b => eqIgnoringCase a.name b.name = false) :
    r.registerAll g cs = (.ok (), ⟨r.commands ++ cs.map (⟨·, g⟩)⟩) := by
  induction cs generalizing r with
  | nil => simp [registerAll]
  | cons c cs ih =>
      obtain ⟨hc, hcs⟩ := List.pairwise_cons.1 hdistinct
      have hadded : r.register g c = .ok ⟨r.commands ++ [⟨c, g⟩]⟩ := by
        have hnone : (r.entries.any fun e =>
            eqIgnoringCase e.qualifiedName (Registered.entry ⟨c, g⟩).qualifiedName) = false := by
          rw [List.any_eq_false]
          intro e he
          simp [hfresh c (by simp) e he]
        simp only [register, hnone]
        rfl
      rw [registerAll, hadded]
      dsimp only
      rw [ih ?_ hcs]
      · simp
      · intro d hd e he
        rw [entries, List.map_append, List.mem_append] at he
        rcases he with he | he
        · exact hfresh d (by simp [hd]) e he
        · obtain rfl : e = (Registered.entry ⟨c, g⟩) := by simpa using he
          rw [Registered.eqIgnoringCase_qualifiedName]
          exact hc d hd

theorem filter_answersTo {g : Group} {cs : List Command} {command : Command} (h : command ∈ cs)
    (hdistinct : cs.Pairwise fun a b => eqIgnoringCase a.name b.name = false)
    (hdot : '.' ∉ command.name.toList) :
    (cs.map (Registered.mk · g)).filter (fun r => r.entry.answersTo command.name) = [⟨command, g⟩] := by
  induction cs with
  | nil => cases h
  | cons c cs ih =>
      obtain ⟨hc, hcs⟩ := List.pairwise_cons.1 hdistinct
      rw [List.map_cons, List.filter_cons, Entry.answersTo_eq hdot]
      rcases List.mem_cons.1 h with rfl | h
      · have hrest : (cs.map (Registered.mk · g)).filter
            (fun r => r.entry.answersTo command.name) = [] := by
          rw [List.filter_eq_nil_iff, List.forall_mem_map]
          intro d hd
          have hd := hc d hd
          rw [eqIgnoringCase_comm] at hd
          simp [Entry.answersTo_eq hdot, Registered.entry, hd]
        rw [hrest]
        simp [Registered.entry, eqIgnoringCase_refl]
      · rw [ih h hcs]
        simp [Registered.entry, hc command h]

end Registry

namespace Builtin

theorem names_distinct : all.Pairwise fun a b => eqIgnoringCase a.name b.name = false := by
  -- the names alone can be compared by evaluation, commands cannot
  have hnames : (all.map (·.name)).Pairwise fun a b => eqIgnoringCase a b = false := by decide
  rwa [List.pairwise_map] at hnames

theorem dot_notMem_name {command : Command} (h : command ∈ all) : '.' ∉ command.name.toList := by
  have hnames : ∀ name ∈ all.map (·.name), '.' ∉ name.toList := by decide
  exact hnames _ (List.mem_map_of_mem h)

/-- The built-in commands can always be registered, and each is found under its plain name. -/
theorem resolve_register (config : CommandsConfig) :
    ∃ registry, register config {} = (.ok (), registry) ∧
      ∀ command ∈ enabled config, registry.resolve command.name = .ok ⟨command, group config⟩ := by
  have hdistinct := names_distinct.filter fun command => !config.isDisabled command.name
  refine ⟨_, Registry.registerAll_eq nofun hdistinct, ?_⟩
  intro command hcommand
  have hdot := dot_notMem_name (List.mem_of_mem_filter hcommand)
  rw [Registry.resolve, Entry.select, List.nil_append, Registry.filter_answersTo hcommand hdistinct hdot]

end Builtin

end CommandShell
