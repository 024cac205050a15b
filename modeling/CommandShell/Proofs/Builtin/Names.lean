import CommandShell.Host
import CommandShell.Proofs.Command.Resolving
import Mathlib.Data.List.DropRight

/-!
The names of the built-in commands.  Main statement: under every configuration the commands that are left on can be
registered, and each of their names stands for one of them, while all other names are unknown.
-/

namespace CommandShell

open Text

/-- What is after the last dot. -/
def afterLastDot (cs : List Char) : List Char := cs.rtakeWhile (· != '.')

theorem afterLastDot_of_notMem {cs : List Char} (h : '.' ∉ cs) : afterLastDot cs = cs := by
  refine List.rtakeWhile_eq_self_iff.2 fun c hc => ?_
  rw [bne_iff_ne]
  rintro rfl
  exact h hc

theorem afterLastDot_append {cs : List Char} (front : List Char) (h : '.' ∉ cs) :
    afterLastDot (front ++ '.' :: cs) = cs := by
  induction cs using List.reverseRecOn with
  | nil => exact List.rtakeWhile_concat_neg _ _ _ (by decide)
  | append_singleton cs c ih =>
      rw [List.mem_append, List.mem_singleton, not_or] at h
      rw [← List.cons_append, ← List.append_assoc, afterLastDot,
        List.rtakeWhile_concat_pos _ _ _ (by simpa using Ne.symm h.2)]
      exact congrArg (· ++ [c]) (ih h.1)

namespace Entry

variable {e : Entry} {name : String}

theorem answersTo_iff : e.answersTo name = true ↔ foldAscii e.name = foldAscii name ∨
    (e.group.qualifier ≠ "" ∧ foldAscii e.group.qualifier ++ '.' :: foldAscii e.name = foldAscii name) ∨
    (e.group.isCore = true ∧ '.' :: foldAscii e.name = foldAscii name) := by
  have hdotted : foldAscii ("." ++ e.name) = '.' :: foldAscii e.name := by
    rw [foldAscii_append]
    rfl
  have hqualified :
      ((if e.group.qualifier.isEmpty then [] else [e.qualifiedName]).any (eqIgnoringCase · name)) = true ↔
      e.group.qualifier ≠ "" ∧ foldAscii e.group.qualifier ++ '.' :: foldAscii e.name = foldAscii name := by
    by_cases hq : e.group.qualifier = ""
    · simp [hq]
    · have hfold : foldAscii e.qualifiedName = foldAscii e.group.qualifier ++ '.' :: foldAscii e.name := by
        rw [qualifiedName, if_neg (by simpa using hq)]
        simp only [toString, foldAscii_append, List.append_assoc]
        rfl
      rw [if_neg (by simpa using hq), List.any_cons, List.any_nil, Bool.or_false, eqIgnoringCase_iff, hfold]
      exact (and_iff_right hq).symm
  rw [answersTo, names, List.any_cons, List.any_append, Bool.or_eq_true, Bool.or_eq_true, eqIgnoringCase_iff,
    hqualified]
  cases e.group.isCore <;> simp [eqIgnoringCase_iff, hdotted]

/-- A plain name without a dot is what stands after the last dot of each name of the command. -/
theorem afterLastDot_of_answersTo (hdot : '.' ∉ e.name.toList) (h : e.answersTo name = true) :
    afterLastDot (foldAscii name) = foldAscii e.name := by
  have hplain : '.' ∉ foldAscii e.name := mt dot_mem_foldAscii.1 hdot
  rcases answersTo_iff.1 h with heq | ⟨-, heq⟩ | ⟨-, heq⟩
  · rw [← heq, afterLastDot_of_notMem hplain]
  · rw [← heq, afterLastDot_append _ hplain]
  · rw [← heq]
    exact afterLastDot_append [] hplain

end Entry

namespace Registry

variable {r : Registry} {found : Registered} {name : String}

theorem resolve_eq_unknown (h : ∀ a ∈ r.commands, a.entry.answersTo name = false) :
    r.resolve name = .error (.unknownCommand name) := by
  have hnone : r.commands.filter (·.entry.answersTo name) = [] := by
    rw [List.filter_eq_nil_iff]
    exact fun a ha => by simp [h a ha]
  rw [resolve, Entry.select, hnone]

/-- Commands without dots in their plain names, which differ not only in case, have no name in common. -/
theorem resolve_of_answersTo (hdistinct : (r.commands.map fun a => foldAscii a.command.name).Nodup)
    (hdot : ∀ a ∈ r.commands, '.' ∉ a.command.name.toList) (hfound : found ∈ r.commands)
    (hname : found.entry.answersTo name = true) : r.resolve name = .ok found := by
  refine resolve_eq_ok_iff.2 (filter_eq_singleton hdistinct.of_map hfound hname fun a ha hanswers => ?_)
  refine List.inj_on_of_nodup_map hdistinct ha hfound ?_
  exact (Entry.afterLastDot_of_answersTo (hdot a ha) hanswers).symm.trans
    (Entry.afterLastDot_of_answersTo (hdot found hfound) hname)

end Registry

namespace Builtin

variable {config : CommandsConfig} {command : Command} {name : String}

/-- A built-in command as it is registered. -/
def registered (config : CommandsConfig) (command : Command) : Registered := ⟨command, group config⟩

/-- The name is one of a built-in command's in some letter case: the plain one, the one that starts with a dot, or
the one with the qualifier and a dot before it. -/
def IsNameOf (config : CommandsConfig) (command : Command) (name : String) : Prop :=
  foldAscii name = foldAscii command.name ∨ foldAscii name = foldAscii ("." ++ command.name) ∨
    foldAscii name = foldAscii (config.groupQualifier ++ "." ++ command.name)

theorem isNameOf_iff : IsNameOf config command name ↔ (registered config command).entry.answersTo name = true := by
  have hdotted : foldAscii ("." ++ command.name) = '.' :: foldAscii command.name := by
    rw [foldAscii_append]
    rfl
  have hqualified : foldAscii (config.groupQualifier ++ "." ++ command.name) =
      foldAscii config.groupQualifier ++ '.' :: foldAscii command.name := by
    rw [foldAscii_append, foldAscii_append, List.append_assoc]
    rfl
  rw [Entry.answersTo_iff, IsNameOf, hdotted, hqualified, eq_comm (a := foldAscii name),
    eq_comm (a := foldAscii name), eq_comm (a := foldAscii name)]
  by_cases hq : config.groupQualifier = ""
  · simp [registered, Registered.entry, group, hq, foldAscii]
  · simp [registered, Registered.entry, group, hq, or_comm]

theorem nodup_names : (all.map fun command => foldAscii command.name).Nodup := by
  refine List.pairwise_map.2 (names_distinct.imp fun {a b} hne heq => ?_)
  rw [eqIgnoringCase_iff.2 heq] at hne
  cases hne

theorem register_eq (config : CommandsConfig) :
    register config {} = (.ok (), ⟨(enabled config).map (registered config)⟩) :=
  Registry.registerAll_eq nofun (names_distinct.filter _)

theorem mem_enabled : command ∈ enabled config ↔ command ∈ all ∧ config.isDisabled command.name = false := by
  simp [enabled]

/-- The built-in commands can be registered whatever qualifies their names and whichever are disabled, so that there
is always a host.  Those that are not disabled are registered, and of these each one is what its names stand for.
All other names are unknown, those of the disabled commands too. -/
theorem resolve_of_config (config : Config) (shared : Shared) :
    ∃ registry, register config.commands {} = (.ok (), registry) ∧
      Host.new config shared = .ok { config, registry, shared } ∧
      (∀ found ∈ registry.commands, ∃ command ∈ all, found = registered config.commands command) ∧
      (∀ command ∈ all, registered config.commands command ∈ registry.commands ↔
        config.commands.isDisabled command.name = false) ∧
      (∀ command ∈ all, config.commands.isDisabled command.name = false →
        ∀ name, IsNameOf config.commands command name →
          registry.resolve name = .ok (registered config.commands command)) ∧
      (∀ command ∈ all, config.commands.isDisabled command.name = true →
        ∀ name, IsNameOf config.commands command name → registry.resolve name = .error (.unknownCommand name)) ∧
      ∀ name, (∀ command ∈ all, ¬IsNameOf config.commands command name) →
        registry.resolve name = .error (.unknownCommand name) := by
  have hregister := register_eq config.commands
  have hmem : ∀ command,
      registered config.commands command ∈ (enabled config.commands).map (registered config.commands) ↔
      command ∈ enabled config.commands := by
    intro command
    constructor
    · intro h
      obtain ⟨other, hother, heq⟩ := List.mem_map.1 h
      cases heq
      exact hother
    · exact List.mem_map_of_mem
  -- a name of two built-in commands would be a name of one command
  have hinj : ∀ a ∈ all, ∀ b ∈ all, ∀ name,
      IsNameOf config.commands a name → IsNameOf config.commands b name → a = b := by
    intro a ha b hb name hna hnb
    refine List.inj_on_of_nodup_map nodup_names ha hb ?_
    exact (Entry.afterLastDot_of_answersTo (dot_notMem_name ha) (isNameOf_iff.1 hna)).symm.trans
      (Entry.afterLastDot_of_answersTo (dot_notMem_name hb) (isNameOf_iff.1 hnb))
  have hunknown : ∀ name, (∀ command ∈ enabled config.commands, ¬IsNameOf config.commands command name) →
      Registry.resolve ⟨(enabled config.commands).map (registered config.commands)⟩ name =
        .error (.unknownCommand name) := by
    intro name hnone
    refine Registry.resolve_eq_unknown (List.forall_mem_map.2 fun command hcommand => ?_)
    rw [Bool.eq_false_iff, Ne, ← isNameOf_iff]
    exact hnone command hcommand
  refine ⟨_, hregister, ?_, ?_, ?_, ?_, ?_, ?_⟩
  · rw [Host.new, hregister]
  · refine List.forall_mem_map.2 fun command hcommand => ⟨command, (mem_enabled.1 hcommand).1, rfl⟩
  · intro command hcommand
    rw [hmem, mem_enabled, and_iff_right hcommand]
  · intro command hcommand hon name hname
    refine Registry.resolve_of_answersTo ?_ ?_ ((hmem command).2 (mem_enabled.2 ⟨hcommand, hon⟩))
      (isNameOf_iff.1 hname)
    · rw [List.map_map]
      exact nodup_names.sublist (List.filter_sublist.map _)
    · exact List.forall_mem_map.2 fun other hother => dot_notMem_name (mem_enabled.1 hother).1
  · intro command hcommand hoff name hname
    refine hunknown name fun other hother hnameOther => ?_
    obtain ⟨hother, hon⟩ := mem_enabled.1 hother
    rw [hinj other hother command hcommand name hnameOther hname, hoff] at hon
    cases hon
  · intro name hnone
    exact hunknown name fun command hcommand => hnone command (mem_enabled.1 hcommand).1

end Builtin

end CommandShell
