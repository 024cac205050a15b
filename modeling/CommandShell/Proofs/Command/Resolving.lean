import CommandShell.Proofs.Command.Naming
import CommandShell.Proofs.Lists
import CommandShell.Sample

/-!
Commands called by their qualified names.  Main statement: whatever has been registered, a command is found
under its qualified name exactly if that name is not the plain name of another command or the name of one
that starts with a dot.
-/

namespace CommandShell

open Text

namespace Entry

variable {e : Entry} {name : String}

/-- The command has the name without being qualified by it: as its plain name, or as its name that starts
with a dot. -/
def borrows (e : Entry) (name : String) : Bool :=
  eqIgnoringCase e.name name || (e.group.isCore && eqIgnoringCase ("." ++ e.name) name)

theorem answersTo_qualifiedName (h : eqIgnoringCase e.qualifiedName name = true) : e.answersTo name = true := by
  by_cases hq : e.group.qualifier.isEmpty
  · rw [qualifiedName, if_pos hq] at h
    simp [answersTo, names, h]
  · simp [answersTo, names, hq, h]

theorem answersTo_eq_borrows (h : eqIgnoringCase e.qualifiedName name = false) : e.answersTo name = e.borrows name := by
  have hqualified : (if e.group.qualifier.isEmpty then [] else [e.qualifiedName]).any
      (eqIgnoringCase · name) = false := by
    split
    · rfl
    · simp [h]
  have hcore : (if e.group.isCore then ["." ++ e.name] else []).any (eqIgnoringCase · name) =
      (e.group.isCore && eqIgnoringCase ("." ++ e.name) name) := by
    cases e.group.isCore <;> simp
  rw [answersTo, names, List.any_cons, List.any_append, hqualified, hcore, Bool.false_or, borrows]

/-- A qualified name has a dot after its first character, so no command without a dot in its plain name
borrows it. -/
theorem borrows_eq_false {d : Entry} (hq : e.group.qualifier ≠ "") (hdot : '.' ∉ d.name.toList)
    (hname : eqIgnoringCase e.qualifiedName name = true) : d.borrows name = false := by
  have hempty : ¬e.group.qualifier.isEmpty := by simpa using hq
  obtain ⟨c, cs, hcs⟩ : ∃ c cs, foldAscii e.group.qualifier = c :: cs := by
    rw [foldAscii]
    rcases hlist : e.group.qualifier.toList with _ | ⟨c, cs⟩
    · exact absurd (String.toList_eq_nil_iff.1 hlist) hq
    · exact ⟨_, _, List.map_cons⟩
  have hfold : foldAscii name = c :: (cs ++ '.' :: foldAscii e.name) := by
    rw [← eqIgnoringCase_iff.1 hname, qualifiedName, if_neg hempty]
    simp only [toString, foldAscii_append, hcs, List.cons_append, List.append_assoc]
    rfl
  have hplain : '.' ∉ foldAscii d.name := mt dot_mem_foldAscii.1 hdot
  have hdotted : foldAscii ("." ++ d.name) = '.' :: foldAscii d.name := by
    rw [foldAscii_append]
    rfl
  rw [borrows, Bool.or_eq_false_iff, Bool.and_eq_false_imp]
  constructor
  · rw [Bool.eq_false_iff, Ne, eqIgnoringCase_iff, hfold]
    intro heq
    exact hplain (heq ▸ by simp)
  · intro _
    rw [Bool.eq_false_iff, Ne, eqIgnoringCase_iff, hfold, hdotted, List.cons.injEq]
    rintro ⟨-, heq⟩
    exact hplain (heq ▸ by simp)

end Entry

namespace Registry

variable {r r' : Registry} {group : Group} {command : Command} {name : String}

/-- Qualified names differ not only in case. -/
def Distinct (r : Registry) : Prop := (r.commands.map fun a => foldAscii a.entry.qualifiedName).Nodup

theorem Distinct.nodup (h : r.Distinct) : r.commands.Nodup := List.Nodup.of_map _ h

/-- Another command has the qualified name of this one. -/
def Taken (r : Registry) (added : Registered) : Prop :=
  ∃ a ∈ r.commands, foldAscii a.entry.qualifiedName = foldAscii added.entry.qualifiedName

theorem any_qualifiedName_iff {added : Registered} :
    (r.entries.any fun e => eqIgnoringCase e.qualifiedName added.entry.qualifiedName) = true ↔ r.Taken added := by
  rw [entries, List.any_map, List.any_eq_true]
  simp only [Function.comp_apply, eqIgnoringCase_iff, Taken]

theorem register_eq_ok_iff : r.register group command = .ok r' ↔
    ¬r.Taken ⟨command, group⟩ ∧ r' = ⟨r.commands ++ [⟨command, group⟩]⟩ := by
  rw [← any_qualifiedName_iff, register]
  split
  · next htaken =>
      constructor
      · intro h
        cases h
      · exact fun h => absurd htaken h.1
  · next hfree =>
      rw [Except.ok.injEq]
      constructor
      · exact fun h => ⟨hfree, h.symm⟩
      · exact fun h => h.2.symm

/-- Registers a command unless its qualified name is taken, and leaves it out otherwise. -/
def attempt (r : Registry) (call : Group × Command) : Registry :=
  match r.register call.1 call.2 with
  | .ok r => r
  | .error _ => r

/-- What is registered after some attempts. -/
def after (calls : List (Group × Command)) : Registry := calls.foldl attempt {}

theorem Distinct.register (h : r.Distinct) (hadd : r.register group command = .ok r') : r'.Distinct := by
  obtain ⟨hfree, rfl⟩ := register_eq_ok_iff.1 hadd
  exact nodup_map_concat h fun a ha hsame => hfree ⟨a, ha, hsame⟩

theorem Distinct.attempt (h : r.Distinct) (call : Group × Command) : (r.attempt call).Distinct := by
  rw [Registry.attempt]
  split
  · next hadd => exact h.register hadd
  · exact h

theorem distinct_after (calls : List (Group × Command)) : (after calls).Distinct := by
  have hall : ∀ r : Registry, r.Distinct → (calls.foldl Registry.attempt r).Distinct := by
    induction calls with
    | nil => exact fun r h => h
    | cons call calls ih => exact fun r h => ih _ (h.attempt call)
  exact hall {} List.nodup_nil

theorem subset_attempt (r : Registry) (call : Group × Command) : r.commands ⊆ (r.attempt call).commands := by
  rw [attempt]
  split
  · next hadd =>
      obtain ⟨-, rfl⟩ := register_eq_ok_iff.1 hadd
      exact List.subset_append_left _ _
  · exact List.Subset.refl _

theorem subset_foldl (r : Registry) (calls : List (Group × Command)) :
    r.commands ⊆ (calls.foldl attempt r).commands := by
  induction calls generalizing r with
  | nil => exact List.Subset.refl _
  | cons call calls ih => exact List.Subset.trans (subset_attempt r call) (ih _)

theorem after_concat {before : List (Group × Command)} (h : (after before).register group command = .ok r) :
    after (before ++ [(group, command)]) = r := by
  rw [after, List.foldl_concat, ← after, attempt, h]

/-- A command that has been registered stays so. -/
theorem mem_after {before : List (Group × Command)} (later : List (Group × Command))
    (h : (after before).register group command = .ok r) :
    ⟨command, group⟩ ∈ (after (before ++ (group, command) :: later)).commands := by
  obtain ⟨-, hr⟩ := register_eq_ok_iff.1 h
  rw [List.append_cons, after, List.foldl_append, ← after, after_concat h]
  apply subset_foldl
  simp [hr]

theorem resolve_eq_ok_iff {found : Registered} :
    r.resolve name = .ok found ↔ r.commands.filter (·.entry.answersTo name) = [found] := by
  rw [resolve, Entry.select]
  split
  · next hnone => simp [hnone]
  · next hone => simp [hone]
  · next hnone hone =>
      constructor
      · intro h
        cases h
      · exact fun h => absurd h (hone found)

/-- A name that a command answers to is ambiguous if it does not stand for that command. -/
theorem resolve_eq_ambiguous {found : Registered} (hfound : found ∈ r.commands)
    (hanswers : found.entry.answersTo name = true) (hother : r.resolve name ≠ .ok found) :
    r.resolve name = .error (.ambiguousCommand name
      (Entry.listing ((r.commands.filter (·.entry.answersTo name)).map (·.entry)))) := by
  have hmem : found ∈ r.commands.filter (·.entry.answersTo name) := List.mem_filter.2 ⟨hfound, hanswers⟩
  rw [Ne, resolve_eq_ok_iff] at hother
  rw [resolve, Entry.select]
  split
  · next hnone =>
      rw [hnone] at hmem
      cases hmem
  · next hone =>
      rw [hone, List.mem_singleton] at hmem
      exact absurd (hmem ▸ hone) hother
  · rfl

/-- A command of a group that does not qualify names has only its plain name, so it cannot be called at all if
another command has that name too. -/
theorem resolve_ne_ok_of_shared_name {a b : Registered} (hb : b ∈ r.commands) (hne : b ≠ a)
    (hqualifier : a.group.qualifier = "") (hcore : a.group.isCore = false)
    (hshared : foldAscii a.command.name = foldAscii b.command.name) (name : String) : r.resolve name ≠ .ok a := by
  intro hfound
  rw [resolve_eq_ok_iff] at hfound
  have hanswers : a.entry.answersTo name = true := by
    have hmem : a ∈ r.commands.filter (·.entry.answersTo name) := hfound ▸ List.mem_singleton_self a
    exact (List.mem_filter.1 hmem).2
  have hplain : eqIgnoringCase a.command.name name = true := by
    simpa [Entry.answersTo, Entry.names, Registered.entry, hqualifier, hcore] using hanswers
  have hother : eqIgnoringCase b.command.name name = true := by
    rwa [eqIgnoringCase_iff, ← hshared, ← eqIgnoringCase_iff]
  have hmem : b ∈ r.commands.filter (·.entry.answersTo name) := by
    refine List.mem_filter.2 ⟨hb, ?_⟩
    rw [Entry.answersTo, Entry.names, List.any_cons, Bool.or_eq_true]
    exact .inl hother
  rw [hfound, List.mem_singleton] at hmem
  exact hne hmem

/-- Qualified names are the commands' own, so only names of other kinds can get in the way. -/
theorem resolve_eq_ok_iff_of_qualifiedName {found : Registered} (hdistinct : r.Distinct)
    (hfound : found ∈ r.commands) (hname : eqIgnoringCase found.entry.qualifiedName name = true) :
    r.resolve name = .ok found ↔ ∀ other ∈ r.commands,
      eqIgnoringCase other.entry.qualifiedName name = false → other.entry.borrows name = false := by
  have honly : ∀ other ∈ r.commands, eqIgnoringCase other.entry.qualifiedName name = true → other = found := by
    intro other hother hsame
    refine List.inj_on_of_nodup_map hdistinct hother hfound ?_
    rw [eqIgnoringCase_iff.1 hsame, eqIgnoringCase_iff.1 hname]
  rw [resolve_eq_ok_iff]
  constructor
  · intro hone other hother hdiffers
    rw [← Entry.answersTo_eq_borrows hdiffers, Bool.eq_false_iff]
    intro hanswers
    have hmem : other ∈ r.commands.filter (·.entry.answersTo name) := List.mem_filter.2 ⟨hother, hanswers⟩
    rw [hone, List.mem_singleton] at hmem
    rw [hmem, hname] at hdiffers
    cases hdiffers
  · intro hclear
    refine filter_eq_singleton hdistinct.nodup hfound (Entry.answersTo_qualifiedName hname) ?_
    intro other hother hanswers
    by_contra hne
    have hdiffers : eqIgnoringCase other.entry.qualifiedName name = false := by
      rw [Bool.eq_false_iff]
      exact fun hsame => hne (honly other hother hsame)
    rw [Entry.answersTo_eq_borrows hdiffers, hclear other hother hdiffers] at hanswers
    cases hanswers

/-- A registered command is found under its qualified name, in any case, exactly if no other command borrows
that name; otherwise the name is ambiguous.  No other command does if the command's group has a qualifier
and plain names have no dots. -/
theorem resolve_qualifiedName (before later : List (Group × Command))
    (hadd : (after before).register group command = .ok r)
    (hname : eqIgnoringCase (Registered.entry ⟨command, group⟩).qualifiedName name = true) :
    let all := after (before ++ (group, command) :: later)
    (all.resolve name = .ok ⟨command, group⟩ ↔
        ∀ other ∈ all.commands, eqIgnoringCase other.entry.qualifiedName name = false →
          other.entry.borrows name = false) ∧
      (all.resolve name ≠ .ok ⟨command, group⟩ →
        all.resolve name = .error (.ambiguousCommand name
          (Entry.listing ((all.commands.filter (·.entry.answersTo name)).map (·.entry))))) ∧
      (group.qualifier ≠ "" → (∀ other ∈ all.commands, '.' ∉ other.command.name.toList) →
        all.resolve name = .ok ⟨command, group⟩) := by
  intro all
  have hfound : ⟨command, group⟩ ∈ all.commands := mem_after later hadd
  have hresolve := resolve_eq_ok_iff_of_qualifiedName (distinct_after _) hfound hname
  refine ⟨hresolve, resolve_eq_ambiguous hfound (Entry.answersTo_qualifiedName hname), ?_⟩
  intro hq hdots
  refine hresolve.2 fun other hother _ => ?_
  exact Entry.borrows_eq_false hq (hdots other hother) hname

theorem resolve_qualifiedName_of_two_groups :
    let first : Group := ⟨"one", "First", true⟩
    let second : Group := ⟨"two", "Second", true⟩
    (after [(first, Sample.fail)]).register second Sample.fail =
        .ok ⟨[⟨Sample.fail, first⟩, ⟨Sample.fail, second⟩]⟩ ∧
      (after [(first, Sample.fail), (second, Sample.fail)]).resolve "TWO.Fail" = .ok ⟨Sample.fail, second⟩ := by
  intro first second
  have hadd : (after [(first, Sample.fail)]).register second Sample.fail =
      .ok ⟨[⟨Sample.fail, first⟩, ⟨Sample.fail, second⟩]⟩ := by
    rw [register, if_neg (by decide)]
    rfl
  refine ⟨hadd, (resolve_qualifiedName [(first, Sample.fail)] [] hadd (by decide)).2.2 (by decide) ?_⟩
  rw [after_concat hadd, List.forall_mem_cons, List.forall_mem_singleton]
  exact ⟨by decide, by decide⟩

/-- The plain name of a command can be what a command of another group is called when it is qualified; and a
command of a group that does not qualify names cannot be called at all if another one has its plain name. -/
theorem resolve_of_shared_names :
    let first : Group := ⟨"a", "First", false⟩
    let second : Group := ⟨"x", "Second", false⟩
    let bare : Group := ⟨"", "Bare", false⟩
    let plain : Command := { Sample.shout with name := "b" }
    let dotted : Command := { Sample.shout with name := "a.b" }
    ((after [(first, plain), (second, dotted)]).commands = [⟨plain, first⟩, ⟨dotted, second⟩] ∧
      (Registered.entry ⟨plain, first⟩).qualifiedName = "a.b" ∧
      (after [(first, plain), (second, dotted)]).resolve "a.b" =
        .error (.ambiguousCommand "a.b"
          (Entry.listing [Registered.entry ⟨plain, first⟩, Registered.entry ⟨dotted, second⟩]))) ∧
    (after [(bare, plain), (first, plain)]).commands = [⟨plain, bare⟩, ⟨plain, first⟩] ∧
      ∀ name, (after [(bare, plain), (first, plain)]).resolve name ≠ .ok ⟨plain, bare⟩ := by
  refine ⟨⟨rfl, rfl, rfl⟩, rfl, ?_⟩
  refine resolve_ne_ok_of_shared_name (List.mem_cons_of_mem _ List.mem_cons_self) ?_ rfl rfl rfl
  exact fun h => absurd (congrArg (·.group.qualifier) h) (by decide)

end Registry

end CommandShell
