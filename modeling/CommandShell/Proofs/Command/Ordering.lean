import CommandShell.Proofs.Command.Resolving
import CommandShell.Proofs.Text.Lowercase
import Mathlib.Data.List.Induction

/-!
The order in which commands are registered.  Main statement: for names in ASCII it makes no difference to
whether all of them can be registered, and if they can, none to what a name stands for and to how the
commands are sorted.
-/

namespace CommandShell

open Text

universe u

namespace Text

-- with all of Mathlib around, the quantifier would be decided by trying all characters
instance (s : String) : Decidable (IsAscii s) := List.decidableBAll (fun c : Char => c.toNat < 0x80) s.toList

theorem IsAscii.append {a b : String} (ha : IsAscii a) (hb : IsAscii b) : IsAscii (a ++ b) := by
  intro c hc
  rw [String.toList_append, List.mem_append] at hc
  exact hc.elim (ha c) (hb c)

end Text

namespace Entry

theorem isAscii_qualifiedName {e : Entry} (hgroup : IsAscii e.group.qualifier) (hname : IsAscii e.name) :
    IsAscii e.qualifiedName := by
  rw [qualifiedName]
  split
  · exact hname
  · exact (hgroup.append (by decide)).append hname

/-- Entries that are sorted by different keys are listed alike in any order. -/
theorem listing_eq_of_perm {es es' : List Entry} (h : (es.map sortKey).Nodup) (hperm : es.Perm es') :
    listing es = listing es' := by
  rw [listing, listing, mergeSort_eq_of_perm h hperm]

theorem select_eq_of_perm {α : Type u} {entry : α → Entry} {as as' : List α}
    (h : (as.map fun a => (entry a).sortKey).Nodup) (hperm : as.Perm as') (name : String) :
    select entry as name = select entry as' name := by
  have hfound := hperm.filter fun a => (entry a).answersTo name
  have hkeys := h.sublist (List.filter_sublist (p := fun a => (entry a).answersTo name) |>.map _)
  rw [select, select]
  generalize as.filter (fun a => (entry a).answersTo name) = found at hfound hkeys
  generalize as'.filter (fun a => (entry a).answersTo name) = found' at hfound
  obtain _ | ⟨a, _ | ⟨b, rest⟩⟩ := found
  · rw [List.nil_perm.1 hfound]
  · rw [List.singleton_perm.1 hfound]
  · obtain ⟨a', b', rest', rfl⟩ : ∃ a' b' rest', found' = a' :: b' :: rest' := by
      obtain _ | ⟨a', _ | ⟨b', rest'⟩⟩ := found'
      · cases hfound.length_eq
      · cases hfound.length_eq
      · exact ⟨a', b', rest', rfl⟩
    have hlisting := listing_eq_of_perm (by rwa [List.map_map]) (hfound.map entry)
    dsimp only
    rw [hlisting]

end Entry

namespace Registry

variable {r : Registry} {a : Registered} {before calls calls' : List (Group × Command)} {call : Group × Command}

theorem distinct_concat_iff : Distinct ⟨r.commands ++ [a]⟩ ↔ r.Distinct ∧ ¬r.Taken a := by
  simp only [Distinct, Taken, List.map_append, List.map_singleton, List.nodup_append, List.nodup_singleton,
    List.mem_map, List.mem_singleton, true_and, forall_exists_index, and_imp, forall_apply_eq_imp_iff₂, forall_eq,
    not_exists, not_and, ne_eq]

theorem Distinct.of_append {more : List Registered} (h : Distinct ⟨r.commands ++ more⟩) : r.Distinct :=
  h.sublist ((List.sublist_append_left _ more).map _)

/-- The commands by qualified name. -/
def inOrder (r : Registry) : List Registered := r.commands.mergeSort fun a b => a.entry.sortKey ≤ b.entry.sortKey

theorem sorted_eq_map_inOrder (r : Registry) : r.sorted = r.inOrder.map (·.entry) :=
  (List.map_mergeSort (f := Registered.entry) fun _ _ _ _ => rfl).symm

/-- The command that a call registers. -/
def called (call : Group × Command) : Registered := ⟨call.2, call.1⟩

/-- Some command cannot be registered when its turn comes. -/
def Refuses (calls : List (Group × Command)) : Prop :=
  ∃ before call later e, calls = before ++ call :: later ∧ (after before).register call.1 call.2 = .error e

theorem after_of_distinct (h : Distinct ⟨calls.map called⟩) : after calls = ⟨calls.map called⟩ := by
  induction calls using List.reverseRecOn with
  | nil => rfl
  | append_singleton before call ih =>
      rw [List.map_append, List.map_singleton] at h ⊢
      obtain ⟨hbefore, hfree⟩ := distinct_concat_iff.1 h
      refine after_concat (register_eq_ok_iff.2 ?_)
      rw [ih hbefore]
      exact ⟨hfree, rfl⟩

theorem exists_register_eq_error_iff :
    (∃ e, r.register call.1 call.2 = .error e) ↔ r.Taken (called call) := by
  constructor
  · rintro ⟨e, he⟩
    by_contra hfree
    rw [register_eq_ok_iff.2 ⟨hfree, rfl⟩] at he
    cases he
  · intro htaken
    cases h : r.register call.1 call.2 with
    | ok r' => exact absurd htaken (register_eq_ok_iff.1 h).1
    | error e => exact ⟨e, rfl⟩

/-- Something is refused exactly if two of the qualified names differ at most in case. -/
theorem refuses_iff : Refuses calls ↔ ¬Distinct ⟨calls.map called⟩ := by
  constructor
  · rintro ⟨before, call, later, e, rfl, hrefused⟩ h
    rw [List.append_cons, List.map_append, List.map_append] at h
    obtain ⟨hbefore, hfree⟩ := distinct_concat_iff.1 (Distinct.of_append (r := ⟨_⟩) h)
    rw [after_of_distinct hbefore] at hrefused
    exact hfree (exists_register_eq_error_iff.1 ⟨e, hrefused⟩)
  · intro h
    induction calls using List.reverseRecOn with
    | nil => exact absurd List.nodup_nil h
    | append_singleton before last ih =>
        by_cases hbefore : Distinct ⟨before.map called⟩
        · rw [List.map_append, List.map_singleton, distinct_concat_iff, not_and_not_right] at h
          have htaken := h hbefore
          rw [← after_of_distinct hbefore] at htaken
          obtain ⟨e, he⟩ := exists_register_eq_error_iff.2 htaken
          exact ⟨before, last, [], e, rfl, he⟩
        · obtain ⟨before, call, later, e, rfl, hrefused⟩ := ih hbefore
          exact ⟨before, call, later ++ [last], e, by simp, hrefused⟩

/-- For names in ASCII the small forms that commands are sorted by differ as soon as the names differ not only
in case. -/
theorem Distinct.nodup_sortKey (h : r.Distinct) (hascii : ∀ a ∈ r.commands, IsAscii a.entry.qualifiedName) :
    (r.commands.map (·.entry.sortKey)).Nodup := by
  refine List.pairwise_map.2 ((List.pairwise_map.1 h).imp_of_mem ?_)
  intro a b ha hb hne hsame
  exact hne (eqIgnoringCase_iff.1 ((lowercase_eq_iff_of_isAscii (hascii a ha) (hascii b hb)).1 hsame))

/-- Commands with names in ASCII that are registered in two orders: either some command is refused both times, or
none is, and then each name stands for the same command, is unknown both times or is ambiguous with the same
listing, and the commands are sorted into the same sequence. -/
theorem agrees_of_perm (hperm : calls.Perm calls')
    (hascii : ∀ call ∈ calls, IsAscii call.1.qualifier ∧ IsAscii call.2.name) :
    (Refuses calls ↔ Refuses calls') ∧
      (¬Refuses calls →
        (∀ name, (after calls).resolve name = (after calls').resolve name) ∧
        (after calls).inOrder = (after calls').inOrder ∧ (after calls).sorted = (after calls').sorted) := by
  have hcommands : (calls.map called).Perm (calls'.map called) := hperm.map called
  have hdistinct : Distinct ⟨calls.map called⟩ ↔ Distinct ⟨calls'.map called⟩ := (hcommands.map _).nodup_iff
  refine ⟨by rw [refuses_iff, refuses_iff, hdistinct], ?_⟩
  intro hnone
  have h : Distinct ⟨calls.map called⟩ := by rwa [refuses_iff, not_not] at hnone
  rw [after_of_distinct h, after_of_distinct (hdistinct.1 h)]
  have hkeys := h.nodup_sortKey <| List.forall_mem_map.2 fun call hcall =>
    Entry.isAscii_qualifiedName (hascii call hcall).1 (hascii call hcall).2
  have horder : inOrder ⟨calls.map called⟩ = inOrder ⟨calls'.map called⟩ := mergeSort_eq_of_perm hkeys hcommands
  refine ⟨Entry.select_eq_of_perm hkeys hcommands, horder, ?_⟩
  rw [sorted_eq_map_inOrder, sorted_eq_map_inOrder, horder]

/-- A name that two commands share is ambiguous with the same listing in both orders. -/
theorem agrees_of_perm_of_shared_name :
    let core : Group := ⟨"sys", "System", true⟩
    let files : Group := ⟨"fs", "Files", false⟩
    let calls := [(core, Sample.fail), (files, Sample.shout), (files, Sample.fail)]
    calls.Perm calls.reverse ∧ (∀ call ∈ calls, IsAscii call.1.qualifier ∧ IsAscii call.2.name) ∧ ¬Refuses calls ∧
      (after calls).resolve "FAIL" = .error (.ambiguousCommand "FAIL"
        (Entry.listing [Registered.entry ⟨Sample.fail, core⟩, Registered.entry ⟨Sample.fail, files⟩])) ∧
      (after calls).resolve "FAIL" = (after calls.reverse).resolve "FAIL" ∧
      (after calls).sorted = (after calls.reverse).sorted := by
  intro core files calls
  have hperm : calls.Perm calls.reverse := calls.reverse_perm.symm
  have hascii : ∀ call ∈ calls, IsAscii call.1.qualifier ∧ IsAscii call.2.name := by
    simp only [calls, List.forall_mem_cons]
    decide
  have hnone : ¬Refuses calls := by
    have hdistinct : Distinct ⟨calls.map called⟩ := by
      show (List.map _ _).Nodup
      decide
    rwa [refuses_iff, not_not]
  obtain ⟨hresolve, -, hsorted⟩ := (agrees_of_perm hperm hascii).2 hnone
  exact ⟨hperm, hascii, hnone, by subst calls core files; rfl, hresolve "FAIL", hsorted⟩

end Registry

end CommandShell
