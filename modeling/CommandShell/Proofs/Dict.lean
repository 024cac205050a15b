import CommandShell.Dict
import Mathlib.Data.List.Induction
import Mathlib.Data.List.Nodup

/-!
What a dictionary holds.  Main statements: its entries are what `get?` finds, which tells two dictionaries
apart, and of the pairs that it is made from the last one of each key is found.
-/

namespace CommandShell.Dict

variable {α : Type} {d : Dict α} {k j : String} {v : α}

theorem nodup_keys (d : Dict α) : (d.entries.map (·.1)).Nodup := by
  rw [List.Nodup, List.pairwise_map]
  refine d.ascending.imp fun hlt heq => ?_
  rw [heq] at hlt
  exact String.lt_irrefl _ hlt

theorem get?_eq_some_iff : d.get? k = some v ↔ (k, v) ∈ d.entries := by
  rw [get?, Option.map_eq_some_iff]
  constructor
  · rintro ⟨⟨j, w⟩, hfind, rfl⟩
    obtain rfl : j = k := by simpa using List.find?_some hfind
    exact List.mem_of_find?_eq_some hfind
  · intro hmem
    obtain ⟨e, hfind⟩ : ∃ e, d.entries.find? (·.1 == k) = some e :=
      Option.isSome_iff_exists.1 (List.find?_isSome.2 ⟨(k, v), hmem, by simp⟩)
    have hkey : e.1 = k := by simpa using List.find?_some hfind
    have heq := List.inj_on_of_nodup_map d.nodup_keys (List.mem_of_find?_eq_some hfind) hmem hkey
    exact ⟨e, hfind, by rw [heq]⟩

/-- Two dictionaries in which the same is found are one: both hold it in the order of the keys. -/
theorem ext_get? {d' : Dict α} (h : ∀ k, d.get? k = d'.get? k) : d = d' := by
  have hmem (e : String × α) : e ∈ d.entries ↔ e ∈ d'.entries := by
    rw [← get?_eq_some_iff, h, get?_eq_some_iff]
  have hperm : d.entries.Perm d'.entries :=
    (List.perm_ext_iff_of_nodup d.nodup_keys.of_map d'.nodup_keys.of_map).2 hmem
  have hentries : d.entries = d'.entries :=
    hperm.eq_of_pairwise (fun _ _ _ _ hab hba => absurd hba (String.lt_asymm hab)) d.ascending d'.ascending
  cases d
  cases d'
  congr

theorem get?_eq_none_iff : d.get? k = none ↔ k ∉ d.entries.map (·.1) := by
  rw [Option.eq_none_iff_forall_ne_some]
  constructor
  · intro h hk
    obtain ⟨⟨j, v⟩, hmem, rfl⟩ := List.mem_map.1 hk
    exact h v (get?_eq_some_iff.2 hmem)
  · intro h v hv
    exact h (List.mem_map_of_mem (get?_eq_some_iff.1 hv))

theorem contains_iff : d.contains k = true ↔ k ∈ d.entries.map (·.1) := by
  rw [contains, Option.isSome_iff_ne_none, Ne, get?_eq_none_iff, not_not]

theorem values_eq_nil_iff : d.values = [] ↔ ∀ k, d.get? k = none := by
  rw [values, List.map_eq_nil_iff]
  constructor
  · intro h k
    rw [get?_eq_none_iff, h]
    exact List.not_mem_nil
  · intro h
    refine List.eq_nil_iff_forall_not_mem.2 fun e he => ?_
    exact get?_eq_none_iff.1 (h e.1) (List.mem_map_of_mem he)

theorem erase_of_get?_eq_none (h : d.get? k = none) : d.erase k = d := by
  have hne : ∀ e ∈ d.entries, (e.1 != k) = true := by
    intro e he
    simpa using fun heq : e.1 = k => get?_eq_none_iff.1 h (heq ▸ List.mem_map_of_mem he)
  cases d
  rw [erase]
  congr 1
  exact List.filter_eq_self.2 hne

theorem contains_insert : (d.insert k v).contains j = (j == k || d.contains j) := by
  rw [contains, contains, get?_insert]
  split <;> simp [*]

/-- The last pair of each key counts. -/
theorem get?_ofList (es : List (String × α)) (k : String) :
    (ofList es).get? k = (es.reverse.find? (·.1 == k)).map (·.2) := by
  rw [ofList]
  induction es using List.reverseRecOn with
  | nil => rfl
  | append_singleton es e ih =>
      rw [List.foldl_concat, get?_insert, ih, List.reverse_concat]
      by_cases hk : e.1 = k
      · rw [List.find?_cons_of_pos (by simpa using hk), if_pos hk.symm, Option.map_some]
      · rw [List.find?_cons_of_neg (by simpa using hk), if_neg (Ne.symm hk)]

end CommandShell.Dict
