/-!
Values kept under texts, in ascending order of the texts.  Main statements: what `get?` finds after
`insert` and after `erase`.
-/

namespace CommandShell

/-- Entries whose keys ascend strictly. -/
structure Dict (α : Type) where
  entries : List (String × α)
  ascending : entries.Pairwise fun a b => a.1 < b.1

namespace Dict

variable {α : Type}

/-- The list with `v` under `k`: in place of the entry of that key, or before the first larger one. -/
def insertEntry (k : String) (v : α) : List (String × α) → List (String × α)
  | [] => [(k, v)]
  | e :: es =>
    if k = e.1 then (k, v) :: es
    else if k < e.1 then (k, v) :: e :: es
    else e :: insertEntry k v es

theorem mem_insertEntry {k : String} {v : α} {es : List (String × α)} {x : String × α}
    (h : x ∈ insertEntry k v es) : x = (k, v) ∨ x ∈ es := by
  induction es with
  | nil => simpa [insertEntry] using h
  | cons e es ih =>
    simp only [insertEntry] at h
    split at h
    · simp_all only [List.mem_cons]
      exact h.imp_right .inr
    · split at h
      · simpa using h
      · rcases List.mem_cons.1 h with rfl | h
        · simp
        · exact (ih h).imp_right (List.mem_cons_of_mem _)

theorem lt_of_not_eq_of_not_lt {a b : String} (hne : ¬a = b) (hlt : ¬a < b) : b < a :=
  Classical.byContradiction fun hn =>
    hne (String.le_antisymm (String.not_lt.1 hn) (String.not_lt.1 hlt))

theorem insertEntry_ascending (k : String) (v : α) {es : List (String × α)}
    (h : es.Pairwise fun a b => a.1 < b.1) : (insertEntry k v es).Pairwise fun a b => a.1 < b.1 := by
  induction es with
  | nil => simp [insertEntry]
  | cons e es ih =>
    obtain ⟨he, hes⟩ := List.pairwise_cons.1 h
    simp only [insertEntry]
    split
    · next hk => exact List.pairwise_cons.2 ⟨fun x hx => hk ▸ he x hx, hes⟩
    · next hk =>
      split
      · next hlt =>
        refine List.pairwise_cons.2 ⟨fun x hx => ?_, h⟩
        rcases List.mem_cons.1 hx with rfl | hx
        · exact hlt
        · exact String.lt_trans hlt (he x hx)
      · next hlt =>
        refine List.pairwise_cons.2 ⟨fun x hx => ?_, ih hes⟩
        rcases mem_insertEntry hx with rfl | hx
        · exact lt_of_not_eq_of_not_lt hk hlt
        · exact he x hx

/-- No entries. -/
def empty : Dict α := ⟨[], .nil⟩

/-- The value under `k`. -/
def get? (d : Dict α) (k : String) : Option α :=
  (d.entries.find? (·.1 == k)).map (·.2)

/-- Puts `v` under `k`, in place of what was there. -/
def insert (d : Dict α) (k : String) (v : α) : Dict α :=
  ⟨insertEntry k v d.entries, insertEntry_ascending k v d.ascending⟩

/-- Removes what is under `k`. -/
def erase (d : Dict α) (k : String) : Dict α :=
  ⟨d.entries.filter (·.1 != k), d.ascending.filter _⟩

/-- The pairs put in one after another, so that a later one replaces an earlier one of its key. -/
def ofList (es : List (String × α)) : Dict α :=
  es.foldl (fun d e => d.insert e.1 e.2) empty

def contains (d : Dict α) (k : String) : Bool := (d.get? k).isSome
def values (d : Dict α) : List α := d.entries.map (·.2)
def keys (d : Dict α) : List String := d.entries.map (·.1)
def size (d : Dict α) : Nat := d.entries.length

@[simp] theorem get?_empty (k : String) : (empty : Dict α).get? k = none := rfl

theorem get?_insert (d : Dict α) (k j : String) (v : α) :
    (d.insert k v).get? j = if j = k then some v else d.get? j := by
  have find (es : List (String × α)) : (insertEntry k v es).find? (·.1 == j) =
      if j = k then some (k, v) else es.find? (·.1 == j) := by
    induction es with
    | nil => by_cases h : k = j <;> simp [insertEntry, h, Ne.symm]
    | cons e es ih =>
      simp only [insertEntry]
      grind
  simp only [get?, insert, find]
  split <;> rfl

theorem get?_erase (d : Dict α) (k j : String) :
    (d.erase k).get? j = if j = k then none else d.get? j := by
  simp only [get?, erase, List.find?_filter]
  split
  · next h => subst h; simp
  · next h =>
    congr 2
    funext e
    by_cases he : e.1 = j <;> simp_all

end Dict

end CommandShell
