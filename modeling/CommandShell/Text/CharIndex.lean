import CommandShell.Text.CharSet

/-!
Sets of characters laid out for quick look-up.  The main statement is `CharIndex.contains_ofSet`: the
look-up by halves finds what the set contains.
-/

namespace CommandShell.Text

/-- The bounds of a set, one beside the other. -/
structure CharIndex where
  bounds : Array Nat
  deriving Repr

namespace CharIndex

def ofSet (s : CharSet) : CharIndex := ⟨s.bounds.toArray⟩

/-- How many of ascending bounds are at most `n`, if `low` of them are and less than `high`. -/
def countUpTo (bounds : Array Nat) (n low high : Nat) : Nat :=
  if low < high then
    let mid := (low + high) / 2
    if bounds[mid]?.any (· ≤ n) then countUpTo bounds n (mid + 1) high
    else countUpTo bounds n low mid
  else low
termination_by high - low

def contains (k : CharIndex) (c : Char) : Bool :=
  countUpTo k.bounds c.toNat 0 k.bounds.size % 2 == 1

/-- The first `k` bounds are at most `n`, and the others are not. -/
def Parts (xs : List Nat) (n k : Nat) : Prop :=
  (∀ i, i < k → xs[i]?.any (· ≤ n)) ∧ ∀ i, k ≤ i → ∀ x, xs[i]? = some x → n < x

theorem isInside_of_parts {xs : List Nat} {n k : Nat} (h : Parts xs n k) :
    isInside n xs = (k % 2 == 1) := by
  induction xs generalizing k with
  | nil =>
    cases k with
    | zero => rfl
    | succ k => simpa using h.1 0 (by omega)
  | cons x xs ih =>
    cases k with
    | zero => simp [isInside, h.2 0 (by omega) x rfl]
    | succ k =>
      have hx : x ≤ n := by simpa using h.1 0 (by omega)
      have h' : Parts xs n k := ⟨fun i hi => by simpa using h.1 (i + 1) (by omega),
        fun i hi y hy => h.2 (i + 1) (by omega) y (by simpa using hy)⟩
      have hk : (k % 2 == 1) = !((k + 1) % 2 == 1) := by
        rcases Nat.mod_two_eq_zero_or_one k with h | h <;> simp [Nat.add_mod, h]
      simp [isInside, Nat.not_lt.mpr hx, ih h', hk]

/-- In an ascending list, what stands in front of a bound is smaller. -/
theorem lt_of_pairwise {xs : List Nat} (h : xs.Pairwise (· < ·)) {i j x y : Nat} (hij : i < j)
    (hx : xs[i]? = some x) (hy : xs[j]? = some y) : x < y := by
  obtain ⟨hi, rfl⟩ := List.getElem?_eq_some_iff.mp hx
  obtain ⟨hj, rfl⟩ := List.getElem?_eq_some_iff.mp hy
  exact List.pairwise_iff_getElem.mp h i j hi hj hij

theorem parts_countUpTo {xs : List Nat} (hs : xs.Pairwise (· < ·)) {n low high : Nat}
    (hh : high ≤ xs.length) (hlow : ∀ i, i < low → xs[i]?.any (· ≤ n)) (hl : low ≤ high)
    (hhigh : ∀ i, high ≤ i → ∀ x, xs[i]? = some x → n < x) :
    Parts xs n (countUpTo xs.toArray n low high) := by
  fun_induction countUpTo xs.toArray n low high with
  | case1 low high h mid hm ih =>
    have hm : xs[mid]?.any (· ≤ n) := by simpa using hm
    refine ih hh (fun i hi => ?_) (by omega) hhigh
    rcases Nat.lt_or_ge i mid with hi | hi
    · have hmid : mid < xs.length := by omega
      have hlt := lt_of_pairwise hs hi (List.getElem?_eq_getElem (by omega))
        (List.getElem?_eq_getElem hmid)
      simp only [List.getElem?_eq_getElem hmid, Option.any_some, decide_eq_true_eq] at hm
      simp only [List.getElem?_eq_getElem (show i < xs.length by omega), Option.any_some,
        decide_eq_true_eq]
      omega
    · obtain rfl : i = mid := by omega
      exact hm
  | case2 low high h mid hm ih =>
    have hm : ¬xs[mid]?.any (· ≤ n) := by simpa using hm
    refine ih (by omega) hlow (by omega) (fun i hi x hx => ?_)
    have hmid : mid < xs.length := by omega
    simp only [List.getElem?_eq_getElem hmid, Option.any_some, decide_eq_true_eq] at hm
    rcases Nat.lt_or_ge mid i with hi | hi'
    · have := lt_of_pairwise hs hi (List.getElem?_eq_getElem hmid) hx
      omega
    · obtain rfl : i = mid := by omega
      obtain ⟨_, rfl⟩ := List.getElem?_eq_some_iff.mp hx
      omega
  | case3 low high h =>
    obtain rfl : low = high := by omega
    exact ⟨hlow, hhigh⟩

@[simp] theorem contains_ofSet (s : CharSet) (c : Char) :
    (ofSet s).contains c = s.contains c := by
  refine (isInside_of_parts (parts_countUpTo s.ascending (Nat.le_refl _) ?_ (Nat.zero_le _) ?_)).symm
  · intro i hi
    omega
  · intro i hi x hx
    have := (List.getElem?_eq_some_iff.mp hx).1
    omega

end CharIndex

end CommandShell.Text
