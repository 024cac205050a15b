import CommandShell.Text.Property

/-!
Sets of characters.  A set is kept as the code points at which membership changes, so that every
operation on two sets is one walk along both.  The main statement is `CharSet.contains_combine`: the
walk does to the sets what the given operation does to membership.
-/

namespace CommandShell.Text

/-- The code point is at or behind an odd number of the bounds. -/
def isInside (n : Nat) : List Nat → Bool
  | [] => false
  | x :: xs => if n < x then false else !isInside n xs

/-- The bounds, with one more in front if membership changes there. -/
def addBound (changes : Bool) (x : Nat) (xs : List Nat) : List Nat :=
  if changes then x :: xs else xs

/-- The bounds of `f` on two sets, from their bounds and from membership in front of these. -/
def combineBounds (f : Bool → Bool → Bool) (a b : Bool) (xs ys : List Nat) : List Nat :=
  match xs, ys with
  | [], ys => if f a true == f a false then [] else ys
  | x :: xs, [] => if f true b == f false b then [] else x :: xs
  | x :: xs, y :: ys =>
    if x < y then addBound (f a b != f (!a) b) x (combineBounds f (!a) b xs (y :: ys))
    else if y < x then addBound (f a b != f a (!b)) y (combineBounds f a (!b) (x :: xs) ys)
    else addBound (f a b != f (!a) (!b)) x (combineBounds f (!a) (!b) xs ys)
termination_by xs.length + ys.length

theorem mem_addBound {changes : Bool} {x n : Nat} {xs : List Nat} (h : n ∈ addBound changes x xs) :
    n = x ∨ n ∈ xs := by
  cases changes with
  | false => exact .inr h
  | true => exact List.mem_cons.mp h

theorem lt_of_mem_combineBounds {f : Bool → Bool → Bool} {a b : Bool} {xs ys : List Nat} {m n : Nat}
    (hx : ∀ x ∈ xs, m < x) (hy : ∀ y ∈ ys, m < y) (h : n ∈ combineBounds f a b xs ys) : m < n := by
  fun_induction combineBounds f a b xs ys with
  | case1 => simp at h
  | case2 => exact hy _ h
  | case3 => simp at h
  | case4 => exact hx _ h
  | case5 a b x xs y ys hlt ih =>
    rcases mem_addBound h with rfl | h
    · exact hx _ (by simp)
    · exact ih (fun z hz => hx z (by simp [hz])) hy h
  | case6 a b x xs y ys _ hlt ih =>
    rcases mem_addBound h with rfl | h
    · exact hy _ (by simp)
    · exact ih hx (fun z hz => hy z (by simp [hz])) h
  | case7 a b x xs y ys _ _ ih =>
    rcases mem_addBound h with rfl | h
    · exact hx _ (by simp)
    · exact ih (fun z hz => hx z (by simp [hz])) (fun z hz => hy z (by simp [hz])) h

theorem lt_of_mem_cons {m x : Nat} {xs : List Nat} (hm : m < x) (h : (x :: xs).Pairwise (· < ·)) :
    ∀ z ∈ x :: xs, m < z := by
  intro z hz
  rcases List.mem_cons.mp hz with rfl | hz
  · exact hm
  · exact Nat.lt_trans hm (List.rel_of_pairwise_cons h hz)

theorem addBound_ascending {changes : Bool} {x : Nat} {xs : List Nat} (h : ∀ z ∈ xs, x < z)
    (hx : xs.Pairwise (· < ·)) : (addBound changes x xs).Pairwise (· < ·) := by
  cases changes with
  | false => exact hx
  | true => exact List.pairwise_cons.mpr ⟨h, hx⟩

theorem combineBounds_ascending {f : Bool → Bool → Bool} {a b : Bool} {xs ys : List Nat}
    (hx : xs.Pairwise (· < ·)) (hy : ys.Pairwise (· < ·)) :
    (combineBounds f a b xs ys).Pairwise (· < ·) := by
  fun_induction combineBounds f a b xs ys with
  | case1 => exact .nil
  | case2 => exact hy
  | case3 => exact .nil
  | case4 => exact hx
  | case5 a b x xs y ys hlt ih =>
    exact addBound_ascending (fun _ hz => lt_of_mem_combineBounds
      (fun _ => List.rel_of_pairwise_cons hx) (lt_of_mem_cons hlt hy) hz) (ih hx.of_cons hy)
  | case6 a b x xs y ys _ hlt ih =>
    exact addBound_ascending (fun _ hz => lt_of_mem_combineBounds
      (lt_of_mem_cons hlt hx) (fun _ => List.rel_of_pairwise_cons hy) hz) (ih hx hy.of_cons)
  | case7 a b x xs y ys h₁ h₂ ih =>
    obtain rfl : x = y := by omega
    exact addBound_ascending (fun _ hz => lt_of_mem_combineBounds
      (fun _ => List.rel_of_pairwise_cons hx) (fun _ => List.rel_of_pairwise_cons hy) hz)
      (ih hx.of_cons hy.of_cons)

theorem isInside_eq_false {n : Nat} {xs : List Nat} (h : ∀ x ∈ xs, n < x) :
    isInside n xs = false := by
  cases xs with
  | nil => rfl
  | cons x xs => simp [isInside, h x (by simp)]

@[simp] theorem isInside_nil (n : Nat) : isInside n [] = false := rfl

theorem isInside_addBound {changes : Bool} {n x : Nat} {xs : List Nat} (h : ∀ z ∈ xs, x < z) :
    isInside n (addBound changes x xs) = xor (changes && decide (x ≤ n)) (isInside n xs) := by
  cases changes with
  | false => simp [addBound]
  | true =>
    by_cases hn : n < x
    · have h₀ : isInside n xs = false := isInside_eq_false fun z hz => Nat.lt_trans hn (h z hz)
      simp [addBound, isInside, hn, h₀]
    · simp [addBound, isInside, hn, Nat.not_lt.mp hn]

theorem isInside_cons {n x : Nat} {xs : List Nat} (h : (x :: xs).Pairwise (· < ·)) :
    isInside n (x :: xs) = xor (decide (x ≤ n)) (isInside n xs) := by
  simpa [addBound] using @isInside_addBound true n x xs (List.pairwise_cons.mp h).1

theorem isInside_combineBounds {f : Bool → Bool → Bool} {a b : Bool} {xs ys : List Nat} (n : Nat)
    (hx : xs.Pairwise (· < ·)) (hy : ys.Pairwise (· < ·)) :
    isInside n (combineBounds f a b xs ys) =
      xor (f a b) (f (xor a (isInside n xs)) (xor b (isInside n ys))) := by
  have swap {p q : Bool} (h : ¬(p == q) = true) : p = !q := by cases p <;> cases q <;> simp_all
  fun_induction combineBounds f a b xs ys with
  | case1 a b ys h =>
    have h := beq_iff_eq.mp h
    cases b <;> cases isInside n ys <;> simp [isInside, h]
  | case2 a b ys h =>
    have h := swap h
    cases b <;> cases isInside n ys <;> simp [isInside, h]
  | case3 a b x xs h =>
    have h := beq_iff_eq.mp h
    cases a <;> cases isInside n (x :: xs) <;> simp [h]
  | case4 a b x xs h =>
    have h := swap h
    cases a <;> cases isInside n (x :: xs) <;> simp [h]
  | case5 a b x xs y ys hlt ih =>
    have hm : ∀ z ∈ combineBounds f (!a) b xs (y :: ys), x < z := fun _ hz =>
      lt_of_mem_combineBounds (fun _ => List.rel_of_pairwise_cons hx) (lt_of_mem_cons hlt hy) hz
    rw [isInside_addBound hm, ih hx.of_cons hy, isInside_cons hx]
    by_cases hn : x ≤ n
    · cases f a b <;> cases f (!a) b <;> simp [hn]
    · have h₀ : isInside n xs = false := isInside_eq_false fun _ hz =>
        Nat.lt_trans (Nat.not_le.mp hn) (List.rel_of_pairwise_cons hx hz)
      have h₁ : isInside n (y :: ys) = false := isInside_eq_false
        (lt_of_mem_cons (Nat.lt_trans (Nat.not_le.mp hn) hlt) hy)
      simp [h₀, h₁, hn]
  | case6 a b x xs y ys _ hlt ih =>
    have hm : ∀ z ∈ combineBounds f a (!b) (x :: xs) ys, y < z := fun _ hz =>
      lt_of_mem_combineBounds (lt_of_mem_cons hlt hx) (fun _ => List.rel_of_pairwise_cons hy) hz
    rw [isInside_addBound hm, ih hx hy.of_cons, isInside_cons hy]
    by_cases hn : y ≤ n
    · cases f a b <;> cases f a (!b) <;> simp [hn]
    · have h₀ : isInside n ys = false := isInside_eq_false fun _ hz =>
        Nat.lt_trans (Nat.not_le.mp hn) (List.rel_of_pairwise_cons hy hz)
      have h₁ : isInside n (x :: xs) = false := isInside_eq_false
        (lt_of_mem_cons (Nat.lt_trans (Nat.not_le.mp hn) hlt) hx)
      simp [h₀, h₁, hn]
  | case7 a b x xs y ys h₁ h₂ ih =>
    obtain rfl : x = y := by omega
    have hm : ∀ z ∈ combineBounds f (!a) (!b) xs ys, x < z := fun _ hz =>
      lt_of_mem_combineBounds (fun _ => List.rel_of_pairwise_cons hx)
        (fun _ => List.rel_of_pairwise_cons hy) hz
    rw [isInside_addBound hm, ih hx.of_cons hy.of_cons, isInside_cons hx, isInside_cons hy]
    by_cases hn : x ≤ n
    · cases f a b <;> cases f (!a) (!b) <;> simp [hn]
    · have h₀ : isInside n xs = false := isInside_eq_false fun _ hz =>
        Nat.lt_trans (Nat.not_le.mp hn) (List.rel_of_pairwise_cons hx hz)
      have h₁ : isInside n ys = false := isInside_eq_false fun _ hz =>
        Nat.lt_trans (Nat.not_le.mp hn) (List.rel_of_pairwise_cons hy hz)
      simp [h₀, h₁, hn]

/-- A set of characters, as the code points where membership changes. -/
structure CharSet where
  bounds : List Nat
  ascending : bounds.Pairwise (· < ·)
  deriving DecidableEq, Repr

namespace CharSet

def contains (s : CharSet) (c : Char) : Bool := isInside c.toNat s.bounds

def empty : CharSet := ⟨[], .nil⟩

/-- All characters. -/
def full : CharSet := ⟨[0], by simp⟩

/-- The last code point of all. -/
def lastCode : Nat := 0x10FFFF

theorem single_ascending (first : Nat) : [first].Pairwise (· < ·) :=
  List.pairwise_singleton _ _

theorem pair_ascending {first last : Nat} (h : first ≤ last) : [first, last + 1].Pairwise (· < ·) :=
  List.pairwise_pair.2 (Nat.lt_succ_of_le h)

/-- The code points from the first to the last. -/
def ofRange (first last : Nat) : CharSet :=
  if h : first ≤ last then
    if last < lastCode then ⟨[first, last + 1], pair_ascending h⟩ else ⟨[first], single_ascending first⟩
  else empty

/-- The set that an operation on membership makes of two sets. -/
def combine (f : Bool → Bool → Bool) (s t : CharSet) : CharSet :=
  ⟨combineBounds f false false s.bounds t.bounds, combineBounds_ascending s.ascending t.ascending⟩

def union : CharSet → CharSet → CharSet := combine (· || ·)

def inter : CharSet → CharSet → CharSet := combine (· && ·)

def diff : CharSet → CharSet → CharSet := combine fun a b => a && !b

def symmDiff : CharSet → CharSet → CharSet := combine xor

def complement (s : CharSet) : CharSet := full.diff s

def ofRanges (rs : List (Nat × Nat)) : CharSet :=
  rs.foldr (fun r s => (ofRange r.1 r.2).union s) empty

def ofRuns (rs : List Run) : CharSet := ofRanges (rs.flatMap Run.ranges)

/-- The characters that have a property. -/
def ofProperty (p : Property) : CharSet :=
  p.categories.foldr (fun k s => (ofRuns k.runs).union s) (ofRanges p.others)

def ofChar (c : Char) : CharSet := ofRange c.toNat c.toNat

/-- The code points between bounds, a set's last range being open. -/
def rangesBetween : List Nat → List (Nat × Nat)
  | [] => []
  | [x] => [(x, lastCode)]
  | x :: y :: rest => (x, y - 1) :: rangesBetween rest

/-- The code point is half of a pair and no character. -/
def isSurrogate (n : Nat) : Bool := 0xD800 ≤ n && n ≤ 0xDFFF

/-- The range without surrogates at its ends. -/
def trimRange (r : Nat × Nat) : Nat × Nat :=
  (if isSurrogate r.1 then 0xE000 else r.1, if isSurrogate r.2 then 0xD7FF else r.2)

/-- The set as ranges that begin and end with a character. -/
def ranges (s : CharSet) : List (Nat × Nat) :=
  ((rangesBetween s.bounds).map trimRange).filter fun r => r.1 ≤ r.2

theorem contains_combine {f : Bool → Bool → Bool} (hf : f false false = false) (s t : CharSet)
    (c : Char) : (combine f s t).contains c = f (s.contains c) (t.contains c) := by
  simp [contains, combine, isInside_combineBounds c.toNat s.ascending t.ascending, hf]

@[simp] theorem contains_union (s t : CharSet) (c : Char) :
    (s.union t).contains c = (s.contains c || t.contains c) :=
  contains_combine rfl s t c

@[simp] theorem contains_inter (s t : CharSet) (c : Char) :
    (s.inter t).contains c = (s.contains c && t.contains c) :=
  contains_combine rfl s t c

@[simp] theorem contains_diff (s t : CharSet) (c : Char) :
    (s.diff t).contains c = (s.contains c && !t.contains c) :=
  contains_combine rfl s t c

@[simp] theorem contains_symmDiff (s t : CharSet) (c : Char) :
    (s.symmDiff t).contains c = xor (s.contains c) (t.contains c) :=
  contains_combine rfl s t c

@[simp] theorem contains_complement (s : CharSet) (c : Char) :
    s.complement.contains c = !s.contains c := by
  simp [complement, show full.contains c = true by simp [full, contains, isInside]]

end CharSet

end CommandShell.Text
