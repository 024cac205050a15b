import CommandShell.Text.Case
import Mathlib.Data.String.Basic

/-!
Small forms of texts.  Main statements: a small form is its own small form, and for texts in ASCII two
small forms are equal exactly if the texts are equal but for case.
-/

namespace CommandShell.Text

namespace CaseRun

/-- The small letter of a capital of the run. -/
def small (r : CaseRun) (n : Nat) : Nat := (n + r.offset).toNat

theorem mem_capitals {r : CaseRun} {n : Nat} (h : r.contains n = true) : n ∈ r.capitals := by
  simp only [contains, Bool.and_eq_true, decide_eq_true_eq, beq_iff_eq] at h
  obtain ⟨⟨hfirst, hlast⟩, hstep⟩ := h
  have hk : (n - r.first) / r.step ≤ (r.last - r.first) / r.step :=
    Nat.div_le_div_right (Nat.sub_le_sub_right hlast _)
  refine List.mem_map.2 ⟨(n - r.first) / r.step, List.mem_range.2 (Nat.lt_succ_of_le hk), ?_⟩
  rw [Nat.div_mul_cancel (Nat.dvd_of_mod_eq_zero hstep)]
  omega

theorem bounds_of_contains {r : CaseRun} {n : Nat} (h : r.contains n = true) : r.first ≤ n ∧ n ≤ r.last := by
  simp only [contains, Bool.and_eq_true, decide_eq_true_eq] at h
  exact h.1

theorem small_mono (r : CaseRun) {m n : Nat} (h : m ≤ n) : r.small m ≤ r.small n := by
  simp only [small]
  omega

/-- No small letter of `r` is a capital of `s`.  Most runs are too far from each other. -/
def leaves (r s : CaseRun) : Bool :=
  (r.small r.last).blt s.first || s.last.blt (r.small r.first) || r.capitals.all fun n => !s.contains (r.small n)

theorem contains_small {r s : CaseRun} {n : Nat} (hleaves : r.leaves s = true) (h : r.contains n = true) :
    s.contains (r.small n) = false := by
  rw [leaves, Bool.or_eq_true, Bool.or_eq_true, Nat.blt_eq, Nat.blt_eq] at hleaves
  obtain ⟨hfirst, hlast⟩ := bounds_of_contains h
  have hleast := r.small_mono hfirst
  have hgreatest := r.small_mono hlast
  rcases hleaves with (hbelow | habove) | hall
  · rw [Bool.eq_false_iff]
    intro hs
    have := (bounds_of_contains hs).1
    omega
  · rw [Bool.eq_false_iff]
    intro hs
    have := (bounds_of_contains hs).2
    omega
  · simpa using List.all_eq_true.1 hall n (mem_capitals h)

end CaseRun

theorem capitalRuns_leave : (capitalRuns.all fun r => capitalRuns.all r.leaves) = true := by decide +kernel

/-- The dotted capital I, whose small form is of two characters, is taken as a run of its own. -/
theorem capitalRuns_leave_dotted :
    (capitalRuns.all fun r => 'Z'.toNat < r.small r.first && r.leaves ⟨0x130, 0x130, 1, 0⟩) = true := by
  decide +kernel

theorem sigma_mem_capitalRuns : (capitalRuns.any (·.contains 'Σ'.toNat)) = true := by decide +kernel

/-- The character is its own small form, wherever it stands. -/
structure IsSmall (c : Char) : Prop where
  eq : lowerChar c = c
  ne_sigma : c ≠ 'Σ'
  ne_dotted : c ≠ 'İ'

theorem toLower_ascii : ((List.range 0x80).all fun n => (Char.ofNat n).toLower.toNat < 0x80 &&
    (Char.ofNat n).toLower.toLower == (Char.ofNat n).toLower) = true := by decide +kernel

theorem isSmall_toLower {c : Char} (h : c.toNat < 0x80) : IsSmall c.toLower := by
  have hall := List.all_eq_true.1 toLower_ascii c.toNat (List.mem_range.2 h)
  rw [Char.ofNat_toNat, Bool.and_eq_true, decide_eq_true_eq, beq_iff_eq] at hall
  obtain ⟨hascii, hagain⟩ := hall
  refine ⟨?_, ?_, ?_⟩
  · rw [lowerChar, if_pos hascii, hagain]
  · intro heq
    rw [heq] at hascii
    exact absurd hascii (by decide)
  · intro heq
    rw [heq] at hascii
    exact absurd hascii (by decide)

theorem toLower_eq_of_lt {c : Char} (h : 'Z'.toNat < c.toNat) : c.toLower = c := by
  have hnot : ¬(c.val ≥ 'A'.val ∧ c.val ≤ 'Z'.val) := by
    rintro ⟨-, hmost⟩
    exact absurd h (Nat.not_lt.2 (UInt32.le_iff_toNat_le.1 hmost))
  exact dif_neg hnot

theorem isSmall_ofNat {n : Nat} (hn : 'Z'.toNat < n) (hruns : ∀ r ∈ capitalRuns, r.contains n = false)
    (hdotted : n ≠ 0x130) : IsSmall (Char.ofNat n) := by
  by_cases hvalid : n.isValidChar
  · have htoNat : (Char.ofNat n).toNat = n := by
      rw [Char.ofNat, dif_pos hvalid]
      rfl
    refine ⟨?_, ?_, ?_⟩
    · rw [lowerChar, htoNat, List.find?_eq_none.2 fun r hr => by simp [hruns r hr],
        toLower_eq_of_lt (htoNat.symm ▸ hn), ite_self]
    · intro heq
      obtain ⟨r, hr, hcontains⟩ := List.any_eq_true.1 sigma_mem_capitalRuns
      rw [← heq, htoNat, hruns r hr] at hcontains
      cases hcontains
    · intro heq
      exact hdotted (htoNat.symm.trans (congrArg Char.toNat heq))
  · rw [Char.ofNat, dif_neg hvalid]
    exact ⟨by decide, by decide, by decide⟩

theorem isSmall_lowerChar {c : Char} (hsigma : c ≠ 'Σ') (hdotted : c ≠ 'İ') : IsSmall (lowerChar c) := by
  by_cases hascii : c.toNat < 0x80
  · rw [lowerChar, if_pos hascii]
    exact isSmall_toLower hascii
  · have hlower : lowerChar c = c ∨ ∃ r ∈ capitalRuns, r.contains c.toNat = true ∧
        lowerChar c = Char.ofNat (r.small c.toNat) := by
      rw [lowerChar, if_neg hascii]
      cases hfind : capitalRuns.find? (·.contains c.toNat) with
      | none => exact .inl rfl
      | some r =>
          have hcontains : r.contains c.toNat = true := by
            simpa using List.find?_some hfind
          exact .inr ⟨r, List.mem_of_find?_eq_some hfind, hcontains, rfl⟩
    rcases hlower with heq | ⟨r, hr, hcontains, heq⟩
    · rw [heq]
      exact ⟨heq, hsigma, hdotted⟩
    · rw [heq]
      have hleave := List.all_eq_true.1 (List.all_eq_true.1 capitalRuns_leave r hr)
      have hleast := List.all_eq_true.1 capitalRuns_leave_dotted r hr
      rw [Bool.and_eq_true, decide_eq_true_eq] at hleast
      refine isSmall_ofNat ?_ (fun s hs => CaseRun.contains_small (hleave s hs) hcontains) ?_
      · exact hleast.1.trans_le (r.small_mono (CaseRun.bounds_of_contains hcontains).1)
      · intro hn
        have hnot := CaseRun.contains_small hleast.2 hcontains
        rw [hn] at hnot
        exact absurd hnot (by decide)

theorem isSmall_lowerAt (before : List Char) (c : Char) (after : List Char) :
    ∀ d ∈ lowerAt before c after, IsSmall d := by
  rw [lowerAt]
  split
  · split
    · exact List.forall_mem_singleton.2 ⟨by decide +kernel, by decide, by decide⟩
    · exact List.forall_mem_singleton.2 ⟨by decide +kernel, by decide, by decide⟩
  · next hsigma =>
      split
      · exact List.forall_mem_cons.2 ⟨⟨by decide, by decide, by decide⟩,
          List.forall_mem_singleton.2 ⟨by decide +kernel, by decide, by decide⟩⟩
      · next hdotted => exact List.forall_mem_singleton.2 (isSmall_lowerChar hsigma hdotted)

theorem isSmall_lowerChars (before cs : List Char) : ∀ d ∈ lowerChars before cs, IsSmall d := by
  induction cs generalizing before with
  | nil => exact fun d hd => nomatch hd
  | cons c cs ih =>
      intro d hd
      rcases List.mem_append.1 hd with hd | hd
      · exact isSmall_lowerAt before c cs d hd
      · exact ih _ d hd

theorem lowerChars_of_isSmall (before : List Char) {cs : List Char} (h : ∀ c ∈ cs, IsSmall c) :
    lowerChars before cs = cs := by
  induction cs generalizing before with
  | nil => rfl
  | cons c cs ih =>
      obtain ⟨hc, hcs⟩ := List.forall_mem_cons.1 h
      rw [lowerChars, lowerAt, if_neg hc.ne_sigma, if_neg hc.ne_dotted, hc.eq, ih _ hcs, List.singleton_append]

@[simp]
theorem lowercase_lowercase (s : String) : lowercase (lowercase s) = lowercase s := by
  rw [lowercase, lowercase, String.toList_ofList, lowerChars_of_isSmall _ (isSmall_lowerChars _ _)]

/-- Every character of the text is in ASCII. -/
def IsAscii (s : String) : Prop := ∀ c ∈ s.toList, c.toNat < 0x80

/-- A character whose small form for A to Z is small is not changed in any other way. -/
theorem lowerAt_of_toLower (before : List Char) {c : Char} (after : List Char) (h : IsSmall c.toLower) :
    lowerAt before c after = [c.toLower] := by
  by_cases hascii : c.toNat < 0x80
  · have hsigma : c ≠ 'Σ' := fun heq => absurd (heq ▸ hascii) (by decide)
    have hdotted : c ≠ 'İ' := fun heq => absurd (heq ▸ hascii) (by decide)
    rw [lowerAt, if_neg hsigma, if_neg hdotted, lowerChar, if_pos hascii]
  · have hkept : c.toLower = c :=
      toLower_eq_of_lt (Nat.lt_of_lt_of_le (by decide) (Nat.not_lt.1 hascii))
    rw [hkept] at h ⊢
    rw [lowerAt, if_neg h.ne_sigma, if_neg h.ne_dotted, h.eq]

theorem lowerChars_of_toLower (before : List Char) {cs : List Char} (h : ∀ c ∈ cs, IsSmall c.toLower) :
    lowerChars before cs = cs.map Char.toLower := by
  induction cs generalizing before with
  | nil => rfl
  | cons c cs ih =>
      obtain ⟨hc, hcs⟩ := List.forall_mem_cons.1 h
      rw [lowerChars, lowerAt_of_toLower _ _ hc, ih _ hcs, List.map_cons, List.singleton_append]

theorem lowerChars_of_ascii (before : List Char) {cs : List Char} (h : ∀ c ∈ cs, c.toNat < 0x80) :
    lowerChars before cs = cs.map Char.toLower :=
  lowerChars_of_toLower before fun c hc => isSmall_toLower (h c hc)

theorem lowercase_eq_iff_of_isAscii {a b : String} (ha : IsAscii a) (hb : IsAscii b) :
    lowercase a = lowercase b ↔ eqIgnoringCase a b = true := by
  rw [lowercase, lowercase, lowerChars_of_ascii _ ha, lowerChars_of_ascii _ hb, String.ofList_inj,
    eqIgnoringCase_iff, foldAscii, foldAscii]

theorem IsSmall.toLower_eq {c : Char} (h : IsSmall c) : c.toLower = c := by
  by_cases hascii : c.toNat < 0x80
  · have heq := h.eq
    rwa [lowerChar, if_pos hascii] at heq
  · exact toLower_eq_of_lt (Nat.lt_of_lt_of_le (by decide) (Nat.not_lt.1 hascii))

theorem foldAscii_lowercase (s : String) : foldAscii (lowercase s) = (lowercase s).toList := by
  have hsmall : ∀ c ∈ (lowercase s).toList, c.toLower = c := by
    rw [lowercase, String.toList_ofList]
    intro c hc
    exact (isSmall_lowerChars _ _ c hc).toLower_eq
  rw [foldAscii, List.map_congr_left hsmall, List.map_id']

/-- Making the text small changes none of its characters but the letters A to Z. -/
def HasAsciiCase (s : String) : Prop := (lowercase s).toList = foldAscii s

instance (s : String) : Decidable (HasAsciiCase s) := inferInstanceAs (Decidable (_ = _))

/-- A small text is equal to another one but for the case of A to Z only if it is the small form of that
one and nothing else has become small in it. -/
theorem eqIgnoringCase_lowercase_iff {a b : String} :
    eqIgnoringCase (lowercase a) b = true ↔ HasAsciiCase b ∧ lowercase b = lowercase a := by
  rw [eqIgnoringCase_iff, foldAscii_lowercase, HasAsciiCase, ← String.toList_inj]
  constructor
  · intro h
    have hsmall : ∀ c ∈ b.toList, IsSmall c.toLower := by
      intro c hc
      have hmem : c.toLower ∈ (lowercase a).toList := h ▸ List.mem_map_of_mem hc
      rw [lowercase, String.toList_ofList] at hmem
      exact isSmall_lowerChars _ _ _ hmem
    have hb : (lowercase b).toList = foldAscii b := by
      rw [lowercase, String.toList_ofList]
      exact lowerChars_of_toLower [] hsmall
    exact ⟨hb, hb.trans h.symm⟩
  · rintro ⟨hb, hsame⟩
    exact hsame.symm.trans hb

end CommandShell.Text
