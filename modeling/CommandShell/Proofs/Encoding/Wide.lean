import CommandShell.Encoding.Wide
import Mathlib.Algebra.Ring.Nat
import Mathlib.Data.List.Basic

/-!
Texts in UTF-16 and UTF-32.  Main statements: bytes are read as a text exactly if they are what the text is
written as.
-/

namespace CommandShell.Encoding

namespace ByteOrder

@[simp] theorem arrange_arrange (order : ByteOrder) (bytes : List UInt8) :
    order.arrange (order.arrange bytes) = bytes := by
  cases order
  · rfl
  · exact List.reverse_reverse bytes

@[simp] theorem length_arrange (order : ByteOrder) (bytes : List UInt8) :
    (order.arrange bytes).length = bytes.length := by
  cases order
  · rfl
  · exact List.length_reverse

end ByteOrder

theorem length_bytesOf (count n : Nat) : (bytesOf count n).length = count := by
  induction count generalizing n with
  | zero => rfl
  | succ count ih => rw [bytesOf, List.length_cons, ih]

theorem numberOf_bytesOf {count n : Nat} (h : n < 256 ^ count) : numberOf (bytesOf count n) = n := by
  induction count generalizing n with
  | zero =>
      rw [Nat.pow_zero, Nat.lt_one_iff] at h
      rw [h]
      rfl
  | succ count ih =>
      have hrest : n / 256 < 256 ^ count := by
        rw [Nat.pow_succ] at h
        exact Nat.div_lt_of_lt_mul (by omega)
      have hfirst : (UInt8.ofNat (n % 256)).toNat = n % 256 := by
        rw [UInt8.toNat_ofNat']
        omega
      rw [bytesOf, numberOf, ih hrest, hfirst]
      omega

theorem bytesOf_numberOf (bytes : List UInt8) : bytesOf bytes.length (numberOf bytes) = bytes := by
  induction bytes with
  | nil => rfl
  | cons b bytes ih =>
      have hb : b.toNat < 256 := b.toNat_lt
      have hfirst : (b.toNat + 256 * numberOf bytes) % 256 = b.toNat := by omega
      have hrest : (b.toNat + 256 * numberOf bytes) / 256 = numberOf bytes := by omega
      rw [List.length_cons, numberOf, bytesOf, hfirst, hrest, ih, UInt8.ofNat_toNat]

theorem numberOf_lt (bytes : List UInt8) : numberOf bytes < 256 ^ bytes.length := by
  induction bytes with
  | nil => exact Nat.one_pos
  | cons b bytes ih =>
      have hb : b.toNat < 256 := b.toNat_lt
      rw [numberOf, List.length_cons, Nat.pow_succ]
      omega

theorem scalar?_toNat (c : Char) : scalar? c.toNat = some c := by
  have hvalid : c.toNat.isValidChar := c.valid
  rw [scalar?, if_pos hvalid, Char.ofNat_toNat]

theorem toNat_of_scalar? {n : Nat} {c : Char} (h : scalar? n = some c) : c.toNat = n := by
  rw [scalar?] at h
  split at h
  · next hvalid =>
      cases h
      rw [Char.ofNat, dif_pos hvalid]
      rfl
  · cases h

theorem scalar?_eq_some_iff {n : Nat} {c : Char} : scalar? n = some c ↔ c.toNat = n :=
  ⟨toNat_of_scalar?, fun h => h ▸ scalar?_toNat c⟩

/-- A code point is no surrogate, and there are 17 planes of them. -/
theorem toNat_cases (c : Char) : c.toNat < 0xD800 ∨ 0xDFFF < c.toNat ∧ c.toNat < 0x110000 := c.valid

namespace Utf16

/-- The two bytes of a code unit. -/
def unitBytes (order : ByteOrder) (u : Nat) : List UInt8 := order.arrange (bytesOf 2 u)

theorem isLeading_iff {u : Nat} : isLeading u = true ↔ 0xD800 ≤ u ∧ u < 0xDC00 := by
  rw [isLeading, Bool.and_eq_true, decide_eq_true_eq, decide_eq_true_eq]

theorem isTrailing_iff {u : Nat} : isTrailing u = true ↔ 0xDC00 ≤ u ∧ u < 0xE000 := by
  rw [isTrailing, Bool.and_eq_true, decide_eq_true_eq, decide_eq_true_eq]

theorem unitsOf_of_lt {c : Char} (hc : c.toNat < 0x10000) : unitsOf c = [c.toNat] := if_pos hc

/-- No character is a surrogate. -/
theorem isLeading_toNat (c : Char) : isLeading c.toNat = false := by
  have hc := toNat_cases c
  rw [Bool.eq_false_iff, Ne, isLeading_iff]
  omega

theorem le_pairValue (u v : Nat) : 0x10000 ≤ pairValue u v := Nat.le_add_left _ _

/-- A character beyond the first plane is cut into a pair of surrogates. -/
theorem unitsOf_eq_pair_iff {u v : Nat} {c : Char} (hc : ¬c.toNat < 0x10000) :
    unitsOf c = [u, v] ↔ isLeading u = true ∧ isTrailing v = true ∧ pairValue u v = c.toNat := by
  have hbounds := toNat_cases c
  simp only [unitsOf, if_neg hc, isLeading_iff, isTrailing_iff, pairValue, List.cons.injEq, and_true]
  omega

theorem exists_pair {c : Char} (hc : ¬c.toNat < 0x10000) : ∃ u v, unitsOf c = [u, v] := ⟨_, _, if_neg hc⟩

theorem charsOf?_cons (c : Char) (us : List Nat) : charsOf? (unitsOf c ++ us) = (charsOf? us).map (c :: ·) := by
  by_cases hc : c.toNat < 0x10000
  · rw [unitsOf_of_lt hc]
    cases us with
    | nil => simp [charsOf?, scalar?_toNat]
    | cons v us => simp [charsOf?, scalar?_toNat, isLeading_toNat]
  · obtain ⟨u, v, huv⟩ := exists_pair hc
    obtain ⟨hu, hv, hvalue⟩ := (unitsOf_eq_pair_iff hc).1 huv
    simp [huv, charsOf?, hu, hv, hvalue, scalar?_toNat]

theorem charsOf?_flatMap (cs : List Char) : charsOf? (cs.flatMap unitsOf) = some cs := by
  induction cs with
  | nil => rfl
  | cons c cs ih => rw [List.flatMap_cons, charsOf?_cons, ih, Option.map_some]

theorem unitsOf_of_scalar? {u : Nat} {c : Char} (h : scalar? u = some c) (hu : u < 0x10000) : unitsOf c = [u] := by
  have hvalue := toNat_of_scalar? h
  rw [unitsOf_of_lt (hvalue ▸ hu), hvalue]

theorem unitsOf_of_pair {u v : Nat} {c : Char} (hu : isLeading u = true) (hv : isTrailing v = true)
    (h : scalar? (pairValue u v) = some c) : unitsOf c = [u, v] := by
  have hvalue := toNat_of_scalar? h
  have hc : ¬c.toNat < 0x10000 := Nat.not_lt.2 (hvalue ▸ le_pairValue u v)
  exact (unitsOf_eq_pair_iff hc).2 ⟨hu, hv, hvalue.symm⟩

theorem flatMap_unitsOf {us : List Nat} {cs : List Char} (h : charsOf? us = some cs) (hus : ∀ u ∈ us, u < 0x10000) :
    cs.flatMap unitsOf = us := by
  fun_induction charsOf? us generalizing cs with
  | case1 =>
      cases h
      rfl
  | case2 u =>
      obtain ⟨c, hc, rfl⟩ := Option.map_eq_some_iff.1 h
      rw [List.flatMap_singleton, unitsOf_of_scalar? hc (hus u (by simp))]
  | case3 u v us hu hv ih =>
      obtain ⟨c, hc, h⟩ := Option.bind_eq_some_iff.1 h
      obtain ⟨cs, hcs, rfl⟩ := Option.map_eq_some_iff.1 h
      rw [List.flatMap_cons, unitsOf_of_pair hu hv hc, ih hcs fun w hw => hus w (by simp [hw])]
      rfl
  | case4 => cases h
  | case5 u v us hu ih =>
      obtain ⟨c, hc, h⟩ := Option.bind_eq_some_iff.1 h
      obtain ⟨cs, hcs, rfl⟩ := Option.map_eq_some_iff.1 h
      have hcs := ih hcs fun w hw => hus w (List.mem_cons_of_mem _ hw)
      rw [List.flatMap_cons, unitsOf_of_scalar? hc (hus u (by simp)), hcs]
      rfl

theorem unitsOf_lt (c : Char) : ∀ u ∈ unitsOf c, u < 0x10000 := by
  have hc := toNat_cases c
  rw [unitsOf]
  split
  · next hplane => exact List.forall_mem_singleton.2 hplane
  · exact List.forall_mem_cons.2 ⟨by omega, List.forall_mem_singleton.2 (by omega)⟩

theorem exists_unitsOf_eq_cons (c : Char) : ∃ u us, unitsOf c = u :: us := by
  by_cases hc : c.toNat < 0x10000
  · exact ⟨_, _, unitsOf_of_lt hc⟩
  · obtain ⟨u, v, huv⟩ := exists_pair hc
    exact ⟨u, [v], huv⟩

/-- Only the character 0 has a code unit 0 first. -/
theorem eq_zero_of_unitsOf {c : Char} {us : List Nat} (h : unitsOf c = 0 :: us) : c = '\x00' := by
  by_cases hc : c.toNat < 0x10000
  · rw [unitsOf_of_lt hc] at h
    rw [← Char.ofNat_toNat c, (List.cons.inj h).1]
  · obtain ⟨u, v, huv⟩ := exists_pair hc
    have hlead := ((unitsOf_eq_pair_iff hc).1 huv).1
    rw [huv] at h
    rw [(List.cons.inj h).1] at hlead
    exact absurd hlead (by decide)

theorem exists_unitBytes (order : ByteOrder) {u : Nat} (hu : u < 0x10000) :
    ∃ a b, unitBytes order u = [a, b] ∧ numberOf (order.arrange [a, b]) = u := by
  have hlength : (unitBytes order u).length = 2 := by
    rw [unitBytes, ByteOrder.length_arrange, length_bytesOf]
  obtain ⟨a, b, hab⟩ := List.length_eq_two.1 hlength
  refine ⟨a, b, hab, ?_⟩
  rw [← hab, unitBytes, ByteOrder.arrange_arrange, numberOf_bytesOf hu]

theorem unitsOfBytes?_flatMap (order : ByteOrder) {us : List Nat} (h : ∀ u ∈ us, u < 0x10000) :
    unitsOfBytes? order (us.flatMap (unitBytes order)) = some us := by
  induction us with
  | nil => rfl
  | cons u us ih =>
      obtain ⟨hu, hus⟩ := List.forall_mem_cons.1 h
      obtain ⟨a, b, hab, hnumber⟩ := exists_unitBytes order hu
      rw [List.flatMap_cons, hab, List.cons_append, List.singleton_append, unitsOfBytes?, ih hus,
        Option.map_some, hnumber]

theorem unitBytes_numberOf (order : ByteOrder) (a b : UInt8) :
    unitBytes order (numberOf (order.arrange [a, b])) = [a, b] := by
  have hpair : bytesOf 2 (numberOf (order.arrange [a, b])) = order.arrange [a, b] := by
    have hbytes := bytesOf_numberOf (order.arrange [a, b])
    rwa [ByteOrder.length_arrange] at hbytes
  rw [unitBytes, hpair, ByteOrder.arrange_arrange]

theorem eq_flatMap_of_unitsOfBytes? {order : ByteOrder} {bytes : List UInt8} {us : List Nat}
    (h : unitsOfBytes? order bytes = some us) :
    bytes = us.flatMap (unitBytes order) ∧ ∀ u ∈ us, u < 0x10000 := by
  fun_induction unitsOfBytes? order bytes generalizing us with
  | case1 =>
      cases h
      exact ⟨rfl, nofun⟩
  | case2 => cases h
  | case3 a b rest ih =>
      obtain ⟨us, hus, rfl⟩ := Option.map_eq_some_iff.1 h
      obtain ⟨hrest, hlt⟩ := ih hus
      have hnumber : numberOf (order.arrange [a, b]) < 0x10000 := by
        simpa using numberOf_lt (order.arrange [a, b])
      refine ⟨?_, List.forall_mem_cons.2 ⟨hnumber, hlt⟩⟩
      rw [List.flatMap_cons, unitBytes_numberOf, ← hrest]
      rfl

theorem encode_eq (order : ByteOrder) (s : String) :
    encode order s = (s.toList.flatMap unitsOf).flatMap (unitBytes order) :=
  (List.flatMap_assoc).symm

/-- Bytes are read as a text exactly if they are what it is written as. -/
theorem decode?_eq_some_iff {order : ByteOrder} {bytes : List UInt8} {s : String} :
    decode? order bytes = some s ↔ bytes = encode order s := by
  rw [decode?, encode_eq, Option.map_eq_some_iff]
  constructor
  · rintro ⟨cs, hcs, rfl⟩
    obtain ⟨us, hus, hcs⟩ := Option.bind_eq_some_iff.1 hcs
    obtain ⟨hbytes, hlt⟩ := eq_flatMap_of_unitsOfBytes? hus
    rw [String.toList_ofList, flatMap_unitsOf hcs hlt, hbytes]
  · rintro rfl
    have hlt : ∀ u ∈ s.toList.flatMap unitsOf, u < 0x10000 := by
      intro u hu
      obtain ⟨c, -, hc⟩ := List.mem_flatMap.1 hu
      exact unitsOf_lt c u hc
    refine ⟨s.toList, ?_, String.ofList_toList⟩
    rw [unitsOfBytes?_flatMap order hlt, Option.bind_some, charsOf?_flatMap]

end Utf16

namespace Utf32

/-- The four bytes of a character. -/
def charBytes (order : ByteOrder) (c : Char) : List UInt8 := order.arrange (bytesOf 4 c.toNat)

theorem exists_charBytes (order : ByteOrder) (x : Char) :
    ∃ a b c d, charBytes order x = [a, b, c, d] ∧ numberOf (order.arrange [a, b, c, d]) = x.toNat := by
  have hlength : (charBytes order x).length = 4 := by
    rw [charBytes, ByteOrder.length_arrange, length_bytesOf]
  have hx : x.toNat < 256 ^ 4 := by
    have := toNat_cases x
    omega
  match hbytes : charBytes order x, hlength with
  | [a, b, c, d], _ =>
      refine ⟨a, b, c, d, rfl, ?_⟩
      rw [← hbytes, charBytes, ByteOrder.arrange_arrange, numberOf_bytesOf hx]

theorem charsOf?_flatMap (order : ByteOrder) (cs : List Char) :
    charsOf? order (cs.flatMap (charBytes order)) = some cs := by
  induction cs with
  | nil => rfl
  | cons x cs ih =>
      obtain ⟨a, b, c, d, habcd, hnumber⟩ := exists_charBytes order x
      rw [List.flatMap_cons, habcd]
      simp only [List.cons_append, List.nil_append]
      rw [charsOf?, hnumber, scalar?_toNat, ih]
      rfl

theorem eq_flatMap_of_charsOf? {order : ByteOrder} {bytes : List UInt8} {cs : List Char}
    (h : charsOf? order bytes = some cs) : bytes = cs.flatMap (charBytes order) := by
  fun_induction charsOf? order bytes generalizing cs with
  | case1 =>
      cases h
      rfl
  | case2 a b c d rest x hx ih =>
      obtain ⟨cs, hcs, rfl⟩ := Option.map_eq_some_iff.1 h
      have hfour : bytesOf 4 x.toNat = order.arrange [a, b, c, d] := by
        have hbytes := bytesOf_numberOf (order.arrange [a, b, c, d])
        rwa [ByteOrder.length_arrange, ← toNat_of_scalar? hx] at hbytes
      rw [List.flatMap_cons, charBytes, hfour, ByteOrder.arrange_arrange, ← ih hcs]
      rfl
  | case3 | case4 => cases h

/-- Bytes are read as a text exactly if they are what it is written as. -/
theorem decode?_eq_some_iff {order : ByteOrder} {bytes : List UInt8} {s : String} :
    decode? order bytes = some s ↔ bytes = encode order s := by
  rw [decode?, Option.map_eq_some_iff]
  constructor
  · rintro ⟨cs, hcs, rfl⟩
    rw [encode, String.toList_ofList]
    exact eq_flatMap_of_charsOf? hcs
  · rintro rfl
    exact ⟨s.toList, charsOf?_flatMap order s.toList, String.ofList_toList⟩

end Utf32

end CommandShell.Encoding
