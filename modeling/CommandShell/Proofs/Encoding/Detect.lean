import CommandShell.Encoding.Detect
import CommandShell.Proofs.Encoding.Wide

/-!
Files whose encoding is found out.  Main statements: a text after a byte-order mark is read back unless it
is in a wide encoding and has stray controls, and what is read from a file is what is written in it.
-/

namespace CommandShell.Encoding

variable {bytes : List UInt8} {s : String} {e : Encoding}

theorem fromUTF8?_eq_some_iff : String.fromUTF8? ⟨bytes.toArray⟩ = some s ↔ bytes = s.toUTF8.data.toList := by
  rw [String.fromUTF8?]
  constructor
  · intro h
    split at h
    · cases h
      rfl
    · cases h
  · rintro rfl
    rw [Array.toArray_toList]
    exact dif_pos s.isValidUTF8

/-- Bytes are read as a text exactly if they are what it is written as. -/
theorem decode?_eq_some_iff : e.decode? bytes = some s ↔ bytes = e.encode s := by
  cases e with
  | utf8 => exact fromUTF8?_eq_some_iff
  | utf16 order => exact Utf16.decode?_eq_some_iff
  | utf32 order => exact Utf32.decode?_eq_some_iff

/-- A text that is believed to be one in the encoding. -/
def IsTrusted (e : Encoding) (s : String) : Prop :=
  e = .utf8 ∨ ∀ c ∈ s.toList, isStrayControl c = false

-- with all of Mathlib around, the quantifier would be decided by trying all characters
instance (e : Encoding) (s : String) : Decidable (e.IsTrusted s) :=
  @instDecidableOr (e = .utf8) _ inferInstance (List.decidableBAll _ _)

theorem trusted?_eq_some_iff : e.trusted? bytes = some s ↔ bytes = e.encode s ∧ e.IsTrusted s := by
  rw [trusted?, Option.filter_eq_some_iff, decode?_eq_some_iff, IsTrusted]
  simp

/-! ### ASCII -/

theorem utf8EncodeChar_ofNat {b : UInt8} (h : b.toNat < 0x80) :
    String.utf8EncodeChar (Char.ofNat b.toNat) = [b] := by
  have hvalue : (Char.ofNat b.toNat).val.toNat = b.toNat :=
    toNat_of_scalar? (if_pos (Or.inl (by omega)))
  have hshort : (Char.ofNat b.toNat).val.toNat ≤ 127 := by omega
  rw [String.utf8EncodeChar, if_pos hshort, hvalue, UInt8.ofNat_toNat]

/-- ASCII is UTF-8. -/
theorem eq_encode_of_ascii? (h : ascii? bytes = some s) : bytes = utf8.encode s := by
  rw [ascii?] at h
  split at h
  · next hall =>
      cases h
      have hchars : ∀ b ∈ bytes, String.utf8EncodeChar (Char.ofNat b.toNat) = [b] := by
        intro b hb
        exact utf8EncodeChar_ofNat (by simpa using List.all_eq_true.1 hall b hb)
      change bytes =
        (List.flatMap String.utf8EncodeChar (bytes.map fun b => Char.ofNat b.toNat)).toByteArray.data.toList
      rw [List.flatMap_map, List.flatMap_congr hchars, List.flatMap_singleton', List.data_toByteArray]
  · cases h

/-! ### Marks -/

theorem mem_byMark (e : Encoding) : e ∈ byMark := by
  rcases e with _ | (_ | _) | (_ | _) <;> decide

/-- Only the mark of UTF-32 starts with another one, if the least significant byte comes first. -/
theorem eq_or_little_of_mark {e f : Encoding} (h : e.mark <+: f.mark) :
    e = f ∨ e = .utf16 .little ∧ f = .utf32 .little := by
  have hall : ∀ e ∈ byMark, ∀ f ∈ byMark, e.mark.isPrefixOf f.mark = true →
      e = f ∨ e = .utf16 .little ∧ f = .utf32 .little := by decide
  exact hall e (mem_byMark e) f (mem_byMark f) (List.isPrefixOf_iff_prefix.2 h)

theorem find?_byMark_eq_none_iff :
    byMark.find? (·.mark.isPrefixOf bytes) = none ↔ ∀ e : Encoding, ¬e.mark <+: bytes := by
  rw [List.find?_eq_none]
  constructor
  · intro h e he
    exact h e (mem_byMark e) (List.isPrefixOf_iff_prefix.2 he)
  · intro h e _ he
    exact h e (List.isPrefixOf_iff_prefix.1 he)

/-- The bytes start with the encoding's mark, and with no longer one. -/
structure IsMarked (e : Encoding) (bytes : List UInt8) : Prop where
  mark : e.mark <+: bytes
  longest : e = .utf16 .little → ¬(utf32 .little).mark <+: bytes

theorem IsMarked.find? (h : e.IsMarked bytes) : byMark.find? (·.mark.isPrefixOf bytes) = some e := by
  rcases hfind : byMark.find? (·.mark.isPrefixOf bytes) with _ | f
  · exact absurd h.mark (find?_byMark_eq_none_iff.1 hfind e)
  have hf : f.mark <+: bytes := List.isPrefixOf_iff_prefix.1 (by simpa using List.find?_some hfind)
  rcases List.prefix_or_prefix_of_prefix hf h.mark with hprefix | hprefix
  · rcases eq_or_little_of_mark hprefix with rfl | ⟨rfl, rfl⟩
    · exact hfind
    · -- the longer mark is looked for first
      have hlonger : (utf32 .little).mark.isPrefixOf bytes = true := List.isPrefixOf_iff_prefix.2 h.mark
      rw [byMark, List.find?_cons] at hfind
      split at hfind
      · cases hfind
      · rw [List.find?_cons, hlonger] at hfind
        cases hfind
  · rcases eq_or_little_of_mark hprefix with rfl | ⟨rfl, rfl⟩
    · exact hfind
    · exact absurd hf (h.longest rfl)

/-- Bytes after a mark are read in its encoding only. -/
theorem IsMarked.detect?_eq_some_iff (h : e.IsMarked bytes) :
    detect? bytes = some s ↔ bytes = e.mark ++ e.encode s ∧ e.IsTrusted s := by
  rw [detect?, h.find?]
  dsimp only
  rw [trusted?_eq_some_iff]
  obtain ⟨rest, rfl⟩ := h.mark
  rw [List.drop_left, List.append_cancel_left_eq]

theorem head?_of_zeros (h : [0, 0] <+: Utf16.encode .little s) : s.toList.head? = some '\x00' := by
  rw [Utf16.encode] at h
  rcases hs : s.toList with _ | ⟨c, cs⟩
  · rw [hs] at h
    exact absurd h (by decide)
  obtain ⟨u, us, hunits⟩ := Utf16.exists_unitsOf_eq_cons c
  rw [hs, List.flatMap_cons, hunits, List.flatMap_cons] at h
  have hbytes : [0, 0] = bytesOf 2 u := by
    simpa [ByteOrder.arrange, bytesOf] using h
  have hzero : u = 0 := by
    have hnumber : numberOf (bytesOf 2 u) = u := numberOf_bytesOf (Utf16.unitsOf_lt c u (by simp [hunits]))
    rw [← hbytes] at hnumber
    exact hnumber.symm
  rw [hzero] at hunits
  rw [Utf16.eq_zero_of_unitsOf hunits]
  rfl

/-- Two zeros after the mark of UTF-16 would make it the mark of UTF-32. -/
theorem isMarked_append (h : e = .utf16 .little → s.toList.head? ≠ some '\x00') :
    e.IsMarked (e.mark ++ e.encode s) := by
  refine ⟨List.prefix_append _ _, ?_⟩
  rintro rfl hlonger
  have hmark : (utf32 .little).mark = (utf16 .little).mark ++ [0, 0] := by decide
  rw [hmark, List.prefix_append_right_inj] at hlonger
  exact h rfl (head?_of_zeros hlonger)

/-- What follows a byte-order mark is read back as the text that was written, but not if the encoding is a
wide one and the text has stray controls. -/
theorem detect_mark_append (e : Encoding) (s : String) (h : e = .utf16 .little → s.toList.head? ≠ some '\x00') :
    detect? (e.mark ++ e.encode s) = if e.IsTrusted s then some s else none := by
  have hread {t : String} := (isMarked_append h).detect?_eq_some_iff (s := t)
  split
  · next htrusted => exact hread.2 ⟨rfl, htrusted⟩
  · next htrusted =>
      rw [Option.eq_none_iff_forall_ne_some]
      intro t ht
      obtain ⟨hsame, ht⟩ := hread.1 ht
      have hdecode := decode?_eq_some_iff.2 (List.append_cancel_left hsame)
      rw [decode?_eq_some_iff.2 rfl] at hdecode
      cases hdecode
      exact htrusted ht

/-- A text with a character beyond the first plane, in UTF-16. -/
theorem detect_mark_append_of_pair :
    (Encoding.utf16 .little = .utf16 .little → "a😀".toList.head? ≠ some '\x00') ∧ (utf16 .little).IsTrusted "a😀" ∧
      detect? [0xFF, 0xFE, 0x61, 0x00, 0x3D, 0xD8, 0x00, 0xDE] = some "a😀" := by
  have hfirst : Encoding.utf16 .little = .utf16 .little → "a😀".toList.head? ≠ some '\x00' := by decide
  have htrusted : (utf16 .little).IsTrusted "a😀" := by decide
  have hread := detect_mark_append (.utf16 .little) "a😀" hfirst
  rw [if_pos htrusted] at hread
  exact ⟨hfirst, htrusted, hread⟩

/-- A form feed keeps a text in UTF-16 from being read, in spite of its mark. -/
theorem detect_form_feed :
    detect? ((utf16 .little).mark ++ (utf16 .little).encode "a\x0cb") = none := by decide

/-- What is read from a file is what is written in it, with a mark or without.  After a mark only its own
encoding counts, and without one UTF-8 comes first. -/
theorem encode_of_detect (bytes : List UInt8) :
    (∀ s, detect? bytes = some s → ∃ e : Encoding, bytes = e.encode s ∨ bytes = e.mark ++ e.encode s) ∧
      (∀ e : Encoding, e.IsMarked bytes →
        ∀ s, detect? bytes = some s ↔ bytes = e.mark ++ e.encode s ∧ e.IsTrusted s) ∧
      ((∀ e : Encoding, ¬e.mark <+: bytes) → ∀ s, bytes = utf8.encode s → detect? bytes = some s) := by
  refine ⟨?_, fun e h s => h.detect?_eq_some_iff, ?_⟩
  · intro s h
    rw [detect?] at h
    split at h
    · next e hmark =>
        have hprefix : e.mark <+: bytes := List.isPrefixOf_iff_prefix.1 (by simpa using List.find?_some hmark)
        obtain ⟨rest, rfl⟩ := hprefix
        rw [List.drop_left] at h
        exact ⟨e, .inr (congrArg (e.mark ++ ·) (trusted?_eq_some_iff.1 h).1)⟩
    · rcases Option.or_eq_some_iff.1 h with h | ⟨-, h⟩
      · obtain ⟨e, -, he⟩ := List.exists_of_findSome?_eq_some h
        exact ⟨e, .inl (trusted?_eq_some_iff.1 he).1⟩
      · exact ⟨.utf8, .inl (eq_encode_of_ascii? h)⟩
  · intro hnone s hs
    have htrusted : utf8.trusted? bytes = some s := trusted?_eq_some_iff.2 ⟨hs, .inl rfl⟩
    rw [detect?, find?_byMark_eq_none_iff.2 hnone]
    dsimp only
    rw [byTrial, List.findSome?_cons, htrusted, Option.some_or]

end CommandShell.Encoding
