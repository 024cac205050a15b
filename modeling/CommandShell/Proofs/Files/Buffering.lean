import CommandShell.Proofs.Files.Writing

/-!
What the buffer of an open file hides.  Main statement: once what waits has been written, it makes no
difference whether bytes were written in pieces or at once, whatever the file held and wherever its next bytes
went.
-/

namespace CommandShell

namespace FileSystem

variable {fs gs : FileSystem} {place : String}

/-- The content that is read where a file is written to. -/
def contentAt (fs : FileSystem) (place : String) : List UInt8 :=
  match fs.node? place with
  | some (.file content) => content
  | _ => []

/-- Whether content can be put at the place. -/
def Takes (fs : FileSystem) (place : String) : Prop := place ≠ "" ∧ fs.node? place ≠ some .null

instance : Decidable (fs.Takes place) := inferInstanceAs (Decidable (_ ∧ _))

theorem takes_congr (h : ∀ q, gs.node? q = fs.node? q) : gs.Takes place ↔ fs.Takes place := by
  rw [Takes, Takes, h]

theorem node?_put_eq (fs : FileSystem) (place : String) (content : List UInt8) (q : String) :
    (fs.put place content).node? q = if fs.Takes place ∧ q = place then some (.file content) else fs.node? q := by
  by_cases hq : q = place
  · subst hq
    by_cases hnull : fs.node? q = some .null
    · rw [put_of_null _ hnull, if_neg fun h => h.1.2 hnull]
    · by_cases hroot : q = ""
      · subst hroot
        rw [if_neg fun h => h.1.1 rfl]
        rfl
      · rw [if_pos ⟨⟨hroot, hnull⟩, rfl⟩, put, if_neg (by simpa using hnull), node?_insert _ _ _ hroot, if_pos rfl]
  · rw [node?_put_of_ne _ hq, if_neg fun h => hq h.2]

theorem contentAt_put (h : fs.Takes place) (content : List UInt8) : (fs.put place content).contentAt place = content := by
  rw [contentAt, node?_put_eq, if_pos ⟨h, rfl⟩]

theorem takes_put_iff (content : List UInt8) : (fs.put place content).Takes place ↔ fs.Takes place := by
  rw [Takes, node?_put_eq]
  by_cases h : fs.Takes place
  · simpa [h] using h.1
  · rw [if_neg fun h' => h h'.1, Takes]

end FileSystem

namespace OpenFile

variable {f g k : OpenFile} {fs gs ks : FileSystem} {a b bytes : List UInt8}

/-- An open file and the files around it, as far as anything can come of them.  Where the next bytes go counts
only if they do not go to the end anyway. -/
structure Alike (x y : OpenFile × FileSystem) : Prop where
  path : y.1.path = x.1.path
  append : y.1.append = x.1.append
  waiting : y.1.waiting = x.1.waiting
  offset : x.1.append = false → y.1.offset = x.1.offset
  nodes : ∀ q, y.2.node? q = x.2.node? q

theorem Alike.refl (x : OpenFile × FileSystem) : Alike x x := ⟨rfl, rfl, rfl, fun _ => rfl, fun _ => rfl⟩

theorem Alike.symm {x y : OpenFile × FileSystem} (h : Alike x y) : Alike y x :=
  ⟨h.path.symm, h.append.symm, h.waiting.symm, fun hend => (h.offset (h.append ▸ hend)).symm, fun q => (h.nodes q).symm⟩

theorem Alike.trans {x y z : OpenFile × FileSystem} (h : Alike x y) (h' : Alike y z) : Alike x z where
  path := h'.path.trans h.path
  append := h'.append.trans h.append
  waiting := h'.waiting.trans h.waiting
  offset hend := (h'.offset (h.append.trans hend)).trans (h.offset hend)
  nodes q := (h'.nodes q).trans (h.nodes q)

/-- Where the next bytes go. -/
def start (f : OpenFile) (fs : FileSystem) : Nat := if f.append then (fs.contentAt f.path).length else f.offset

theorem store_eq (f : OpenFile) (fs : FileSystem) (bytes : List UInt8) :
    f.store fs bytes = ({ f with offset := f.start fs + bytes.length },
      fs.put f.path (overwrite (fs.contentAt f.path) (f.start fs) bytes)) := rfl

theorem alike_store (h : Alike (f, fs) (g, gs)) (bytes : List UInt8) : Alike (f.store fs bytes) (g.store gs bytes) := by
  obtain ⟨hpath, happend, hwaiting, hoffset, hnodes⟩ := h
  dsimp only at hpath happend hwaiting hoffset hnodes
  have hcontent : gs.contentAt f.path = fs.contentAt f.path := by
    rw [FileSystem.contentAt, FileSystem.contentAt, hnodes]
  have hstart : g.start gs = f.start fs := by
    rw [start, start, hpath, hcontent, happend]
    split
    · rfl
    · next hend => exact hoffset (by simpa using hend)
  rw [store_eq, store_eq, hstart, hpath, hcontent]
  refine ⟨rfl, happend, hwaiting, fun _ => rfl, fun q => ?_⟩
  simp only [FileSystem.node?_put_eq, FileSystem.takes_congr hnodes, hnodes]

theorem overwrite_overwrite (content : List UInt8) (offset : Nat) (a b : List UInt8) :
    overwrite (overwrite content offset a) (offset + a.length) b = overwrite content offset (a ++ b) := by
  -- all that stands before the bytes is as long as the offset
  obtain ⟨front, hfront, hlength⟩ : ∃ front, (∀ bytes, overwrite content offset bytes =
      front ++ bytes ++ content.drop (offset + bytes.length)) ∧ front.length = offset :=
    ⟨content.take offset ++ List.replicate (offset - (content.take offset).length) 0, fun _ => rfl, by
      rw [List.length_append, List.length_replicate, List.length_take]
      omega⟩
  have htake : (overwrite content offset a).take (offset + a.length) = front ++ a := by
    rw [hfront, List.take_append_of_le_length (by simp [hlength])]
    exact List.take_of_length_le (by simp [hlength])
  have hdrop : (overwrite content offset a).drop (offset + a.length + b.length) =
      content.drop (offset + (a ++ b).length) := by
    rw [hfront, List.drop_append, List.drop_of_length_le (by simp [hlength]), List.drop_drop]
    simp [hlength]
    congr 1
    omega
  rw [overwrite, htake, hdrop, hfront (a ++ b)]
  simp [hlength]

theorem alike_store_store (hfirst : f.store fs a = (g, gs)) : Alike (g.store gs b) (f.store fs (a ++ b)) := by
  rw [store_eq] at hfirst
  cases hfirst
  by_cases htakes : fs.Takes f.path
  · have hstart : start { f with offset := f.start fs + a.length }
        (fs.put f.path (overwrite (fs.contentAt f.path) (f.start fs) a)) = f.start fs + a.length := by
      cases happend : f.append <;> simp [start, happend, FileSystem.contentAt_put htakes, overwrite]
    rw [store_eq, store_eq, hstart]
    refine ⟨rfl, rfl, rfl, fun _ => by simp [Nat.add_assoc], fun q => ?_⟩
    simp only [FileSystem.node?_put_eq, FileSystem.takes_put_iff, FileSystem.contentAt_put htakes, overwrite_overwrite]
    split <;> rfl
  · -- nothing comes of the bytes
    rw [store_eq, store_eq]
    refine ⟨rfl, rfl, rfl, fun hend => ?_, fun q => ?_⟩
    · simp only at hend
      simp [start, hend, Nat.add_assoc]
    · simp [FileSystem.node?_put_eq, FileSystem.takes_put_iff, htakes]

theorem waiting_flush (h : f.flush fs = (g, gs)) : g.waiting = #[] := by
  rw [flush] at h
  split at h
  · next hempty =>
      cases h
      simpa using hempty
  · cases h
    rfl

theorem flush_of_empty (h : f.waiting = #[]) (fs : FileSystem) : f.flush fs = (f, fs) := by
  simp [flush, h]

theorem flush_of_ne (h : f.waiting ≠ #[]) (fs : FileSystem) :
    f.flush fs = { f with waiting := #[] }.store fs f.waiting.toList := by
  rw [flush, if_neg (by simpa using h)]

/-- To write and then to flush is to flush and then to write past the buffer. -/
theorem alike_flush_write (hne : bytes ≠ []) (hwrite : f.write fs bytes = (g, gs)) (hflush : f.flush fs = (k, ks)) :
    Alike (g.flush gs) (k.store ks bytes) := by
  have hempty := waiting_flush hflush
  -- a file of which nothing waits when the bytes come, for which they are too long or not
  have hroom : ∀ (r : OpenFile) (rs : FileSystem), r.waiting = #[] → (if bytes.length ≥ bufferSize then r.store rs bytes
      else ({ r with waiting := r.waiting ++ bytes }, rs)) = (g, gs) → g.flush gs = r.store rs bytes := by
    intro r rs hr hlast
    split at hlast
    · rw [hlast, flush_of_empty]
      cases hlast
      exact hr
    · cases hlast
      rw [flush_of_ne (by simpa [hr] using hne)]
      simp [store, hr]
  rw [write] at hwrite
  split at hwrite
  next r rs hfits =>
    split at hfits
    · cases hflush.symm.trans hfits
      rw [hroom k ks hempty hwrite]
      exact .refl _
    · next hshort =>
      cases hfits
      by_cases hwaiting : f.waiting = #[]
      · cases (flush_of_empty hwaiting fs).symm.trans hflush
        rw [hroom f fs hwaiting hwrite]
        exact .refl _
      · have hsize : 0 < f.waiting.size := Array.size_pos_iff.2 hwaiting
        rw [if_neg (by omega)] at hwrite
        cases hwrite
        have hlist : (f.waiting ++ bytes).toList = f.waiting.toList ++ bytes := by simp
        have hfull : f.waiting ++ bytes ≠ #[] := fun hnil => by
          rw [hnil] at hlist
          exact hne (List.append_eq_nil_iff.1 hlist.symm).2
        rw [flush_of_ne hwaiting] at hflush
        rw [flush_of_ne hfull]
        dsimp only
        rw [hlist]
        exact (alike_store_store hflush).symm

/-- Bytes that are written in two pieces come to the same as all of them at once. -/
theorem alike_write_write {m : OpenFile} {ms : FileSystem} (ha : a ≠ []) (hb : b ≠ [])
    (hfirst : f.write fs a = (g, gs)) (hsecond : g.write gs b = (k, ks)) (hwhole : f.write fs (a ++ b) = (m, ms)) :
    Alike (k.flush ks) (m.flush ms) := by
  have hstored : Alike (g.flush gs) ((f.flush fs).1.store (f.flush fs).2 a) := alike_flush_write ha hfirst rfl
  have hpieces : Alike (k.flush ks) ((g.flush gs).1.store (g.flush gs).2 b) := alike_flush_write hb hsecond rfl
  have hboth : Alike (m.flush ms) ((f.flush fs).1.store (f.flush fs).2 (a ++ b)) :=
    alike_flush_write (by simp [ha]) hwhole rfl
  exact (hpieces.trans (alike_store hstored b)).trans ((alike_store_store rfl).trans hboth.symm)

end OpenFile

end CommandShell
