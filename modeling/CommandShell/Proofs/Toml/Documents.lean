import CommandShell.Proofs.Toml.Values

/-!
TOML documents.  Main statement: a document that has been written is read back as the tables and values that were
written.
-/

namespace CommandShell.Toml

open Reader Printer

variable {cs rest : List Char} {es pre inner : Entries} {key name : String} {v w : Value}

/-! ### What is written -/

/-- A key that is written without quotes. -/
def IsBareKey (key : String) : Prop := !key.toList.isEmpty && key.toList.all isBareKeyChar

instance (key : String) : Decidable (IsBareKey key) := inferInstanceAs (Decidable (_ = true))

def Section.entries (s : Section) : Entries := s.fields.map fun f => (f.1, f.2.value)

/-- A table that is read back: with bare keys, no two of which are equal, and numbers that are not too large. -/
structure Section.IsReadable (s : Section) : Prop where
  name : IsBareKey s.name
  keys : ∀ key ∈ s.fields.map (·.1), IsBareKey key
  nodup : (s.fields.map (·.1)).Nodup
  values : ∀ f ∈ s.fields, f.2.IsReadable

/-- The table of a document. -/
def entriesOf (sections : List Section) : Entries := sections.map fun s => (s.name, .table .header s.entries)

/-! ### Tables -/

theorem Entries.get?_eq_none (h : key ∉ es.map (·.1)) : es.get? key = none := by
  rw [Entries.get?, List.find?_eq_none.2, Option.map_none]
  intro e he heq
  exact h (List.mem_map.2 ⟨e, he, by simpa using heq⟩)

theorem Entries.get?_concat (h : key ∉ es.map (·.1)) : Entries.get? (es ++ [(key, v)]) key = some v := by
  have hnone := Option.map_eq_none_iff.1 (Entries.get?_eq_none h)
  rw [Entries.get?, List.find?_append, hnone]
  simp

theorem Entries.put_concat (h : key ∉ es.map (·.1)) : Entries.put (es ++ [(key, v)]) key w = es ++ [(key, w)] := by
  induction es with
  | nil => simp [Entries.put]
  | cons e es ih =>
      rw [List.map_cons, List.mem_cons, not_or] at h
      rw [List.cons_append, Entries.put, if_neg (Ne.symm h.1), ih h.2]
      rfl

/-! ### Lines -/

theorem isSpace_eq_false {p : Char → Bool} {c : Char} (hc : p c = true) (hspace : p ' ' = false)
    (htab : p '\t' = false) : isSpace c = false := by
  rw [Bool.eq_false_iff]
  intro h
  rw [isSpace, Bool.or_eq_true, beq_iff_eq, beq_iff_eq] at h
  obtain rfl | rfl := h
  · rw [hspace] at hc
    cases hc
  · rw [htab] at hc
    cases hc

theorem isBareKey_iff : IsBareKey key ↔ key.toList ≠ [] ∧ ∀ c ∈ key.toList, isBareKeyChar c = true := by
  simp [IsBareKey]

theorem IsBareKey.exists_cons (h : IsBareKey key) :
    ∃ c cs, key.toList = c :: cs ∧ isBareKeyChar c = true := by
  obtain ⟨hne, hall⟩ := isBareKey_iff.1 h
  obtain ⟨c, cs, hcs⟩ := List.exists_cons_of_ne_nil hne
  exact ⟨c, cs, hcs, hall c (by rw [hcs]; exact List.mem_cons_self)⟩

theorem IsBareKey.append_ne_cons {x : Char} (h : IsBareKey key) (hx : isBareKeyChar x = false)
    (rest xs : List Char) : key.toList ++ rest ≠ x :: xs := by
  obtain ⟨c, cs, hcs, hc⟩ := h.exists_cons
  rw [hcs]
  exact ne_cons hc hx _ xs

theorem IsBareKey.skipSpaces_append (h : IsBareKey key) (rest : List Char) :
    skipSpaces (key.toList ++ rest) = key.toList ++ rest := by
  obtain ⟨c, cs, hcs, hc⟩ := h.exists_cons
  rw [hcs]
  exact List.dropWhile_cons_of_neg (by simp [isSpace_eq_false hc rfl rfl])

theorem readKeyPart_append (h : IsBareKey key) (hrest : ∀ c ∈ rest.head?, isBareKeyChar c = false) :
    readKeyPart (key.toList ++ rest) = some (key, rest) := by
  have htake : (key.toList ++ rest).takeWhile isBareKeyChar = key.toList :=
    takeWhile_append_of_head (isBareKey_iff.1 h).2 hrest
  unfold readKeyPart
  split
  · next heq => exact (h.append_ne_cons rfl _ _ heq).elim
  · next heq => exact (h.append_ne_cons rfl _ _ heq).elim
  · simp only [htake]
    rw [if_neg (by simpa using (isBareKey_iff.1 h).1), List.drop_left, String.ofList_toList]

theorem readKey_append (h : IsBareKey key) (hrest : ∀ c ∈ rest.head?, isBareKeyChar c = false)
    (hmore : (skipSpaces rest).head? ≠ some '.') : readKey (key.toList ++ rest) = some ([key], skipSpaces rest) := by
  rw [readKey, depthLimit, readParts, h.skipSpaces_append, readKeyPart_append h hrest]
  dsimp only
  split
  · next heq =>
      rw [heq] at hmore
      exact absurd rfl hmore
  · rfl

/-- The document goes on with these characters, and then has these entries. -/
def Reads (d : Document) (cs : List Char) (es : Entries) : Prop :=
  ∀ fuel, cs.length < fuel → readDocument fuel d cs = some es

variable {d d' : Document} {path : List String}

theorem Reads.nil : Reads d [] d.entries := by
  intro fuel h
  obtain ⟨fuel, rfl⟩ : ∃ n, fuel = n + 1 := ⟨fuel - 1, by omega⟩
  rfl

theorem Reads.line (h : readStatement d (skipSpaces cs) = some (d', '\n' :: rest)) (hlt : rest.length < cs.length)
    (hrest : Reads d' rest es) : Reads d cs es := by
  intro fuel hfuel
  obtain ⟨fuel, rfl⟩ : ∃ n, fuel = n + 1 := ⟨fuel - 1, by omega⟩
  have hmore := hrest fuel (by omega)
  rw [readDocument, h]
  cases rest with
  | nil =>
      obtain ⟨fuel, rfl⟩ : ∃ n, fuel = n + 1 := ⟨fuel - 1, by omega⟩
      exact hmore
  | cons c rest => exact hmore

/-- An empty line. -/
theorem Reads.break (h : Reads d cs es) : Reads d ('\n' :: cs) es := h.line rfl (by simp)

theorem readStatement_header (hkey : IsBareKey name) (hname : name ∉ pre.map (·.1)) :
    readStatement ⟨pre, path⟩ ('[' :: (name.toList ++ ']' :: cs)) =
      some (⟨pre ++ [(name, .table .header [])], [name]⟩, cs) := by
  have hread : readKey (name.toList ++ ']' :: cs) = some ([name], ']' :: cs) :=
    readKey_append hkey (by simp; decide) (by simp [skipSpaces, isSpace])
  have hopen : Document.openAt ⟨pre, path⟩ Entries.openTable [name] =
      some ⟨pre ++ [(name, .table .header [])], [name]⟩ := by
    simp [Document.openAt, Entries.changeAt, Entries.openTable, Entries.get?_eq_none hname]
  rw [readStatement, hread]
  · simp only [hopen]
    rfl
  · exact fun _ => hkey.append_ne_cons rfl _ _

theorem Reads.header (path : List String) (hkey : IsBareKey name) (hname : name ∉ pre.map (·.1))
    (h : Reads ⟨pre ++ [(name, .table .header [])], [name]⟩ cs es) :
    Reads ⟨pre, path⟩ ('[' :: (name.toList ++ ']' :: '\n' :: cs)) es := by
  refine h.line (readStatement_header hkey hname) ?_
  simp only [List.length_cons, List.length_append]
  omega

theorem skipSpaces_render (f : Field) (rest : List Char) :
    skipSpaces (f.render.toList ++ rest) = f.render.toList ++ rest := by
  have hhead : ∃ c cs, f.render.toList = c :: cs ∧ isSpace c = false := by
    cases f with
    | text s =>
        have hread := @readString_string [] s nofun nofun
        rw [List.append_nil] at hread
        obtain hhead | hhead := head?_of_readString hread
        all_goals
          obtain ⟨cs, hcs⟩ := List.head?_eq_some_iff.1 hhead
          exact ⟨_, cs, hcs, rfl⟩
    | number n =>
        obtain ⟨c, cs, hcs⟩ := List.exists_cons_of_ne_nil (@Nat.toDigits_ne_nil n 10)
        have hc := isDigit_toDigits c (hcs ▸ List.mem_cons_self)
        refine ⟨c, cs, ?_, isSpace_eq_false hc rfl rfl⟩
        rw [Field.render, Nat.toString_eq_ofList_toDigits, String.toList_ofList, hcs]
    | truth b => cases b <;> exact ⟨_, _, rfl, rfl⟩
    | texts ss =>
        match ss with
        | [] => exact ⟨_, _, rfl, rfl⟩
        | [s] => exact ⟨'[', _, by simp [Field.render, strings]; rfl, rfl⟩
        | s :: t :: ss => exact ⟨'[', _, by simp [Field.render, strings]; rfl, rfl⟩
  obtain ⟨c, cs, hcs, hc⟩ := hhead
  rw [hcs]
  exact List.dropWhile_cons_of_neg (by simp [hc])

theorem readStatement_field {f : String × Field} (hkey : IsBareKey f.1) (hvalue : f.2.IsReadable)
    (hnew : f.1 ∉ inner.map (·.1)) (hname : name ∉ pre.map (·.1)) :
    readStatement ⟨pre ++ [(name, .table .header inner)], [name]⟩
        (f.1.toList ++ ' ' :: '=' :: ' ' :: (f.2.render.toList ++ '\n' :: cs)) =
      some (⟨pre ++ [(name, .table .header (inner ++ [(f.1, f.2.value)]))], [name]⟩, '\n' :: cs) := by
  have hread : readKey (f.1.toList ++ ' ' :: '=' :: ' ' :: (f.2.render.toList ++ '\n' :: cs)) =
      some ([f.1], '=' :: ' ' :: (f.2.render.toList ++ '\n' :: cs)) :=
    readKey_append hkey (by simp; decide) (by simp [skipSpaces, isSpace])
  have hskip : skipSpaces (' ' :: (f.2.render.toList ++ '\n' :: cs)) = f.2.render.toList ++ '\n' :: cs :=
    skipSpaces_render f.2 _
  have hfield := @readValue_render (' ' :: (f.2.render.toList ++ '\n' :: cs)).length 78 f.2 hvalue
    (by rw [List.length_cons, List.length_append]; omega) cs
  have hassign : Entries.changeAt (·.assign [f.1] f.2.value) (pre ++ [(name, .table .header inner)]) [name] =
      some (pre ++ [(name, .table .header (inner ++ [(f.1, f.2.value)]))]) := by
    simp [Entries.changeAt, Entries.get?_concat hname, Entries.assign, Entries.get?_eq_none hnew,
      Entries.put_concat hname]
  rw [readStatement, hread]
  · split
    · next heq =>
        cases heq
        rw [hskip, depthLimit, hfield]
        dsimp only
        rw [hassign]
        rfl
    · next hne => exact (hne _ _ rfl).elim
  · exact List.append_ne_nil_of_right_ne_nil _ (List.cons_ne_nil _ _)
  · exact fun _ => hkey.append_ne_cons rfl _ _
  · exact fun _ => hkey.append_ne_cons rfl _ _
  · exact fun _ => hkey.append_ne_cons rfl _ _
  · exact fun _ => hkey.append_ne_cons rfl _ _
  · exact fun _ => hkey.append_ne_cons rfl _ _

theorem Reads.field {f : String × Field} (hkey : IsBareKey f.1) (hvalue : f.2.IsReadable)
    (hnew : f.1 ∉ inner.map (·.1)) (hname : name ∉ pre.map (·.1))
    (h : Reads ⟨pre ++ [(name, .table .header (inner ++ [(f.1, f.2.value)]))], [name]⟩ cs es) :
    Reads ⟨pre ++ [(name, .table .header inner)], [name]⟩
      ((f.1 ++ " = " ++ f.2.render ++ "\n").toList ++ cs) es := by
  have htext : (f.1 ++ " = " ++ f.2.render ++ "\n").toList ++ cs =
      f.1.toList ++ ' ' :: '=' :: ' ' :: (f.2.render.toList ++ '\n' :: cs) := by simp
  rw [htext]
  refine h.line ?_ ?_
  · rw [hkey.skipSpaces_append]
    exact readStatement_field hkey hvalue hnew hname
  · simp only [List.length_cons, List.length_append]
    omega

theorem Reads.fields {fs : List (String × Field)} (hkeys : ∀ key ∈ fs.map (·.1), IsBareKey key)
    (hnodup : (inner.map (·.1) ++ fs.map (·.1)).Nodup) (hvalues : ∀ f ∈ fs, f.2.IsReadable)
    (hname : name ∉ pre.map (·.1))
    (h : Reads ⟨pre ++ [(name, .table .header (inner ++ fs.map fun f => (f.1, f.2.value)))], [name]⟩ cs es) :
    Reads ⟨pre ++ [(name, .table .header inner)], [name]⟩
      ((String.join (fs.map fun f => f.1 ++ " = " ++ f.2.render ++ "\n")).toList ++ cs) es := by
  induction fs generalizing inner with
  | nil => simpa using h
  | cons f fs ih =>
      obtain ⟨hkey, hkeys⟩ := List.forall_mem_cons.1 hkeys
      obtain ⟨hvalue, hvalues⟩ := List.forall_mem_cons.1 hvalues
      have hnew : f.1 ∉ inner.map (·.1) := by
        rw [List.map_cons, List.nodup_append] at hnodup
        exact fun hmem => hnodup.2.2 _ hmem _ List.mem_cons_self rfl
      rw [List.map_cons, String.join_cons, String.toList_append, List.append_assoc]
      refine Reads.field hkey hvalue hnew hname (ih hkeys ?_ hvalues ?_)
      · simpa using hnodup
      · simpa using h

theorem Reads.section (path : List String) {s : Section} (hs : s.IsReadable) (hname : s.name ∉ pre.map (·.1))
    (h : Reads ⟨pre ++ [(s.name, .table .header s.entries)], [s.name]⟩ cs es) :
    Reads ⟨pre, path⟩ (s.render.toList ++ cs) es := by
  have hfields : Reads ⟨pre ++ [(s.name, .table .header [])], [s.name]⟩ _ es :=
    Reads.fields hs.keys (by simpa using hs.nodup) hs.values hname h
  rw [Section.render]
  simpa using Reads.header path hs.name hname hfields

theorem Reads.render {sections : List Section} (hs : ∀ s ∈ sections, s.IsReadable)
    (hnodup : (pre.map (·.1) ++ sections.map (·.name)).Nodup) :
    Reads ⟨pre, path⟩ (render sections).toList (pre ++ entriesOf sections) := by
  induction sections generalizing pre path with
  | nil => simpa [Toml.render, entriesOf] using Reads.nil
  | cons s sections ih =>
      obtain ⟨hhead, htail⟩ := List.forall_mem_cons.1 hs
      have hname : s.name ∉ pre.map (·.1) := by
        rw [List.map_cons, List.nodup_append] at hnodup
        exact fun hmem => hnodup.2.2 _ hmem _ List.mem_cons_self rfl
      have hmore := @ih (pre ++ [(s.name, .table .header s.entries)]) [s.name] htail (by simpa using hnodup)
      have hentries : pre ++ entriesOf (s :: sections) =
          pre ++ [(s.name, .table .header s.entries)] ++ entriesOf sections := by simp [entriesOf]
      rw [hentries]
      cases sections with
      | nil =>
          have hend := Reads.section path hhead hname hmore
          simpa [Toml.render] using hend
      | cons t sections =>
          have hend := Reads.section path hhead hname hmore.break
          simpa [Toml.render, List.intercalate] using hend

end CommandShell.Toml
