import CommandShell.Files.OpenFile

/-!
What writing to open files and making folders does to the files.  A node of a file that is open is
seen together with the bytes that wait for it; main statements: writing adds bytes to that view,
flushing keeps it, and no operation on one place changes another.
-/

namespace CommandShell

/-- The node with bytes added at its end. -/
def Node.extend : Node → List UInt8 → Node
  | .file content, bytes => .file (content ++ bytes)
  | node, _ => node

/-- What opening for writing makes of the node at a place. -/
def Node.opened (before : Option Node) (append : Bool) : Node :=
  match before with
  | some .null => .null
  | some (.file content) => .file (if append then content else [])
  | _ => .file []

namespace Node

@[simp] theorem extend_nil (n : Node) : n.extend [] = n := by
  cases n <;> simp [extend]

@[simp] theorem extend_extend (n : Node) (bs cs : List UInt8) :
    (n.extend bs).extend cs = n.extend (bs ++ cs) := by
  cases n <;> simp [extend]

theorem opened_ne_folder (before : Option Node) (append : Bool) : opened before append ≠ .folder := by
  unfold opened
  split <;> nofun

end Node

/-- What is at the place is left as it is, unless nothing is and a folder is made there. -/
def FileSystem.KeepsAt (fs gs : FileSystem) (place : String) : Prop :=
  gs.node? place = fs.node? place ∨ fs.node? place = none ∧ gs.node? place = some .folder

namespace FileSystem

variable {fs gs hs : FileSystem} {place path : String}

theorem KeepsAt.refl (fs : FileSystem) (place : String) : fs.KeepsAt fs place := .inl rfl

theorem KeepsAt.trans (h : fs.KeepsAt gs place) (h' : gs.KeepsAt hs place) : fs.KeepsAt hs place := by
  rcases h with h | ⟨hnone, hfolder⟩
  · rcases h' with h' | ⟨hnone, hfolder⟩
    · exact .inl (h'.trans h)
    · exact .inr ⟨h ▸ hnone, hfolder⟩
  · rcases h' with h' | ⟨hnone', -⟩
    · exact .inr ⟨hnone, h'.trans hfolder⟩
    · cases hfolder.symm.trans hnone'

theorem KeepsAt.node {n : Node} (h : fs.KeepsAt gs place) (hn : fs.node? place = some n) :
    gs.node? place = some n := by
  rcases h with h | ⟨hnone, -⟩
  · rw [h, hn]
  · cases hn.symm.trans hnone

theorem node?_insert (fs : FileSystem) (n : Node) (q : String) (hplace : place ≠ "") :
    { fs with nodes := fs.nodes.insert place n }.node? q = if q = place then some n else fs.node? q := by
  unfold node?
  by_cases hq : q = ""
  · simp [hq, Ne.symm hplace]
  · simp [hq, Dict.get?_insert]

theorem node?_put (content : List UInt8) (hplace : fs.node? place ≠ some .folder)
    (hnull : fs.node? place ≠ some .null) (q : String) :
    (fs.put place content).node? q = if q = place then some (.file content) else fs.node? q := by
  have hne : place ≠ "" := by
    rintro rfl
    exact hplace rfl
  rw [put, if_neg (by simpa using hnull), node?_insert _ _ _ hne]

theorem put_of_null (content : List UInt8) (hnull : fs.node? place = some .null) :
    fs.put place content = fs := by
  rw [put, if_pos (by simpa using hnull)]

theorem node?_put_of_ne (content : List UInt8) {q : String} (hq : q ≠ place) :
    (fs.put place content).node? q = fs.node? q := by
  rw [put]
  split
  · rfl
  · unfold node?
    simp [Dict.get?_insert, hq]

@[simp] theorem current_put (fs : FileSystem) (path : String) (content : List UInt8) :
    (fs.put path content).current = fs.current := by
  rw [put]
  split <;> rfl

/-! ### Where a path leads -/

/-- The folder or the name in it that one name of a path leads to. -/
def walk (folder name : String) : String :=
  if name.isEmpty || name = "." then folder
  else if name = ".." then parentOf folder
  else folder ++ "/" ++ name

/-- The place that a path leads to, if it leads anywhere. -/
def placeOf (current path : String) : String :=
  (namesOf path).foldl walk (if path.toList.head? = some '/' then "" else current)

theorem enter_eq_ok {folder name inner : String} (h : fs.enter folder name = .ok inner) :
    inner = walk folder name := by
  rw [enter] at h
  rw [walk]
  split at h
  next hdot => cases h; rw [if_pos hdot]
  next hdot =>
    split at h
    next hup => cases h; rw [if_neg hdot, if_pos hup]
    next hup =>
      split at h
      next => cases h
      next => split at h <;> cases h; rw [if_neg hdot, if_neg hup]

theorem follow_eq_ok {folder : String} {names : List String} {l : Location}
    (h : fs.follow folder names = .ok l) : l.path = names.foldl walk folder := by
  fun_induction follow fs folder names with
  | case1 folder => cases h; rfl
  | case2 folder name hdot => cases h; simp [walk, hdot, Location.path]
  | case3 folder hdot => cases h; simp [walk, Location.path]
  | case4 => cases h
  | case5 folder name hdot hup hlimit => cases h; simp [walk, hdot, hup, Location.path]
  | case6 => cases h
  | case7 folder name names hne inner henter ih => rw [ih h, enter_eq_ok henter]; rfl

theorem locate_eq_ok {l : Location} (h : fs.locate path = .ok l) :
    l.path = placeOf fs.current path := by
  rw [locate] at h
  split at h
  next => cases h
  next =>
    split at h
    next => cases h
    next =>
      split at h
      next => cases h
      next => exact follow_eq_ok h

/-! ### Folders -/

theorem makeFolder_keeps (h : fs.makeFolder path = .ok gs) :
    gs.current = fs.current ∧ ∀ place, fs.KeepsAt gs place := by
  rw [makeFolder] at h
  split at h
  next => cases h
  next l hl =>
    split at h
    next => cases h
    next hnone =>
      cases h
      refine ⟨rfl, fun place => ?_⟩
      have hne : l.path ≠ "" := by
        intro hempty
        rw [hempty] at hnone
        cases hnone
      rw [KeepsAt]
      rw [node?_insert _ _ _ hne]
      by_cases hplace : place = l.path
      · rw [if_pos hplace, hplace]
        exact .inr ⟨hnone, rfl⟩
      · rw [if_neg hplace]
        exact .inl rfl

theorem makeMissing_keeps {paths : List String} (h : fs.makeMissing paths = .ok gs) :
    gs.current = fs.current ∧ ∀ place, fs.KeepsAt gs place := by
  induction paths generalizing fs gs with
  | nil => cases h; exact ⟨rfl, .refl fs⟩
  | cons path parents ih =>
      rw [makeMissing] at h
      split at h
      next hmake => cases h; exact makeFolder_keeps hmake
      next =>
        split at h
        next => cases h
        next hs hparents =>
          obtain ⟨hcurrent, hkeeps⟩ := ih hparents
          split at h
          next => cases h; exact ⟨hcurrent, hkeeps⟩
          next =>
            obtain ⟨hcurrent', hkeeps'⟩ := makeFolder_keeps h
            exact ⟨hcurrent'.trans hcurrent, fun place => (hkeeps place).trans (hkeeps' place)⟩
      next => split at h <;> cases h; exact ⟨rfl, .refl fs⟩

/-! ### Opening -/

theorem openForWriting_eq_ok {keep : Bool} (h : fs.openForWriting path keep = .ok (gs, place)) :
    place = placeOf fs.current path ∧ gs.current = fs.current ∧ fs.node? place ≠ some .folder ∧
      gs.node? place = some (Node.opened (fs.node? place) keep) ∧
      ∀ q, q ≠ place → gs.node? q = fs.node? q := by
  have hemptied : ∀ l : Location, fs.node? l.path ≠ some .folder → fs.node? l.path ≠ some .null →
      ∀ q, (fs.put l.path []).node? q = if q = l.path then some (.file []) else fs.node? q :=
    fun l => node?_put []
  rw [openForWriting] at h
  split at h
  next => cases h
  next l hl =>
    rw [← locate_eq_ok hl]
    split at h
    next => cases h
    next => cases h
    next => cases h
    next => cases h
    next content hnode hslash =>
      cases keep with
      | true =>
          cases h
          exact ⟨rfl, rfl, by simp [hnode], by simp [hnode, Node.opened], fun _ _ => rfl⟩
      | false =>
          cases h
          have hput := hemptied l (by simp [hnode]) (by simp [hnode])
          exact ⟨rfl, current_put fs _ _, by simp [hnode], by simp [hput, hnode, Node.opened],
            fun q hq => by simp [hput, hq]⟩
    next hnode hslash =>
      cases h
      have hput := hemptied l (by simp [hnode]) (by simp [hnode])
      exact ⟨rfl, current_put fs _ _, by simp [hnode], by simp [hput, hnode, Node.opened],
        fun q hq => by simp [hput, hq]⟩
    next hnode hslash =>
      cases h
      exact ⟨rfl, rfl, by simp [hnode], by simp [hnode, Node.opened], fun _ _ => rfl⟩

end FileSystem

/-! ### Open files -/

namespace OpenFile

variable {f g : OpenFile} {fs gs : FileSystem} {n : Node} {bytes : List UInt8}

/-- Once what waits has been written, `n` is at the file's place. -/
structure Holds (f : OpenFile) (fs : FileSystem) (n : Node) : Prop where
  ne_folder : fs.node? f.path ≠ some .folder
  node : ∃ now, fs.node? f.path = some now ∧ now.extend f.waiting.toList = n
  atEnd : ∀ content, fs.node? f.path = some (.file content) → f.append = false →
    f.offset = content.length

theorem Holds.keep (h : f.Holds fs n) (hkeep : fs.KeepsAt gs f.path) : f.Holds gs n := by
  obtain ⟨now, hnow, hn⟩ := h.node
  have hsame : gs.node? f.path = fs.node? f.path := by rw [hkeep.node hnow, hnow]
  exact ⟨hsame ▸ h.ne_folder, hsame ▸ h.node, hsame ▸ h.atEnd⟩

theorem overwrite_end (content bytes : List UInt8) :
    overwrite content content.length bytes = content ++ bytes := by
  simp [overwrite]

/-- What a change of an open file leaves alone. -/
structure Around (f : OpenFile) (fs : FileSystem) (g : OpenFile) (gs : FileSystem) : Prop where
  path : g.path = f.path
  append : g.append = f.append
  current : gs.current = fs.current
  others : ∀ q, q ≠ f.path → gs.node? q = fs.node? q

theorem Around.refl (f : OpenFile) (fs : FileSystem) : Around f fs f fs := ⟨rfl, rfl, rfl, fun _ _ => rfl⟩

theorem Around.trans {k : OpenFile} {hs : FileSystem} (h : Around f fs g gs) (h' : Around g gs k hs) :
    Around f fs k hs :=
  ⟨h'.path.trans h.path, h'.append.trans h.append, h'.current.trans h.current,
    fun q hq => (h'.others q (h.path ▸ hq)).trans (h.others q hq)⟩

theorem around_store (hstore : f.store fs bytes = (g, gs)) : Around f fs g gs := by
  cases hstore
  exact ⟨rfl, rfl, FileSystem.current_put _ _ _, fun _ hq => FileSystem.node?_put_of_ne _ hq⟩

theorem around_flush (hflush : f.flush fs = (g, gs)) : Around f fs g gs := by
  rw [flush] at hflush
  split at hflush
  · cases hflush
    exact .refl f fs
  · obtain ⟨hpath, happend, hcurrent, hothers⟩ := around_store hflush
    exact ⟨hpath, happend, hcurrent, hothers⟩

theorem around_write (hwrite : f.write fs bytes = (g, gs)) : Around f fs g gs := by
  rw [write] at hwrite
  split at hwrite
  next k hs heq =>
    have hroom : Around f fs k hs := by
      split at heq
      · exact around_flush heq
      · cases heq
        exact .refl f fs
    split at hwrite
    · exact hroom.trans (around_store hwrite)
    · cases hwrite
      exact hroom.trans ⟨rfl, rfl, rfl, fun _ _ => rfl⟩

/-- Storing bytes where none wait adds them at the end. -/
theorem holds_store (h : f.Holds fs n) (hwaiting : f.waiting = #[]) (hstore : f.store fs bytes = (g, gs)) :
    g.Holds gs (n.extend bytes) ∧ g.waiting = #[] := by
  obtain ⟨now, hnow, hn⟩ := h.node
  rw [hwaiting, Array.toList_empty, Node.extend_nil] at hn
  subst hn
  cases now with
  | folder => exact absurd hnow h.ne_folder
  | null =>
      simp only [store, hnow, FileSystem.put_of_null _ hnow] at hstore
      cases hstore
      exact ⟨⟨h.ne_folder, ⟨.null, hnow, rfl⟩, by simp [hnow]⟩, hwaiting⟩
  | file content =>
      have hoffset : (if f.append then content.length else f.offset) = content.length := by
        cases happend : f.append with
        | true => rfl
        | false => exact h.atEnd content hnow happend
      simp only [store, hnow, hoffset, overwrite_end] at hstore
      cases hstore
      have hput := FileSystem.node?_put (content ++ bytes) h.ne_folder (by simp [hnow])
      refine ⟨⟨by simp [hput], ⟨.file (content ++ bytes), by simp [hput],
        by simp [hwaiting, Node.extend]⟩, ?_⟩, hwaiting⟩
      intro content' hcontent _
      rw [hput, if_pos rfl] at hcontent
      cases hcontent
      simp

theorem holds_flush (h : f.Holds fs n) (hflush : f.flush fs = (g, gs)) : g.Holds gs n ∧ g.waiting = #[] := by
  rw [flush] at hflush
  split at hflush
  next hempty => cases hflush; exact ⟨h, by simpa using hempty⟩
  next =>
    obtain ⟨now, hnow, rfl⟩ := h.node
    have hcut : OpenFile.Holds { f with waiting := #[] } fs now :=
      ⟨h.ne_folder, ⟨now, hnow, Node.extend_nil now⟩, h.atEnd⟩
    exact holds_store hcut rfl hflush

theorem holds_write (h : f.Holds fs n) (hwrite : f.write fs bytes = (g, gs)) : g.Holds gs (n.extend bytes) := by
  rw [write] at hwrite
  split at hwrite
  next k hs heq =>
    have hroom : k.Holds hs n ∧ (bytes.length ≥ bufferSize → k.waiting = #[]) := by
      split at heq
      next =>
        obtain ⟨hk, hwaiting⟩ := holds_flush h heq
        exact ⟨hk, fun _ => hwaiting⟩
      next hfits =>
        cases heq
        refine ⟨h, fun hlong => ?_⟩
        apply Array.eq_empty_of_size_eq_zero
        omega
    obtain ⟨hk, hlong⟩ := hroom
    split at hwrite
    next hsize => exact (holds_store hk (hlong hsize) hwrite).1
    next =>
      cases hwrite
      obtain ⟨now, hnow, rfl⟩ := hk.node
      exact ⟨hk.ne_folder, ⟨now, hnow, by simp⟩, hk.atEnd⟩

/-- Where nothing waits, what the file holds is what is there. -/
theorem Holds.node_of_flushed (h : f.Holds fs n) (hwaiting : f.waiting = #[]) :
    fs.node? f.path = some n := by
  obtain ⟨now, hnow, rfl⟩ := h.node
  rw [hnow, hwaiting, Array.toList_empty, Node.extend_nil]

end OpenFile

end CommandShell
