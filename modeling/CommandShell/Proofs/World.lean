import CommandShell.Proofs.Files.Folders
import CommandShell.World

/-!
Files that are open in a world.  Main statements: what is written to one of them is added to what it
holds, and nothing else in the world is touched.
-/

namespace CommandShell

/-- Characters in UTF-8. -/
def Text.bytesOf (cs : List Char) : List UInt8 := (String.ofList cs).toUTF8.data.toList

@[simp] theorem Text.bytesOf_nil : bytesOf [] = [] := by
  simp [bytesOf]

theorem Text.bytesOf_append (cs ds : List Char) : bytesOf (cs ++ ds) = bytesOf cs ++ bytesOf ds := by
  simp [bytesOf, String.ofList_append, ByteArray.data_append]

theorem Text.bytesOf_toList (s : String) : bytesOf s.toList = s.toUTF8.data.toList := by
  simp [bytesOf]

namespace World

open Text

/-- The place that a path leads to, if it leads anywhere. -/
def placeOf (w : World) (path : String) : String :=
  FileSystem.placeOf w.files.current (expandHome w.home path)

/-- What is at the place is left as it is, and so are the files that are open there. -/
structure KeepsAt (w v : World) (place : String) : Prop where
  files : w.files.KeepsAt v.files place
  openFiles : ∀ {id : FileId} {f : OpenFile}, w.openFiles[id]? = some f → f.path = place →
    v.openFiles[id]? = some f

/-- Paths lead to the same places. -/
structure SamePaths (w v : World) : Prop where
  home : v.home = w.home
  current : v.files.current = w.files.current

/-- At most one place is touched, and that is no folder. -/
structure Apart (place? : Option String) (w v : World) : Prop where
  paths : w.SamePaths v
  tokens : v.tokens = w.tokens
  keeps : ∀ place, place? ≠ some place → w.KeepsAt v place
  folders : ∀ place, v.files.node? place = some .folder ↔ w.files.node? place = some .folder

/-- The file with that number writes to the place, and once all is written `n` is there. -/
def Filed (w : World) (id : FileId) (place : String) (n : Node) : Prop :=
  ∃ f, w.openFiles[id]? = some f ∧ f.path = place ∧ f.Holds w.files n

variable {w v u : World} {place : String} {place? : Option String} {id : FileId} {n : Node}

theorem KeepsAt.refl (w : World) (place : String) : w.KeepsAt w place :=
  ⟨.refl _ _, fun h _ => h⟩

theorem KeepsAt.trans (h : w.KeepsAt v place) (h' : v.KeepsAt u place) : w.KeepsAt u place :=
  ⟨h.files.trans h'.files, fun hf hp => h'.openFiles (h.openFiles hf hp) hp⟩

theorem SamePaths.refl (w : World) : w.SamePaths w := ⟨rfl, rfl⟩

theorem SamePaths.trans (h : w.SamePaths v) (h' : v.SamePaths u) : w.SamePaths u :=
  ⟨h'.home.trans h.home, h'.current.trans h.current⟩

theorem SamePaths.placeOf (h : w.SamePaths v) (path : String) : v.placeOf path = w.placeOf path := by
  rw [World.placeOf, h.current, h.home, World.placeOf]

theorem Apart.refl (place? : Option String) (w : World) : Apart place? w w :=
  ⟨.refl w, rfl, fun place _ => .refl w place, fun _ => .rfl⟩

theorem Apart.trans (h : Apart place? w v) (h' : Apart place? v u) : Apart place? w u :=
  ⟨h.paths.trans h'.paths, h'.tokens.trans h.tokens,
    fun place hne => (h.keeps place hne).trans (h'.keeps place hne),
    fun place => (h'.folders place).trans (h.folders place)⟩

/-- Only the terminal, or nothing that a file is made of, differs. -/
theorem Apart.of_eq (hfiles : v.files = w.files) (hopen : v.openFiles = w.openFiles)
    (hhome : v.home = w.home) (htokens : v.tokens = w.tokens) : Apart place? w v := by
  refine ⟨⟨hhome, by rw [hfiles]⟩, htokens, fun place _ => ⟨?_, fun hf _ => ?_⟩, fun place => ?_⟩
  · rw [hfiles]
    exact .refl _ _
  · rwa [hopen]
  · rw [hfiles]

theorem Filed.keep (h : w.Filed id place n) (hkeep : w.KeepsAt v place) : v.Filed id place n := by
  obtain ⟨f, hf, rfl, hholds⟩ := h
  exact ⟨f, hkeep.openFiles hf rfl, rfl, hholds.keep hkeep.files⟩

/-- A change of one open file touches only its place. -/
theorem apart_withFile {f g : OpenFile} {gs : FileSystem} {m : Node}
    {change : OpenFile → FileSystem → OpenFile × FileSystem} (hf : w.openFiles[id]? = some f)
    (hholds : f.Holds w.files n) (hchange : change f w.files = (g, gs)) (hafter : g.Holds gs m)
    (haround : OpenFile.Around f w.files g gs) :
    Apart (some f.path) w (w.withFile id change) ∧
      (w.withFile id change).openFiles[id]? = some g ∧ (w.withFile id change).files = gs := by
  have hid := (List.getElem?_eq_some_iff.1 hf).1
  have hchanged : w.withFile id change = { w with files := gs, openFiles := w.openFiles.set id g } := by
    simp only [withFile, hf, hchange]
  rw [hchanged]
  refine ⟨⟨⟨rfl, haround.current⟩, rfl, fun place hne => ⟨?_, ?_⟩, fun place => ?_⟩, ?_, rfl⟩
  · exact .inl (haround.others place fun h => hne (h ▸ rfl))
  · intro id' f' hf' hplace
    have hother : id ≠ id' := by
      rintro rfl
      cases hf.symm.trans hf'
      exact hne (hplace ▸ rfl)
    rw [List.getElem?_set_ne hother, hf']
  · by_cases hplace : place = f.path
    · have hgs := hafter.ne_folder
      rw [haround.path] at hgs
      rw [hplace]
      exact ⟨fun h => absurd h hgs, fun h => absurd h hholds.ne_folder⟩
    · rw [haround.others place hplace]
  · rw [List.getElem?_set_self hid]

theorem filed_writeFile (h : w.Filed id place n) (text : String) :
    (w.writeFile id text).Filed id place (n.extend (bytesOf text.toList)) ∧
      Apart (some place) w (w.writeFile id text) ∧ (w.writeFile id text).terminal = w.terminal := by
  obtain ⟨f, hf, rfl, hholds⟩ := h
  let change : OpenFile → FileSystem → OpenFile × FileSystem := fun f fs => f.writeText fs text
  rcases hwrite : change f w.files with ⟨g, gs⟩
  have hg := OpenFile.holds_write hholds hwrite
  have haround := OpenFile.around_write hwrite
  obtain ⟨hapart, hopen, hfiles⟩ := apart_withFile hf hholds hwrite hg haround
  refine ⟨⟨g, hopen, haround.path, ?_⟩, hapart, ?_⟩
  · rw [bytesOf_toList, writeFile, hfiles]
    exact hg
  · rw [writeFile, withFile, hf]

theorem filed_flushFile (h : w.Filed id place n) :
    (w.flushFile id).Filed id place n ∧ (w.flushFile id).files.node? place = some n ∧
      Apart (some place) w (w.flushFile id) ∧ (w.flushFile id).terminal = w.terminal := by
  obtain ⟨f, hf, rfl, hholds⟩ := h
  rcases hflush : f.flush w.files with ⟨g, gs⟩
  obtain ⟨hg, hwaiting⟩ := OpenFile.holds_flush hholds hflush
  have haround := OpenFile.around_flush hflush
  obtain ⟨hapart, hopen, hfiles⟩ := apart_withFile hf hholds hflush hg haround
  refine ⟨⟨g, hopen, haround.path, ?_⟩, ?_, hapart, ?_⟩
  · rw [flushFile, hfiles]
    exact hg
  · rw [flushFile, hfiles, ← haround.path]
    exact hg.node_of_flushed hwaiting
  · rw [flushFile, withFile, hf]

/-- A file can be opened for writing. -/
def CanOpen (w : World) (path : String) : Prop := w.files.CanOpen (expandHome w.home path)

theorem canOpen_iff {path : String} {append : Bool} :
    w.CanOpen path ↔ ∃ id v, w.openFile path append = .ok (id, v) := by
  rw [CanOpen, FileSystem.canOpen_iff append, openFile, FileSystem.openFile]
  rcases w.files.openForWriting (expandHome w.home path) append with fault | ⟨fs, place⟩ <;>
    simp [Except.map]

theorem CanOpen.ne_folder {path : String} (h : w.CanOpen path) :
    w.files.node? (w.placeOf path) ≠ some .folder := by
  obtain ⟨-, l, hl, hnode⟩ := h
  rwa [FileSystem.locate_eq_ok hl] at hnode

theorem CanOpen.covers {path : String} (hpaths : w.SamePaths v) (hcovers : v.files.Covers w.files)
    (hplace : v.files.node? (v.placeOf path) ≠ some .folder) (h : w.CanOpen path) : v.CanOpen path := by
  rw [CanOpen, ← hpaths.home] at h
  exact FileSystem.CanOpen.covers hpaths.current hcovers hplace h

theorem makeFoldersFor_eq (w : World) (path : String) :
    w.makeFoldersFor path =
      (w.files.makeMissing (FileSystem.foldersAbove (expandHome w.home path))).map
        fun files => { w with files } := by
  rw [← FileSystem.makeFolders_parent, makeFoldersFor]
  rcases FileSystem.parent? (expandHome w.home path) with _ | folder
  · rfl
  · dsimp only
    split <;> rfl

theorem makeFoldersFor_eq_ok {path : String} (h : w.makeFoldersFor path = .ok v) :
    ∃ files, w.files.makeMissing (FileSystem.foldersAbove (expandHome w.home path)) = .ok files ∧
      v = { w with files } := by
  rw [makeFoldersFor_eq] at h
  rcases hmake : w.files.makeMissing (FileSystem.foldersAbove (expandHome w.home path)) with fault | files
  · rw [hmake] at h
    cases h
  · rw [hmake] at h
    cases h
    exact ⟨files, rfl, rfl⟩

theorem openFile_eq_ok {path : String} {append : Bool} (h : w.openFile path append = .ok (id, v)) :
    ∃ fs place, w.files.openForWriting (expandHome w.home path) append = .ok (fs, place) ∧
      id = w.openFiles.length ∧
      v = { w with files := fs, openFiles := w.openFiles ++ [{ path := place, append }] } := by
  rw [openFile, FileSystem.openFile] at h
  rcases hwriting : w.files.openForWriting (expandHome w.home path) append with fault | ⟨fs, place⟩
  · rw [hwriting] at h
    cases h
  · rw [hwriting] at h
    cases h
    exact ⟨fs, place, rfl, rfl, rfl⟩

theorem filed_openFile {path : String} {append : Bool}
    (h : w.openFile path append = .ok (id, v)) :
    v.Filed id (w.placeOf path) (Node.opened (w.files.node? (w.placeOf path)) append) ∧
      Apart (some (w.placeOf path)) w v ∧ v.terminal = w.terminal := by
  obtain ⟨gs, place, hwriting, rfl, rfl⟩ := openFile_eq_ok h
  obtain ⟨hplace, hcurrent, hfolder, hnode, hothers⟩ := FileSystem.openForWriting_eq_ok hwriting
  have hplace : place = w.placeOf path := hplace
  subst hplace
  have hafter : gs.node? (w.placeOf path) ≠ some .folder := by
    simpa [hnode] using Node.opened_ne_folder _ _
  refine ⟨⟨{ path := w.placeOf path, append }, by simp, rfl, hafter, ⟨_, hnode, Node.extend_nil _⟩, ?_⟩,
    ⟨⟨rfl, hcurrent⟩, rfl, fun q hq => ⟨?_, ?_⟩, fun q => ?_⟩, rfl⟩
  · intro content hcontent happend
    cases happend
    rw [hnode, Option.some_inj] at hcontent
    unfold Node.opened at hcontent
    split at hcontent <;> cases hcontent <;> rfl
  · exact .inl (hothers q fun h => hq (h ▸ rfl))
  · intro id' f' hf' _
    rw [List.getElem?_append_left (List.getElem?_eq_some_iff.1 hf').1, hf']
  · by_cases hq : q = w.placeOf path
    · rw [hq]
      exact ⟨fun h => absurd h hafter, fun h => absurd h hfolder⟩
    · rw [hothers q hq]

end World

end CommandShell
