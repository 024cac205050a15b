import CommandShell.Proofs.Chain.Output

/-!
What is left alone when stages work on files of their own.  Main statement: no operation on a file touches
the screen of the terminal, or what is at another place than the file's.
-/

namespace CommandShell

/-- The second terminal shows what the first one shows, and fails where the first one fails. -/
structure Terminal.SameScreen (t u : Terminal) : Prop where
  shown : u.shown = t.shown
  faults : u.faults = t.faults
  lineTermination : u.lineTermination = t.lineTermination

namespace Terminal

variable {t u s : Terminal}

theorem SameScreen.refl (t : Terminal) : t.SameScreen t := ⟨rfl, rfl, rfl⟩

theorem SameScreen.trans (h : t.SameScreen u) (h' : u.SameScreen s) : t.SameScreen s :=
  ⟨h'.shown.trans h.shown, h'.faults.trans h.faults, h'.lineTermination.trans h.lineTermination⟩

theorem sameScreen_record (t : Terminal) {event : TerminalEvent} (h : ∀ text, event ≠ .write text) :
    t.SameScreen (t.record event) := by
  refine ⟨t.shown_record h, ?_, ?_⟩ <;> rw [record_of_mark t h]

theorem sameScreen_beginOutput (t : Terminal) : t.SameScreen t.beginOutput := by
  refine t.sameScreen_record ?_
  nofun

theorem sameScreen_setColor (t : Terminal) (color : Option Color) : t.SameScreen (t.setColor color).2 := by
  rw [setColor]
  split
  · exact .refl t
  · dsimp only
    refine t.sameScreen_record ?_
    nofun

theorem sameScreen_readKeys (t : Terminal) : t.SameScreen t.readKeys.terminal := by
  rw [readKeys]
  split
  · exact .refl t
  · split <;> exact ⟨rfl, rfl, rfl⟩

end Terminal

namespace World

/-- The screen, and the places of which `P` holds, are left as they are.  A file that is open stays at its
place. -/
structure Leaves (P : String → Prop) (w v : World) : Prop where
  keeps : ∀ place, P place → w.KeepsAt v place
  stays : ∀ {id : FileId} {f : OpenFile}, w.openFiles[id]? = some f →
    ∃ g, v.openFiles[id]? = some g ∧ g.path = f.path
  screen : w.terminal.SameScreen v.terminal

/-- The files are open at other places than those of which `P` holds. -/
def OpenElsewhere (P : String → Prop) (w : World) (files : List FileId) : Prop :=
  ∀ id ∈ files, ∃ f, w.openFiles[id]? = some f ∧ ¬P f.path

variable {P Q : String → Prop} {w v u : World} {id : FileId} {files : List FileId}

theorem Leaves.refl (P : String → Prop) (w : World) : Leaves P w w :=
  ⟨fun place _ => .refl w place, fun hf => ⟨_, hf, rfl⟩, .refl _⟩

theorem Leaves.trans (h : Leaves P w v) (h' : Leaves P v u) : Leaves P w u := by
  refine ⟨fun place hplace => (h.keeps place hplace).trans (h'.keeps place hplace), fun hf => ?_,
    h.screen.trans h'.screen⟩
  obtain ⟨g, hg, hpath⟩ := h.stays hf
  obtain ⟨k, hk, hpath'⟩ := h'.stays hg
  exact ⟨k, hk, hpath'.trans hpath⟩

theorem Leaves.mono (h : Leaves P w v) (hPQ : ∀ place, Q place → P place) : Leaves Q w v :=
  ⟨fun place hplace => h.keeps place (hPQ place hplace), h.stays, h.screen⟩

theorem leaves_of_eq (hfiles : v.files = w.files) (hopen : v.openFiles = w.openFiles)
    (hscreen : w.terminal.SameScreen v.terminal) : Leaves P w v :=
  ⟨fun _ _ => ⟨.inl (by rw [hfiles]), fun hf _ => by rwa [hopen]⟩, fun hf => ⟨_, by rwa [hopen], rfl⟩, hscreen⟩

theorem OpenElsewhere.keep (h : OpenElsewhere P w files) (hleaves : Leaves Q w v) : OpenElsewhere P v files := by
  intro id hid
  obtain ⟨f, hf, hplace⟩ := h id hid
  obtain ⟨g, hg, hpath⟩ := hleaves.stays hf
  exact ⟨g, hg, hpath ▸ hplace⟩

theorem leaves_readKeys (w : World) : Leaves P w w.readKeys.2 := by
  have hscreen := w.terminal.sameScreen_readKeys
  rw [readKeys]
  dsimp only
  split <;> exact leaves_of_eq rfl rfl hscreen

/-- A change of one open file touches only its place. -/
theorem leaves_withFile {f : OpenFile} {change : OpenFile → FileSystem → OpenFile × FileSystem}
    (hf : w.openFiles[id]? = some f) (hplace : ¬P f.path)
    (haround : OpenFile.Around f w.files (change f w.files).1 (change f w.files).2) :
    Leaves P w (w.withFile id change) := by
  have hid := (List.getElem?_eq_some_iff.1 hf).1
  have hchanged : w.withFile id change =
      { w with files := (change f w.files).2, openFiles := w.openFiles.set id (change f w.files).1 } := by
    simp only [withFile, hf]
  rw [hchanged]
  refine ⟨fun place hP => ⟨.inl (haround.others place fun h => hplace (h ▸ hP)), fun hg hpath => ?_⟩,
    fun {id' g} hg => ?_, .refl _⟩
  · rw [List.getElem?_set_ne, hg]
    rintro rfl
    cases hf.symm.trans hg
    exact hplace (hpath ▸ hP)
  · by_cases hsame : id = id'
    · subst hsame
      cases hf.symm.trans hg
      exact ⟨_, List.getElem?_set_self hid, haround.path⟩
    · exact ⟨g, by rw [List.getElem?_set_ne hsame, hg], rfl⟩

theorem leaves_writeFile {f : OpenFile} (hf : w.openFiles[id]? = some f) (hplace : ¬P f.path) (text : String) :
    Leaves P w (w.writeFile id text) :=
  leaves_withFile hf hplace (OpenFile.around_write rfl)

theorem leaves_flushFile {f : OpenFile} (hf : w.openFiles[id]? = some f) (hplace : ¬P f.path) :
    Leaves P w (w.flushFile id) :=
  leaves_withFile hf hplace (OpenFile.around_flush rfl)

theorem leaves_flushFiles (h : OpenElsewhere P w files) : Leaves P w (files.foldl flushFile w) := by
  induction files generalizing w with
  | nil => exact .refl P w
  | cons id files ih =>
      obtain ⟨f, hf, hplace⟩ := h id List.mem_cons_self
      have hflush := leaves_flushFile hf hplace
      have hrest : OpenElsewhere P w files := fun id' hid' => h id' (List.mem_cons_of_mem _ hid')
      exact hflush.trans (ih (hrest.keep hflush))

theorem leaves_endSession (w : World) (id : Nat) (hard : Bool) : Leaves P w (w.endSession id hard) := by
  rw [endSession]
  dsimp only
  split
  · split <;> exact leaves_of_eq rfl rfl (.refl _)
  · exact leaves_of_eq rfl rfl (.refl _)

theorem leaves_makeFoldersFor {path : String} (h : w.makeFoldersFor path = .ok v) : Leaves P w v := by
  obtain ⟨gs, hmake, rfl⟩ := makeFoldersFor_eq_ok h
  obtain ⟨-, hkeeps⟩ := FileSystem.makeMissing_keeps hmake
  exact ⟨fun place _ => ⟨hkeeps place, fun hf _ => hf⟩, fun hf => ⟨_, hf, rfl⟩, .refl _⟩

theorem leaves_openFile {path : String} {append : Bool} (h : w.openFile path append = .ok (id, v))
    (hplace : ¬P (w.placeOf path)) : Leaves P w v ∧ ∃ f, v.openFiles[id]? = some f ∧ ¬P f.path := by
  obtain ⟨-, hapart, -⟩ := filed_openFile h
  obtain ⟨gs, place, hwriting, rfl, rfl⟩ := openFile_eq_ok h
  obtain rfl : place = w.placeOf path := (FileSystem.openForWriting_eq_ok hwriting).1
  refine ⟨⟨fun q hq => hapart.keeps q fun h => hplace (Option.some_inj.1 h ▸ hq), fun {id f} hf => ⟨f, ?_, rfl⟩,
    .refl _⟩, ⟨w.placeOf path, append, 0, #[]⟩, by simp, hplace⟩
  rw [List.getElem?_append_left (List.getElem?_eq_some_iff.1 hf).1, hf]

end World

end CommandShell
