import CommandShell.Proofs.World

/-!
The file of a stage, from before the folders above it are made until it is closed.  Main statements:
what the stage does next with its file succeeds, and no other stage undoes what has been done for it.
-/

namespace CommandShell

open Text

/-- The path of a file that a stage writes, and whether the file is appended to. -/
abbrev FileUse := String × Bool

/-- How far a stage has got with its file; a stage without one is done with it from the start. -/
inductive FileUse.Phase where
  | untouched
  | prepared
  | opened (id : FileId)
  | closed

def FileUse.Phase.files : Phase → List FileId
  | .opened id => [id]
  | _ => []

namespace World

/-- The place of a stage's file. -/
def usePlace? (w₀ : World) (use : Option FileUse) : Option String := use.map fun u => w₀.placeOf u.1

/-- There is a folder at the place once those above the file have been made. -/
def MadeFor (w₀ : World) (use : Option FileUse) (place : String) : Prop :=
  ∃ path append m, use = some (path, append) ∧ w₀.makeFoldersFor path = .ok m ∧
    m.files.node? place = some .folder

/-- The place is that of the file or of a folder that is there for it. -/
def Needs (w₀ : World) (use : Option FileUse) (place : String) : Prop :=
  w₀.usePlace? use = some place ∨ w₀.MadeFor use place

/-- What a stage does to the world when it works on its file. -/
structure Tends (w₀ : World) (use : Option FileUse) (w v : World) : Prop where
  paths : w.SamePaths v
  tokens : v.tokens = w.tokens
  keeps : ∀ place, w₀.usePlace? use ≠ some place → w.KeepsAt v place
  covers : v.files.Covers w.files
  folders : ∀ place, v.files.node? place = some .folder →
    w.files.node? place = some .folder ∨ w₀.MadeFor use place

/-- The file of a stage and the folders above it are left alone, but folders may be made there. -/
structure Spares (w₀ : World) (use : Option FileUse) (w v : World) : Prop where
  paths : w.SamePaths v
  keeps : ∀ place, w₀.Needs use place → w.KeepsAt v place
  covers : v.files.Covers w.files
  folders : ∀ place, w₀.usePlace? use = some place → v.files.node? place = some .folder →
    w.files.node? place = some .folder

/-- How far the file of a stage has got, of which `stored` is to be the text so far; the stage started
in `w₀`. -/
inductive Filing (w₀ w : World) : Option FileUse → FileUse.Phase → List Char → Prop
  | nothing {phase : FileUse.Phase} (hfiles : phase.files = []) : Filing w₀ w none phase []
  | untouched {path : String} {append : Bool} {m : World} (hmake : w₀.makeFoldersFor path = .ok m)
      (hopen : m.CanOpen path) (hcovers : w.files.Covers w₀.files) (hadmits : w.files.Admits m.files)
      (hnode : w.files.node? (w₀.placeOf path) = w₀.files.node? (w₀.placeOf path)) :
      Filing w₀ w (some (path, append)) .untouched []
  | prepared {path : String} {append : Bool} (hopen : w.CanOpen path)
      (hnode : w.files.node? (w₀.placeOf path) = w₀.files.node? (w₀.placeOf path)) :
      Filing w₀ w (some (path, append)) .prepared []
  | opened {path : String} {append : Bool} {id : FileId} {stored : List Char}
      (h : w.Filed id (w₀.placeOf path)
        ((Node.opened (w₀.files.node? (w₀.placeOf path)) append).extend (bytesOf stored))) :
      Filing w₀ w (some (path, append)) (.opened id) stored
  | closed {path : String} {append : Bool} {stored : List Char}
      (h : w.files.node? (w₀.placeOf path) =
        some ((Node.opened (w₀.files.node? (w₀.placeOf path)) append).extend (bytesOf stored))) :
      Filing w₀ w (some (path, append)) .closed stored

variable {w₀ w v : World} {use : Option FileUse} {phase : FileUse.Phase} {stored : List Char}
  {path place : String} {append : Bool} {id : FileId}

theorem Apart.tends (h : Apart (w₀.usePlace? use) w v) : Tends w₀ use w v :=
  ⟨h.paths, h.tokens, h.keeps, fun place => (h.folders place).2,
    fun place hv => .inl ((h.folders place).1 hv)⟩

theorem Apart.spares {place? : Option String} (h : Apart place? w v)
    (hne : ∀ place, w₀.Needs use place → place? ≠ some place) : Spares w₀ use w v :=
  ⟨h.paths, fun place hneeds => h.keeps place (hne place hneeds), fun place => (h.folders place).2,
    fun place _ => (h.folders place).1⟩

theorem Spares.node (h : Spares w₀ use w v) (hplace : w₀.usePlace? use = some place)
    (hfolder : w.files.node? place ≠ some .folder) : v.files.node? place = w.files.node? place := by
  rcases (h.keeps place (.inl hplace)).files with hsame | ⟨-, hthere⟩
  · exact hsame
  · exact absurd (h.folders place hplace hthere) hfolder

/-- Neither before nor after the folders above it are made there is a folder where the file is to be. -/
theorem ne_folder_of_makes {m : World} (hmake : w₀.makeFoldersFor path = .ok m) (hopen : m.CanOpen path) :
    w₀.files.node? (w₀.placeOf path) ≠ some .folder ∧ m.files.node? (w₀.placeOf path) ≠ some .folder := by
  obtain ⟨files, hfiles, rfl⟩ := makeFoldersFor_eq_ok hmake
  obtain ⟨hcurrent, hkeeps⟩ := FileSystem.makeMissing_keeps hfiles
  have hpaths : w₀.SamePaths { w₀ with files } := ⟨rfl, hcurrent⟩
  have hfolder := hopen.ne_folder
  rw [hpaths.placeOf] at hfolder
  exact ⟨fun h => hfolder ((hkeeps _).node h), hfolder⟩

/-- No other stage undoes what has been done for the file. -/
theorem Filing.keep (h : Filing w₀ w use phase stored) (hpaths : w₀.SamePaths w)
    (hspares : Spares w₀ use w v) : Filing w₀ v use phase stored := by
  cases h with
  | nothing hfiles => exact .nothing hfiles
  | @untouched path append m hmake hopen hcovers hadmits hnode =>
      obtain ⟨hfolder, -⟩ := ne_folder_of_makes hmake hopen
      rw [← hnode] at hfolder
      refine .untouched hmake hopen (hspares.covers.trans hcovers) (fun q hq => ?_)
        ((hspares.node rfl hfolder).trans hnode)
      rcases (hspares.keeps q (.inr ⟨path, append, m, rfl, hmake, hq⟩)).files with hsame | ⟨-, hthere⟩
      · rw [hsame]
        exact hadmits q hq
      · exact .inr hthere
  | @prepared path append hopen hnode =>
      have hfolder := hopen.ne_folder
      rw [hpaths.placeOf] at hfolder
      have hsame := hspares.node rfl hfolder
      refine .prepared (CanOpen.covers hspares.paths hspares.covers ?_ hopen) (hsame.trans hnode)
      rwa [hspares.paths.placeOf, hpaths.placeOf, hsame]
  | opened hfiled => exact .opened (hfiled.keep (hspares.keeps _ (.inl rfl)))
  | closed hnode => exact .closed ((hspares.keeps _ (.inl rfl)).files.node hnode)

/-! ### What the stage does next -/

/-- The folders above the file can be made, whatever other stages have done by then. -/
theorem Filing.makeFoldersFor (h : Filing w₀ w (some (path, append)) .untouched stored)
    (hpaths : w₀.SamePaths w) :
    ∃ v, w.makeFoldersFor path = .ok v ∧ Filing w₀ v (some (path, append)) .prepared stored ∧
      Tends w₀ (some (path, append)) w v ∧ v.terminal = w.terminal := by
  cases h with
  | @untouched _ _ m hmake hopen hcovers hadmits hnode =>
      obtain ⟨hfolder, hmade⟩ := ne_folder_of_makes hmake hopen
      obtain ⟨files, hfiles, rfl⟩ := makeFoldersFor_eq_ok hmake
      rw [← hnode] at hfolder
      have hplace :
          w.files.node? (FileSystem.placeOf w.files.current (expandHome w₀.home path)) ≠ some .folder := by
        rw [hpaths.current]
        exact hfolder
      obtain ⟨gs, hgs, hthere, hnew⟩ :=
        FileSystem.exists_makeFoldersAbove hpaths.current hcovers hadmits hplace hfiles hopen
      obtain ⟨hcurrent, hkeeps⟩ := FileSystem.makeMissing_keeps hgs
      have hv : w.makeFoldersFor path = .ok { w with files := gs } := by
        rw [makeFoldersFor_eq, hpaths.home, hgs]
        rfl
      have htends : Tends w₀ (some (path, append)) w { w with files := gs } :=
        ⟨⟨rfl, hcurrent⟩, rfl, fun q _ => ⟨hkeeps q, fun hf _ => hf⟩, FileSystem.covers_of_keepsAt hkeeps,
          fun q hq => (hnew q hq).imp_right fun hq => ⟨path, append, _, rfl, hmake, hq⟩⟩
      refine ⟨_, hv, .prepared ?_ ?_, htends, rfl⟩
      · rw [CanOpen, hpaths.home]
        exact hthere
      · rcases hkeeps (w₀.placeOf path) with hsame | ⟨-, hgone⟩
        · exact hsame.trans hnode
        · exact ((hnew _ hgone).elim hfolder hmade).elim

/-- The file can be opened once the folders have been made. -/
theorem Filing.openFile (h : Filing w₀ w (some (path, append)) .prepared stored)
    (hpaths : w₀.SamePaths w) :
    ∃ id v, w.openFile path append = .ok (id, v) ∧ Filing w₀ v (some (path, append)) (.opened id) stored ∧
      Tends w₀ (some (path, append)) w v ∧ v.terminal = w.terminal := by
  cases h with
  | prepared hopen hnode =>
      obtain ⟨id, v, hv⟩ := canOpen_iff.1 hopen
      obtain ⟨hfiled, hapart, hterminal⟩ := filed_openFile hv
      rw [hpaths.placeOf] at hfiled hapart
      refine ⟨id, v, hv, .opened ?_, Apart.tends hapart, hterminal⟩
      rw [bytesOf_nil, Node.extend_nil, ← hnode]
      exact hfiled

theorem Filing.writeFile (h : Filing w₀ w use (.opened id) stored) (text : String) :
    Filing w₀ (w.writeFile id text) use (.opened id) (stored ++ text.toList) ∧
      Tends w₀ use w (w.writeFile id text) ∧ (w.writeFile id text).terminal = w.terminal := by
  cases h with
  | nothing hfiles => cases hfiles
  | opened hfiled =>
      obtain ⟨hafter, hapart, hterminal⟩ := filed_writeFile hfiled text
      refine ⟨.opened ?_, Apart.tends hapart, hterminal⟩
      rw [bytesOf_append, ← Node.extend_extend]
      exact hafter

/-- Where the file has been flushed it could be closed. -/
theorem Filing.flushFile (h : Filing w₀ w use (.opened id) stored) :
    Filing w₀ (w.flushFile id) use (.opened id) stored ∧ Filing w₀ (w.flushFile id) use .closed stored ∧
      Tends w₀ use w (w.flushFile id) ∧ (w.flushFile id).terminal = w.terminal := by
  cases h with
  | nothing hfiles => cases hfiles
  | opened hfiled =>
      obtain ⟨hafter, hnode, hapart, hterminal⟩ := filed_flushFile hfiled
      exact ⟨.opened hafter, .closed hnode, Apart.tends hapart, hterminal⟩

end World

end CommandShell
