import CommandShell.Proofs.Files.Names
import Mathlib.Tactic.ByContra
import Mathlib.Data.List.Induction

/-!
Folders and files in other surroundings.  Main statements: folders that can be made where few others
are can be made where more of them are, and a file can be opened there as well.
-/

namespace CommandShell

namespace FileSystem

/-- All folders of the second one are there. -/
def Covers (gs fs : FileSystem) : Prop :=
  ∀ q, fs.node? q = some .folder → gs.node? q = some .folder

/-- Nothing stands in the way of the folders of the second one. -/
def Admits (gs fs : FileSystem) : Prop :=
  ∀ q, fs.node? q = some .folder → gs.node? q = none ∨ gs.node? q = some .folder

variable {fs gs hs m n : FileSystem} {folder name inner path place : String} {l : Location}

theorem Covers.refl (fs : FileSystem) : fs.Covers fs := fun _ h => h

theorem Covers.trans (h : hs.Covers gs) (h' : gs.Covers fs) : hs.Covers fs :=
  fun q hq => h q (h' q hq)

theorem covers_of_keepsAt (h : ∀ q, fs.KeepsAt gs q) : gs.Covers fs :=
  fun q hq => (h q).node hq

theorem admits_of_keepsAt (h : ∀ q, fs.KeepsAt gs q) : fs.Admits gs := by
  intro q hq
  rcases h q with hsame | ⟨hnone, -⟩
  · exact .inr (hsame ▸ hq)
  · exact .inl hnone

theorem enter_covers (hcovers : gs.Covers fs) (h : fs.enter folder name = .ok inner) :
    gs.enter folder name = .ok inner := by
  rw [enter] at h ⊢
  split_ifs at h ⊢ with hdot hup hlimit
  · exact h
  · exact h
  · rcases hnode : fs.node? (folder ++ "/" ++ name) with _ | _ | _ | _
    · simp [hnode] at h
    · simp [hnode] at h
    · rw [hnode] at h
      rw [hcovers _ hnode]
      exact h
    · simp [hnode] at h

/-- Where there is no file in the way, the only thing that can be amiss with a folder is that it is
not there. -/
theorem enter_admits (hadmits : gs.Admits fs) (h : fs.enter folder name = .ok inner) :
    gs.enter folder name = .ok inner ∨ gs.enter folder name = .error .notFound := by
  rw [enter] at h ⊢
  split_ifs at h ⊢ with hdot hup hlimit
  · exact .inl h
  · exact .inl h
  · rcases hnode : fs.node? (folder ++ "/" ++ name) with _ | _ | _ | _
    · simp [hnode] at h
    · simp [hnode] at h
    · rw [hnode] at h
      rcases hadmits _ hnode with hgs | hgs
      · rw [hgs]
        exact .inr rfl
      · rw [hgs]
        exact .inl h
    · simp [hnode] at h

theorem follow_covers (hcovers : gs.Covers fs) {names : List String} (h : fs.follow folder names = .ok l) :
    gs.follow folder names = .ok l := by
  induction names generalizing folder with
  | nil => exact h
  | cons name names ih =>
      cases names with
      | nil => exact h
      | cons next names =>
          rw [follow_cons_cons] at h ⊢
          rcases henter : fs.enter folder name with e | inner
          · rw [henter] at h
            cases h
          · rw [henter] at h
            rw [enter_covers hcovers henter]
            exact ih h

theorem follow_admits (hadmits : gs.Admits fs) {names : List String} (h : fs.follow folder names = .ok l) :
    gs.follow folder names = .ok l ∨ gs.follow folder names = .error .notFound := by
  induction names generalizing folder with
  | nil => exact .inl h
  | cons name names ih =>
      cases names with
      | nil => exact .inl h
      | cons next names =>
          rw [follow_cons_cons] at h ⊢
          rcases henter : fs.enter folder name with e | inner
          · rw [henter] at h
            cases h
          · rw [henter] at h
            rcases enter_admits hadmits henter with hgs | hgs
            · rw [hgs]
              exact ih h
            · rw [hgs]
              exact .inr rfl

theorem locate_covers (hcurrent : gs.current = fs.current) (hcovers : gs.Covers fs)
    (h : fs.locate path = .ok l) : gs.locate path = .ok l := by
  rw [locate] at h ⊢
  rw [hcurrent]
  split_ifs at h ⊢ with hzero hempty hlimit hslash
  · exact follow_covers hcovers h
  · exact follow_covers hcovers h

theorem locate_admits (hcurrent : gs.current = fs.current) (hadmits : gs.Admits fs)
    (h : fs.locate path = .ok l) : gs.locate path = .ok l ∨ gs.locate path = .error .notFound := by
  rw [locate] at h ⊢
  rw [hcurrent]
  split_ifs at h ⊢ with hzero hempty hlimit hslash
  · exact follow_admits hadmits h
  · exact follow_admits hadmits h

/-! ### Making folders -/

theorem makeFolder_eq_ok (h : fs.makeFolder path = .ok gs) :
    ∃ l, fs.locate path = .ok l ∧ fs.node? l.path = none ∧
      ∀ q, gs.node? q = if q = l.path then some .folder else fs.node? q := by
  rw [makeFolder] at h
  rcases hl : fs.locate path with e | l
  · simp [hl] at h
  · rcases hnode : fs.node? l.path with _ | node
    · simp only [hl, hnode] at h
      cases h
      refine ⟨l, rfl, hnode, fun q => node?_insert _ _ _ ?_⟩
      intro hempty
      rw [hempty] at hnode
      cases hnode
    · simp [hl, hnode] at h

/-- Where its place is free a folder can be made, and it is the only new one. -/
theorem exists_makeFolder (hl : gs.locate path = .ok l) (hnode : gs.node? l.path = none)
    (hfolder : m.node? l.path = some .folder) :
    ∃ n, gs.makeFolder path = .ok n ∧
      ∀ q, n.node? q = some .folder → gs.node? q = some .folder ∨ m.node? q = some .folder := by
  rcases hmake : gs.makeFolder path with e | n
  · simp [makeFolder, hl, hnode] at hmake
  · obtain ⟨k, hk, -, hnew⟩ := makeFolder_eq_ok hmake
    cases hl.symm.trans hk
    refine ⟨n, rfl, fun q hq => ?_⟩
    rw [hnew] at hq
    split at hq
    next hpath => exact .inr (hpath ▸ hfolder)
    next => exact .inl hq

theorem isFolder_of_makeFolder (h : fs.makeFolder path = .ok gs) : gs.isFolder path = true := by
  obtain ⟨hcurrent, hkeeps⟩ := makeFolder_keeps h
  obtain ⟨l, hl, -, hgs⟩ := makeFolder_eq_ok h
  exact isFolder_iff.2 ⟨l, locate_covers hcurrent (covers_of_keepsAt hkeeps) hl, by rw [hgs, if_pos rfl]⟩

theorem makeMissing_cons_eq_ok {parents : List String} (h : fs.makeMissing (path :: parents) = .ok gs) :
    fs.makeFolder path = .ok gs ∨ (gs = fs ∧ fs.isFolder path = true) ∨
      ∃ hs, fs.locate path = .error .notFound ∧ fs.makeMissing parents = .ok hs ∧
        (gs = hs ∧ hs.isFolder path = true ∨ hs.makeFolder path = .ok gs) := by
  rw [makeMissing] at h
  split at h
  next hmake =>
    cases h
    exact .inl hmake
  next hmake =>
    have hnot : fs.locate path = .error .notFound := by
      rw [makeFolder] at hmake
      rcases hl : fs.locate path with e | l
      · simpa [hl] using hmake
      · rcases hnode : fs.node? l.path with _ | _ <;> simp [hl, hnode] at hmake
    rcases hparents : fs.makeMissing parents with e | hs
    · simp [hparents] at h
    · simp only [hparents] at h
      split at h
      next hfolder =>
        cases h
        exact .inr (.inr ⟨gs, hnot, rfl, .inl ⟨rfl, hfolder⟩⟩)
      next => exact .inr (.inr ⟨hs, hnot, rfl, .inr h⟩)
  next =>
    split at h
    next hfolder =>
      cases h
      exact .inr (.inl ⟨rfl, hfolder⟩)
    next => cases h

theorem isFolder_of_makeMissing {parents : List String} (h : fs.makeMissing (path :: parents) = .ok gs) :
    gs.isFolder path = true := by
  rcases makeMissing_cons_eq_ok h with hmake | ⟨rfl, hfolder⟩ | ⟨hs, -, -, ⟨rfl, hfolder⟩ | hmake⟩
  · exact isFolder_of_makeFolder hmake
  · exact hfolder
  · exact hfolder
  · exact isFolder_of_makeFolder hmake

theorem makeMissing_of_isFolder {parents : List String} (h : fs.isFolder path = true) :
    fs.makeMissing (path :: parents) = .ok fs := by
  obtain ⟨l, hl, hnode⟩ := isFolder_iff.1 h
  have hmake : fs.makeFolder path = .error .alreadyExists := by
    rw [makeFolder, hl]
    dsimp only
    rw [hnode]
  rw [makeMissing, hmake]
  dsimp only
  rw [if_pos h]

theorem Admits.keep (h : gs.Admits m) (hkeeps : ∀ q, gs.KeepsAt n q) : n.Admits m := by
  intro q hq
  rcases hkeeps q with hsame | ⟨-, hthere⟩
  · rw [hsame]
    exact h q hq
  · exact .inr hthere

/-- Making a folder with some of those above it. -/
theorem exists_makeMissing {parents : List String} (hcurrent : gs.current = m.current)
    (hadmits : gs.Admits m) (hl : m.locate path = .ok l) (hfolder : m.node? l.path = some .folder)
    (hparents : gs.locate path = .error .notFound →
      ∃ n, gs.makeMissing parents = .ok n ∧ n.locate path ≠ .error .notFound ∧
        ∀ q, n.node? q = some .folder → gs.node? q = some .folder ∨ m.node? q = some .folder) :
    ∃ n, gs.makeMissing (path :: parents) = .ok n ∧
      ∀ q, n.node? q = some .folder → gs.node? q = some .folder ∨ m.node? q = some .folder := by
  rcases locate_admits hcurrent hadmits hl with hgs | hgs
  · rcases hadmits _ hfolder with hnone | hthere
    · obtain ⟨n, hn, hnew⟩ := exists_makeFolder hgs hnone hfolder
      refine ⟨n, ?_, hnew⟩
      rw [makeMissing, hn]
    · exact ⟨gs, makeMissing_of_isFolder (isFolder_iff.2 ⟨l, hgs, hthere⟩), fun q => .inl⟩
  · have hmissing : gs.makeFolder path = .error .notFound := by
      rw [makeFolder, hgs]
    obtain ⟨n, hn, hway, hnew⟩ := hparents hgs
    obtain ⟨hncurrent, hkeeps⟩ := makeMissing_keeps hn
    have hnadmits := hadmits.keep hkeeps
    have hln := (locate_admits (hncurrent.trans hcurrent) hnadmits hl).resolve_right hway
    rcases hnadmits _ hfolder with hnone | hdone
    · obtain ⟨k, hk, hknew⟩ := exists_makeFolder hln hnone hfolder
      have hopen : n.isFolder path = false := by
        simp [isFolder, hln, hnone]
      refine ⟨k, ?_, fun q hq => (hknew q hq).elim (hnew q) .inr⟩
      simp only [makeMissing, hmissing, hn, hopen, Bool.false_eq_true, if_false, hk]
    · refine ⟨n, ?_, hnew⟩
      simp only [makeMissing, hmissing, hn, isFolder_iff.2 ⟨l, hln, hdone⟩, if_true]

/-- Folders that can be made in `fs` can be made in `gs` too if that has the folders of `fs` and no
file in the way, and no other folders are made there. -/
theorem makeMissing_admits {names : List String} {root : String} (hroot : root = "/" ∨ root = "")
    (hnames : AreNames names) (hcurrent : gs.current = fs.current) (hcovers : gs.Covers fs)
    (hadmits : gs.Admits m) (h : fs.makeMissing (rising root names) = .ok m) :
    ∃ n, gs.makeMissing (rising root names) = .ok n ∧
      ∀ q, n.node? q = some .folder → gs.node? q = some .folder ∨ m.node? q = some .folder := by
  induction names using List.reverseRecOn generalizing m with
  | nil => exact ⟨gs, rfl, fun q => .inl⟩
  | append_singleton names name ih =>
      have hm := (makeMissing_keeps h).1
      rw [rising_concat] at h ⊢
      have hleads : names ≠ [] → Leads (pathOf root names) (pathOf root (names ++ [name])) :=
        leads_pathOf hroot hnames
      generalize pathOf root (names ++ [name]) = path at h hleads ⊢
      obtain ⟨l, hl, hfolder⟩ := isFolder_iff.1 (isFolder_of_makeMissing h)
      refine exists_makeMissing (hcurrent.trans hm.symm) hadmits hl hfolder fun hgs => ?_
      -- a folder above it is missing, which was missing in `fs` too
      have hnot : ∀ k, fs.locate path ≠ .ok k := by
        intro k hk
        cases hgs.symm.trans (locate_covers hcurrent hcovers hk)
      have hnever : ∀ hs, ¬(hs = fs ∧ (hs.isFolder path = true ∨ hs.makeFolder path = .ok m)) := by
        rintro hs ⟨rfl, hfs | hmake⟩
        · obtain ⟨k, hk, -⟩ := isFolder_iff.1 hfs
          exact hnot k hk
        · obtain ⟨k, hk, -⟩ := makeFolder_eq_ok hmake
          exact hnot k hk
      rcases makeMissing_cons_eq_ok h with hmake | ⟨-, hfs⟩ | ⟨hs, -, hparents, hrest⟩
      · exact absurd ⟨rfl, .inr hmake⟩ (hnever fs)
      · exact absurd ⟨rfl, .inl hfs⟩ (hnever fs)
      · have hbelow : m.Covers hs := by
          rcases hrest with ⟨rfl, -⟩ | hmake
          · exact .refl m
          · exact covers_of_keepsAt (makeFolder_keeps hmake).2
        have hinit : AreNames names := fun x hx => hnames x (by simp [hx])
        obtain ⟨n, hn, hnew⟩ := ih hinit (fun q hq => hadmits q (hbelow q hq)) hparents
        refine ⟨n, hn, ?_, fun q hq => (hnew q hq).imp_right (hbelow q)⟩
        rcases List.eq_nil_or_concat names with rfl | ⟨up, last, rfl⟩
        · -- with no folders above it nothing can be amiss
          cases hparents
          exact absurd ⟨rfl, hrest.imp_left And.right⟩ (hnever fs)
        · rw [List.concat_eq_append] at hn hleads
          rw [rising_concat] at hn
          exact hleads (by simp) n m l (isFolder_of_makeMissing hn) hl

/-- The folders made for a file are those above it. -/
theorem makeFolders_parent (fs : FileSystem) (path : String) :
    (match parent? path with
      | none => .ok fs
      | some folder => if folder.isEmpty then .ok fs else fs.makeFolders folder) =
      fs.makeMissing (foldersAbove path) := by
  rw [foldersAbove]
  rcases List.eq_nil_or_concat (stepsOf path) with hsteps | ⟨up, last, hsteps⟩
  · have hnone : parent? path = none := by
      rw [parent?, ancestors_eq, hsteps, rising_nil]
    rw [hnone, hsteps]
    rfl
  · rw [List.concat_eq_append] at hsteps
    have hup := areSteps_stepsOf path
    rw [hsteps] at hup
    rw [parent?_eq hsteps, hsteps, List.dropLast_concat]
    dsimp only
    split
    next hempty =>
      have hnil : up = [] := by
        rcases up with _ | ⟨first, rest⟩
        · rfl
        · have hnames := namesOf_pathOf (rootOf_eq path) hup.init.areNames (by simp)
          rw [String.isEmpty_iff.1 hempty] at hnames
          cases hnames
      rw [hnil]
      rfl
    next => rw [makeFolders, ancestors_pathOf (rootOf_eq path) hup.init]

/-! ### Opening files -/

/-- A file can be opened for writing. -/
def CanOpen (fs : FileSystem) (path : String) : Prop :=
  endsInSlash path = false ∧ ∃ l, fs.locate path = .ok l ∧ fs.node? l.path ≠ some .folder

theorem canOpen_iff (keep : Bool) : fs.CanOpen path ↔ ∃ r, fs.openForWriting path keep = .ok r := by
  rw [CanOpen, openForWriting]
  rcases hl : fs.locate path with e | l
  · simp
  · rcases hnode : fs.node? l.path with _ | _ | _ | _ <;> cases hslash : endsInSlash path <;> simp [hnode]

theorem CanOpen.covers (hcurrent : gs.current = fs.current) (hcovers : gs.Covers fs)
    (hplace : gs.node? (placeOf gs.current path) ≠ some .folder) (h : fs.CanOpen path) :
    gs.CanOpen path := by
  obtain ⟨hslash, l, hl, -⟩ := h
  have hgs := locate_covers hcurrent hcovers hl
  refine ⟨hslash, l, hgs, ?_⟩
  rwa [locate_eq_ok hgs]

/-- A file that can be opened after the folders above it have been made in `fs` can be opened after
they have been made in `gs`. -/
theorem exists_makeFoldersAbove (hcurrent : gs.current = fs.current) (hcovers : gs.Covers fs)
    (hadmits : gs.Admits m) (hplace : gs.node? (placeOf gs.current path) ≠ some .folder)
    (h : fs.makeMissing (foldersAbove path) = .ok m) (hopen : m.CanOpen path) :
    ∃ n, gs.makeMissing (foldersAbove path) = .ok n ∧ n.CanOpen path ∧
      ∀ q, n.node? q = some .folder → gs.node? q = some .folder ∨ m.node? q = some .folder := by
  have hm := (makeMissing_keeps h).1
  have hnames : AreNames (stepsOf path).dropLast :=
    fun name hname => (areSteps_stepsOf path).areNames name (List.dropLast_subset _ hname)
  obtain ⟨n, hn, hnew⟩ := makeMissing_admits (rootOf_eq path) hnames hcurrent hcovers hadmits h
  obtain ⟨hncurrent, hkeeps⟩ := makeMissing_keeps hn
  obtain ⟨hslash, l, hl, hnode⟩ := hopen
  have hinit : ∃ inner, (stepsOf path).dropLast.foldlM n.enter (n.startOf (rootOf path)) = .ok inner := by
    rcases List.eq_nil_or_concat (stepsOf path).dropLast with hnil | ⟨up, last, hup⟩
    · rw [hnil]
      exact ⟨_, rfl⟩
    · have hfolder := hn
      rw [hup, List.concat_eq_append, rising_concat] at hfolder
      rw [hup, List.concat_eq_append] at hnames ⊢
      exact enterAll_of_isFolder (rootOf_eq path) hnames (by simp) (isFolder_of_makeMissing hfolder)
  have hnm := (hncurrent.trans hcurrent).trans hm.symm
  have hln := (locate_admits hnm (hadmits.keep hkeeps) hl).resolve_right
    (locate_ne_notFound hl hnode hnm.symm hinit)
  refine ⟨n, hn, ⟨hslash, l, hln, fun hfolder => ?_⟩, hnew⟩
  rcases hnew _ hfolder with hgs | hthere
  · rw [locate_eq_ok hln, hncurrent] at hgs
    exact hplace hgs
  · exact hnode hthere

end FileSystem

end CommandShell
