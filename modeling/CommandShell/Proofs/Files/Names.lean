import CommandShell.Proofs.Files.Writing
import Mathlib.Tactic.SplitIfs

/-!
The names that a path is made of.  Main statement: where the folders above a file are there, the way to
the file misses no folder, however its path is spelled.
-/

namespace CommandShell

open Text

namespace FileSystem

variable {fs gs hs m n : FileSystem} {folder name inner path place root up : String} {l : Location}
  {names : List String}

/-! ### The names of a path -/

/-- What stands before the first name of a path. -/
def rootOf (path : String) : String := if path.toList.head? = some '/' then "/" else ""

/-- The folder that a path starts from. -/
def startOf (fs : FileSystem) (root : String) : String := if root = "/" then "" else fs.current

/-- A path that leads somewhere in one file system is followed in every other. -/
theorem locate_eq_follow (hl : gs.locate path = .ok l) (fs : FileSystem) :
    fs.locate path = fs.follow (fs.startOf (rootOf path)) (namesOf path) := by
  rw [locate] at hl ⊢
  split_ifs at hl with hzero hempty hlimit hslash
  · rw [if_neg hzero, if_neg hempty, if_neg hlimit, if_pos hslash, rootOf, if_pos hslash]
    rfl
  · rw [if_neg hzero, if_neg hempty, if_neg hlimit, if_neg hslash, rootOf, if_neg hslash]
    rfl

theorem follow_cons_cons (fs : FileSystem) (folder name next : String) (names : List String) :
    fs.follow folder (name :: next :: names) =
      (fs.enter folder name).bind fun inner => fs.follow inner (next :: names) := by
  rw [follow]
  · cases fs.enter folder name <;> rfl
  · exact nofun

theorem follow_concat (fs : FileSystem) (folder name : String) (names : List String) :
    fs.follow folder (names ++ [name]) =
      (names.foldlM fs.enter folder).bind fun inner => fs.follow inner [name] := by
  induction names generalizing folder with
  | nil => rfl
  | cons first names ih =>
      have hne : names ++ [name] ≠ [] := by simp
      obtain ⟨next, rest, hrest⟩ := List.exists_cons_of_ne_nil hne
      rw [List.cons_append, hrest, follow_cons_cons, ← hrest, List.foldlM_cons]
      rcases fs.enter folder first with e | inner
      · rfl
      · exact ih inner

theorem follow_single_ne_notFound (fs : FileSystem) (folder name : String) :
    fs.follow folder [name] ≠ .error .notFound := by
  rw [follow]
  split_ifs <;> nofun

theorem enter_dot (fs : FileSystem) (folder : String) : fs.enter folder "." = .ok folder := by
  rw [enter, if_pos (by decide)]

/-- The last name of a path to a folder can be followed by others. -/
theorem enter_of_follow (h : fs.follow folder [name] = .ok l) (hfolder : fs.node? l.path = some .folder) :
    fs.enter folder name = .ok l.path := by
  rw [follow] at h
  rw [enter]
  split_ifs at h ⊢ with hdot hup hlimit
  · cases h
    rfl
  · cases h
    rfl
  · cases h
    rw [Location.path] at hfolder
    rw [hfolder]
    rfl

theorem enterAll_of_follow (h : fs.follow folder names = .ok l) (hfolder : fs.node? l.path = some .folder) :
    names.foldlM fs.enter folder = .ok l.path := by
  rcases List.eq_nil_or_concat names with rfl | ⟨before, name, rfl⟩
  · cases h
    rfl
  · rw [List.concat_eq_append, follow_concat] at h
    rw [List.concat_eq_append, List.foldlM_append]
    rcases hbefore : before.foldlM fs.enter folder with e | inner
    · rw [hbefore] at h
      cases h
    · rw [hbefore] at h
      show [name].foldlM fs.enter inner = _
      rw [List.foldlM_cons, enter_of_follow h hfolder]
      rfl

theorem enterAll_filter (fs : FileSystem) (folder : String) (names : List String) :
    (names.filter (· != ".")).foldlM fs.enter folder = names.foldlM fs.enter folder := by
  induction names generalizing folder with
  | nil => rfl
  | cons name names ih =>
      by_cases hdot : name = "."
      · subst hdot
        rw [List.filter_cons_of_neg (by simp), ih, List.foldlM_cons, enter_dot]
        rfl
      · rw [List.filter_cons_of_pos (by simpa using hdot), List.foldlM_cons, List.foldlM_cons]
        congr 1
        funext inner
        exact ih inner

/-! ### Paths made of names -/

/-- The names, which are not empty and have no slash in them, make up a path and can be told apart. -/
def AreNames (names : List String) : Prop := ∀ name ∈ names, name ≠ "" ∧ '/' ∉ name.toList

/-- The path made of some names. -/
def pathOf (root : String) (names : List String) : String :=
  root ++ String.ofList (joinPieces ['/'] (names.map (·.toList)))

theorem areNames_namesOf (path : String) : AreNames (namesOf path) := by
  intro name hname
  obtain ⟨q, hq, rfl⟩ := List.mem_map.1 hname
  obtain ⟨hpiece, hne⟩ := List.mem_filter.1 hq
  refine ⟨?_, ?_⟩
  · simpa using hne
  · rw [String.toList_ofList]
    intro hslash
    simpa using mem_pieces hpiece '/' hslash

theorem pieces_join (h : AreNames names) (hne : names ≠ []) :
    pieces (· == '/') (joinPieces ['/'] (names.map (·.toList))) = names.map (·.toList) := by
  refine pieces_joinPieces (by simpa using hne) ?_
  intro p hp c hc
  obtain ⟨name, hname, rfl⟩ := List.mem_map.1 hp
  have hslash := (h name hname).2
  rw [beq_eq_false_iff_ne]
  rintro rfl
  exact hslash hc

theorem namesOf_pathOf (hroot : root = "/" ∨ root = "") (h : AreNames names) (hne : names ≠ []) :
    namesOf (pathOf root names) = names := by
  have hkept : ((names.map (·.toList)).filter (!·.isEmpty)).map String.ofList = names := by
    rw [List.filter_eq_self.2]
    · simp
    · intro p hp
      obtain ⟨name, hname, rfl⟩ := List.mem_map.1 hp
      simpa using (h name hname).1
  rcases hroot with rfl | rfl
  · have htext : (pathOf "/" names).toList = '/' :: joinPieces ['/'] (names.map (·.toList)) := by
      simp [pathOf]
    rw [namesOf, htext, pieces, if_pos (by simp), pieces_join h hne]
    exact hkept
  · have htext : (pathOf "" names).toList = joinPieces ['/'] (names.map (·.toList)) := by
      simp [pathOf]
    rw [namesOf, htext, pieces_join h hne]
    exact hkept

theorem rootOf_pathOf (hroot : root = "/" ∨ root = "") (h : AreNames names) :
    rootOf (pathOf root names) = root := by
  rcases hroot with rfl | rfl
  · simp [rootOf, pathOf]
  · rcases names with _ | ⟨first, rest⟩
    · rfl
    · obtain ⟨hfirst, hslash⟩ := h first (by simp)
      rcases hcs : first.toList with _ | ⟨c, cs⟩
      · exact absurd (by simpa using hcs) hfirst
      · have hc : c ≠ '/' := by
          rintro rfl
          simp [hcs] at hslash
        cases rest <;> simp [rootOf, pathOf, joinPieces, hcs, hc]

/-! ### The folders above a file -/

/-- The names of a path without those further on that lead nowhere new. -/
def stepsOf (path : String) : List String :=
  match namesOf path with
  | [] => []
  | first :: rest => first :: rest.filter (· != ".")

/-- The path made of some names, and the paths to the folders above. -/
def rising (root : String) (names : List String) : List String :=
  (List.range names.length).map fun i => pathOf root (names.take (names.length - i))

/-- The names can be those of a path that has been cleared of names that lead nowhere new. -/
structure AreSteps (names : List String) : Prop where
  areNames : AreNames names
  dot : "." ∉ names.tail

theorem ancestors_eq (path : String) : ancestors path = rising (rootOf path) (stepsOf path) := rfl

theorem rootOf_eq (path : String) : rootOf path = "/" ∨ rootOf path = "" := by
  rw [rootOf]
  split_ifs
  · exact .inl rfl
  · exact .inr rfl

theorem areSteps_stepsOf (path : String) : AreSteps (stepsOf path) := by
  have hnames := areNames_namesOf path
  rw [stepsOf]
  rcases hpath : namesOf path with _ | ⟨first, rest⟩
  · exact ⟨nofun, nofun⟩
  · rw [hpath] at hnames
    refine ⟨fun name hname => ?_, by simp⟩
    rcases List.mem_cons.1 hname with rfl | hname
    · exact hnames _ (by simp)
    · exact hnames _ (List.mem_cons_of_mem _ (List.mem_filter.1 hname).1)

theorem AreSteps.init (h : AreSteps (names ++ [name])) : AreSteps names := by
  refine ⟨fun x hx => h.areNames x (by simp [hx]), fun hdot => h.dot ?_⟩
  rcases names with _ | ⟨first, rest⟩
  · cases hdot
  · simpa using .inl hdot

theorem rising_concat (root name : String) (names : List String) :
    rising root (names ++ [name]) = pathOf root (names ++ [name]) :: rising root names := by
  have hlength : (names ++ [name]).length = names.length + 1 := by simp
  rw [rising, hlength, List.range_succ_eq_map, List.map_cons, List.map_map, Nat.sub_zero, ← hlength,
    List.take_length]
  congr 1
  refine List.map_congr_left fun i _ => ?_
  show pathOf root ((names ++ [name]).take ((names ++ [name]).length - (i + 1))) = _
  rw [hlength, Nat.add_sub_add_right, List.take_append_of_le_length (Nat.sub_le _ _)]

theorem ancestors_pathOf (hroot : root = "/" ∨ root = "") (h : AreSteps names) :
    ancestors (pathOf root names) = rising root names := by
  rcases names with _ | ⟨first, rest⟩
  · rcases hroot with rfl | rfl <;> rfl
  · have hne : first :: rest ≠ [] := by simp
    have hsteps : stepsOf (pathOf root (first :: rest)) = first :: rest := by
      rw [stepsOf, namesOf_pathOf hroot h.areNames hne]
      dsimp only
      rw [List.filter_eq_self.2]
      intro name hname
      have hdot : name ≠ "." := by
        rintro rfl
        exact h.dot hname
      simpa using hdot
    rw [ancestors_eq, hsteps, rootOf_pathOf hroot h.areNames]

theorem rising_nil (root : String) : rising root [] = [] := rfl

theorem parent?_eq {up : List String} {last : String} (h : stepsOf path = up ++ [last]) :
    parent? path = some (pathOf (rootOf path) up) := by
  have hsteps := areSteps_stepsOf path
  rw [h] at hsteps
  rw [parent?, ancestors_eq, h, rising_concat]
  rcases List.eq_nil_or_concat up with rfl | ⟨before, name, rfl⟩
  · rw [rising_nil]
    have hroot := rootOf_pathOf (rootOf_eq path) hsteps.areNames
    rw [rootOf] at hroot
    dsimp only
    rw [hroot, pathOf]
    simp [joinPieces]
  · rw [List.concat_eq_append, rising_concat]

/-- The folders above a file: those to be made before it is opened. -/
def foldersAbove (path : String) : List String := rising (rootOf path) (stepsOf path).dropLast

/-! ### Ways to a file -/

/-- Where the folder `up` is there, no folder is missing on the way to `path`. -/
def Leads (up path : String) : Prop :=
  ∀ (fs gs : FileSystem) (l : Location), fs.isFolder up = true → gs.locate path = .ok l →
    fs.locate path ≠ .error .notFound

theorem isFolder_iff :
    fs.isFolder path = true ↔ ∃ l, fs.locate path = .ok l ∧ fs.node? l.path = some .folder := by
  rw [isFolder]
  rcases hl : fs.locate path with e | l <;> simp

theorem enterAll_of_isFolder (hroot : root = "/" ∨ root = "") (h : AreNames names) (hne : names ≠ [])
    (hfolder : fs.isFolder (pathOf root names) = true) :
    ∃ inner, names.foldlM fs.enter (fs.startOf root) = .ok inner := by
  obtain ⟨l, hl, hnode⟩ := isFolder_iff.1 hfolder
  refine ⟨l.path, enterAll_of_follow ?_ hnode⟩
  rw [locate_eq_follow hl fs, namesOf_pathOf hroot h hne, rootOf_pathOf hroot h] at hl
  exact hl

theorem enterAll_eq_ok (h : names.foldlM fs.enter folder = .ok inner) :
    inner = names.foldl walk folder := by
  induction names generalizing folder with
  | nil =>
      cases h
      rfl
  | cons name names ih =>
      rw [List.foldlM_cons] at h
      rcases henter : fs.enter folder name with e | next
      · rw [henter] at h
        cases h
      · rw [henter] at h
        rw [List.foldl_cons, ← enter_eq_ok henter]
        exact ih h

/-- A name that leads to something other than a folder leads there everywhere. -/
theorem enter_of_ne_folder (h : fs.enter folder name = .ok inner) (hnode : fs.node? inner ≠ some .folder) :
    gs.enter folder name = .ok inner := by
  rw [enter] at h ⊢
  split_ifs at h ⊢ with hdot hup hlimit
  · exact h
  · exact h
  · split at h
    next hfolder =>
      cases h
      exact absurd hfolder hnode
    all_goals cases h

theorem enterAll_concat (fs : FileSystem) (folder name : String) (names : List String) :
    (names ++ [name]).foldlM fs.enter folder =
      (names.foldlM fs.enter folder).bind fun inner => fs.enter inner name := by
  rw [List.foldlM_append]
  rcases names.foldlM fs.enter folder with e | inner
  · rfl
  · show [name].foldlM fs.enter inner = fs.enter inner name
    rw [List.foldlM_cons]
    rcases fs.enter inner name with e | place <;> rfl

theorem enterAll_of_ne_folder (h : names.foldlM gs.enter folder = .ok place)
    (hnode : gs.node? place ≠ some .folder)
    (hinit : ∃ inner, names.dropLast.foldlM fs.enter folder = .ok inner) :
    names.foldlM fs.enter folder = .ok place := by
  rcases List.eq_nil_or_concat names with rfl | ⟨before, name, rfl⟩
  · exact h
  · obtain ⟨inner, hinner⟩ := hinit
    rw [List.concat_eq_append] at h hinner ⊢
    rw [List.dropLast_concat] at hinner
    rw [enterAll_concat] at h ⊢
    rcases hbefore : before.foldlM gs.enter folder with e | inner'
    · rw [hbefore] at h
      cases h
    · rw [hbefore] at h
      obtain rfl := (enterAll_eq_ok hinner).trans (enterAll_eq_ok hbefore).symm
      rw [hinner]
      exact enter_of_ne_folder h hnode

theorem follow_dot_eq_ok (h : fs.follow folder (names ++ ["."]) = .ok l) :
    names.foldlM fs.enter folder = .ok l.path := by
  rw [follow_concat] at h
  rcases hnames : names.foldlM fs.enter folder with e | inner
  · rw [hnames] at h
    cases h
  · rw [hnames] at h
    cases h
    rfl

theorem follow_ne_notFound (h : ∃ inner, names.foldlM fs.enter folder = .ok inner) :
    fs.follow folder (names ++ [name]) ≠ .error .notFound := by
  obtain ⟨inner, hinner⟩ := h
  rw [follow_concat, hinner]
  exact follow_single_ne_notFound fs inner name

theorem leads_pathOf (hroot : root = "/" ∨ root = "") (h : AreNames (names ++ [name])) (hne : names ≠ []) :
    Leads (pathOf root names) (pathOf root (names ++ [name])) := by
  intro fs gs l hfolder hl
  have hnames : AreNames names := fun x hx => h x (by simp [hx])
  rw [locate_eq_follow hl fs, namesOf_pathOf hroot h (by simp), rootOf_pathOf hroot h]
  exact follow_ne_notFound (enterAll_of_isFolder hroot hnames hne hfolder)

/-- Where the folders above a file are there, no folder is missing on the way to it. -/
theorem locate_ne_notFound (hl : gs.locate path = .ok l) (hnode : gs.node? l.path ≠ some .folder)
    (hcurrent : gs.current = fs.current) (hinit : ∃ inner,
      (stepsOf path).dropLast.foldlM fs.enter (fs.startOf (rootOf path)) = .ok inner) :
    fs.locate path ≠ .error .notFound := by
  have hfollow := hl
  rw [locate_eq_follow hl gs, startOf, hcurrent, ← startOf] at hfollow
  rw [locate_eq_follow hl fs]
  rw [stepsOf] at hinit
  generalize fs.startOf (rootOf path) = start, namesOf path = names at hinit hfollow ⊢
  rcases names with _ | ⟨first, rest⟩
  · nofun
  · -- names of `.` lead nowhere new, also where the last one does
    have hsteps : ∀ (hs : FileSystem) (names : List String), (first :: names).foldlM hs.enter start =
        (first :: names.filter (· != ".")).foldlM hs.enter start := by
      intro hs names
      rw [List.foldlM_cons, List.foldlM_cons]
      congr 1
      funext folder
      exact (enterAll_filter hs folder names).symm
    rcases List.eq_nil_or_concat rest with rfl | ⟨before, last, rfl⟩
    · exact follow_single_ne_notFound fs start first
    · dsimp only at hinit
      rw [List.concat_eq_append] at hinit hfollow ⊢
      rw [← List.cons_append] at hfollow ⊢
      refine follow_ne_notFound ?_
      rw [hsteps]
      by_cases hdot : last = "."
      · subst hdot
        rw [List.filter_append, List.filter_cons_of_neg (by simp), List.filter_nil,
          List.append_nil] at hinit
        have hreached := follow_dot_eq_ok hfollow
        rw [hsteps] at hreached
        exact ⟨_, enterAll_of_ne_folder hreached hnode hinit⟩
      · rwa [List.filter_append, List.filter_cons_of_pos (by simpa using hdot), List.filter_nil,
          ← List.cons_append, List.dropLast_concat] at hinit

end FileSystem

end CommandShell
