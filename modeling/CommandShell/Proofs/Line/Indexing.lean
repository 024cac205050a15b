import CommandShell.Command.Invocation
import CommandShell.Proofs.Line.Culprits
import CommandShell.Proofs.Line.Splitting

/-!
Reading lines by index.  The functions here do what those of the reader of lines do, but go through characters and
tokens by their numbers and have no result where a number is out of range.  Main statement: that never happens, and
the results are those of the reader of lines.
-/

namespace CommandShell.Line

open Text

namespace Indexed

/-! ### Tokens -/

/-- The tokens of a line from the character number `i` on, counted from 0. -/
def run (chars : List Char) (l : Lexer) (i : Nat) : Option (Except ParseError (List Token)) :=
  if i < chars.length then
    match chars[i]? with
    | none => none
    | some c =>
      match l.feed c (i + 1) 2 (Lexer.rank_le_two _) with
      | .error e => some (.error e)
      | .ok m => run chars m (i + 1)
  else some l.finish
termination_by chars.length - i

def tokenize (line : String) : Option (Except ParseError (List Token)) :=
  if isAllBlank line then some (.error .emptyLine) else run line.toList {} 0

/-! ### Stages and redirects -/

/-- What has been grouped: the stages that are complete, the one under way, and each redirect operator with the
tokens after it. -/
structure Grouping where
  stages : List (List Token) := []
  current : List Token := []
  redirects : List (List Token) := []

namespace Grouping

/-- Completes the stage under way, unless it is empty. -/
def close (g : Grouping) : Grouping :=
  if g.current.isEmpty then g else { g with stages := g.stages ++ [g.current], current := [] }

def add (g : Grouping) (t : Token) : Except ParseError Grouping :=
  match t.kind with
  | .pipe => if g.redirects.isEmpty then .ok g.close else .error (.redirectBeforeCommand t.text t.position)
  | .redirect => .ok { g with redirects := g.redirects ++ [[t]] }
  | .value | .optionName | .equalSign =>
    match g.redirects.getLast? with
    | none => .ok { g with current := g.current ++ [t] }
    | some last => .ok { g with redirects := g.redirects.dropLast ++ [last ++ [t]] }

end Grouping

/-- The stages and redirects that tokens are grouped into one after another. -/
def collect (ts : List Token) : Except ParseError Grouping := (ts.foldlM Grouping.add {}).map (·.close)

/-- The position of the first token, if there is one. -/
def position? (ts : List Token) : Option Nat := ts[0]?.map (·.position)

/-- Where a stage's part of the line stops: where the next stage starts, or the first redirect, or at the end of a
line of `length` characters. -/
def stop? (length : Nat) (redirects next : List (List Token)) : Option Nat :=
  match next, redirects with
  | ts :: _, _ => position? ts
  | [], ts :: _ => position? ts
  | [], [] => some (length + 1)

/-- Where the parts of the line that are the text of stages start and stop. -/
def cuts? (length : Nat) (redirects : List (List Token)) : List (List Token) → Option (List (Nat × Nat))
  | [] => some []
  | ts :: next => do
    let start ← position? ts
    let stop ← stop? length redirects next
    let cuts ← cuts? length redirects next
    return (start, min stop (length + 1)) :: cuts

/-- The characters at the positions from `start` up to but without `stop`, if the line has them. -/
def slice? (chars : List Char) (start stop : Nat) : Option (List Char) :=
  if 1 ≤ start ∧ start ≤ stop ∧ stop ≤ chars.length + 1 then some (slice chars start stop) else none

/-- A stage with its part of the line. -/
def segment? (chars : List Char) (ts : List Token) (cut : Nat × Nat) : Option Segment := do
  let position ← position? ts
  let text ← slice? chars cut.1 cut.2
  return ⟨ts, position,
    String.ofList (dropTrailing isBlank (dropTrailing (· == '|') (trimChars text)))⟩

/-- The redirect of an operator and the tokens after it. -/
def redirect? (nullWord : String) (ts : List Token) : Option (Except ParseError Redirect) :=
  ts[0]?.map fun operator => redirectOf nullWord operator ts.tail

/-- The redirects up to the first mistake in them. -/
def redirects? (nullWord : String) : List (List Token) → Option (Except ParseError (List Redirect))
  | [] => some (.ok [])
  | ts :: rest =>
    match redirect? nullWord ts with
    | none => none
    | some (.error e) => some (.error e)
    | some (.ok r) => (redirects? nullWord rest).map (·.map (r :: ·))

def group (line : String) (tokens : List Token) (nullWord : String) : Option (Except ParseError CommandLine) :=
  match collect tokens with
  | .error e => some (.error e)
  | .ok g => do
    let cuts ← cuts? line.toList.length g.redirects g.stages
    let segments ← (g.stages.zip cuts).mapM fun (ts, cut) => segment? line.toList ts cut
    let redirects ← redirects? nullWord g.redirects
    return redirects.map (⟨segments, ·⟩)

def parse (line nullWord : String) : Option (Except ParseError CommandLine) :=
  match tokenize line with
  | none => none
  | some (.error e) => some (.error e)
  | some (.ok ts) => group line ts nullWord

/-! ### Arguments and commands -/

/-- Adds the arguments from the token number `i` on, counted from 0.  The tokens after an option are only looked
for. -/
def splitFrom (ts : List Token) (raw : RawArguments) (i : Nat) : Option (Except ParseError RawArguments) :=
  if i < ts.length then
    match ts[i]? with
    | none => none
    | some t =>
      match t.kind with
      | .value => splitFrom ts (raw.pushValue t.text) (i + 1)
      | .optionName =>
        match optionName raw t with
        | .error e => some (.error e)
        | .ok name =>
          match ts[i + 1]? with
          | none => splitFrom ts (raw.pushOption ⟨name, none, t.position⟩) (i + 1)
          | some equal =>
            if equal.kind = .equalSign then
              match ts[i + 2]? with
              | none => some (.error (unexpected equal))
              | some v =>
                if v.isWord then splitFrom ts (raw.pushOption ⟨name, some v.text, t.position⟩) (i + 3)
                else some (.error (unexpected equal))
            else splitFrom ts (raw.pushOption ⟨name, none, t.position⟩) (i + 1)
      | .equalSign | .pipe | .redirect => some (.error (unexpected t))
  else some (.ok raw)
termination_by ts.length - i

/-- The stage of a segment, whose first token is its command name. -/
def invocation (registry : Registry) (s : Segment) : Option (Except ShellError Invocation) :=
  match s.tokens[0]? with
  | none => none
  | some first =>
    if first.kind = .value then
      match registry.resolve first.text with
      | .error e => some (.error e)
      | .ok r => (splitFrom s.tokens {} 1).map fun raw =>
        match raw with
        | .error e => .error (.parse e)
        | .ok raw =>
          match bind r.signature raw with
          | .error e => .error (.bind first.text e)
          | .ok binding =>
            .ok {
              stage := .command r binding
              name := first.text
              rawText := s.text
              position := s.position
              tokens := s.tokens }
    else some (.error (.parse (.missingCommand s.position)))

/-- The stages of segments up to the first mistake in them. -/
def invocations (registry : Registry) : List Segment → Option (Except ShellError (List Invocation))
  | [] => some (.ok [])
  | s :: ss =>
    match invocation registry s with
    | none => none
    | some (.error e) => some (.error e)
    | some (.ok i) => (invocations registry ss).map (·.map (i :: ·))

end Indexed

/-! ### Positions -/

section Positions

variable {s : Spaced} {last : List Char} {pos : Nat} {line : String} {ts : List Token}

theorem Spaced.le_position_of_mem {t : Token} (h : t ∈ s.placed pos) : pos ≤ t.position := by
  induction s generalizing pos with
  | nil => cases h
  | cons x s ih =>
      obtain ⟨gap, u⟩ := x
      rcases List.mem_cons.1 h with rfl | h
      · exact Nat.le_add_right _ _
      · have := ih h
        omega

theorem Spaced.Apart.pairwise_position (h : s.Apart last) :
    (s.placed pos).Pairwise fun a b => a.position < b.position := by
  induction s generalizing pos with
  | nil => exact .nil
  | cons x s ih =>
      obtain ⟨gap, t⟩ := x
      obtain ⟨-, hspell, -, hs⟩ := h
      obtain ⟨c, cs, hspelling, -⟩ := hspell.exists_cons
      refine List.pairwise_cons.2 ⟨fun u hu => ?_, ih hs⟩
      have hle := Spaced.le_position_of_mem hu
      rw [hspelling, List.length_cons] at hle
      exact Nat.lt_of_lt_of_le (Nat.lt_add_of_pos_right (Nat.succ_pos _)) hle

/-- Each token stands further right than the one before it. -/
theorem pairwise_position (h : tokenize line = .ok ts) : ts.Pairwise fun a b => a.position < b.position := by
  obtain ⟨-, s, last, -, hs, rfl⟩ := tokenize_eq_ok_iff.1 h
  exact hs.pairwise_position

end Positions

namespace Indexed

/-! ### Tokens -/

theorem drop_eq_cons {α : Type} {as : List α} {a : α} {i : Nat} (h : as[i]? = some a) :
    as.drop i = a :: as.drop (i + 1) := by
  rw [List.drop_eq_getElem?_toList_append, h]
  rfl

theorem run_eq (chars : List Char) (l : Lexer) (i : Nat) :
    run chars l i = some (l.run (i + 1) (chars.drop i)) := by
  fun_induction run chars l i with
  | case1 l i hi hc => simp [hi] at hc
  | case2 l i hi c hc e hfeed =>
      rw [drop_eq_cons hc, Lexer.run, hfeed]
  | case3 l i hi c hc m hfeed ih =>
      rw [ih, drop_eq_cons hc, Lexer.run, hfeed]
  | case4 l i hi => rw [List.drop_eq_nil_of_le (by omega), Lexer.run]

theorem tokenize_eq (line : String) : tokenize line = some (Line.tokenize line) := by
  rw [tokenize, Line.tokenize]
  split
  · rfl
  · exact run_eq _ _ _

/-! ### Stages and redirects -/

namespace Grouping

variable {g : Grouping} {ts : List Token}

theorem close_eq (g : Grouping) :
    g.close = ⟨g.stages ++ if g.current.isEmpty then [] else [g.current], [], g.redirects⟩ := by
  obtain ⟨sts, current, redirects⟩ := g
  rw [close]
  split
  · next h =>
      cases List.isEmpty_iff.1 h
      rw [List.append_nil]
  · rfl

/-- Without redirects, what is grouped are the stages. -/
theorem exists_foldlM_add (hts : ∀ t ∈ ts, t.kind ≠ .redirect) (hg : g.redirects = [])
    (hcurrent : ∀ t ∈ g.current, t.kind ≠ .pipe) :
    ∃ g', ts.foldlM add g = .ok g' ∧ g'.redirects = [] ∧
      g'.close.stages = g.stages ++ Line.stages (g.current ++ ts) := by
  induction ts generalizing g with
  | nil =>
      refine ⟨g, rfl, hg, ?_⟩
      rw [close_eq, List.append_nil]
      by_cases h : g.current = []
      · rw [h]
        rfl
      · have hlast : Line.stages (g.current ++ []) = g.current :: Line.stages [] := stages_append h hcurrent nofun
        rw [List.append_nil] at hlast
        rw [hlast, if_neg (by simpa using h)]
        rfl
  | cons t ts ih =>
      obtain ⟨ht, hts⟩ := List.forall_mem_cons.1 hts
      rw [List.foldlM_cons]
      cases hkind : t.kind with
      | redirect => exact absurd hkind ht
      | pipe =>
          have hadd : g.add t = .ok g.close := by
            rw [add, hkind]
            simp [hg]
          have hclosed := close_eq g
          obtain ⟨g', hg', hredirects, hstages⟩ := ih hts (g := g.close) (by rw [hclosed]; exact hg)
            (by rw [hclosed]; nofun)
          refine ⟨g', by rw [hadd]; exact hg', hredirects, ?_⟩
          rw [hstages, hclosed, List.append_assoc]
          congr 1
          by_cases h : g.current = []
          · rw [h]
            exact (stages_of_pipe hkind).symm
          · have hpipe : ∀ u ∈ (t :: ts).head?, u.kind = .pipe := by
              rintro _ ⟨⟩
              exact hkind
            rw [stages_append h hcurrent hpipe, stages_of_pipe hkind, if_neg (by simpa using h)]
            rfl
      | value | optionName | equalSign =>
          have hadd : g.add t = .ok { g with current := g.current ++ [t] } := by
            rw [add, hkind]
            simp [hg]
          obtain ⟨g', hg', hredirects, hstages⟩ := ih hts (g := { g with current := g.current ++ [t] }) hg (by
            intro u hu
            rcases List.mem_append.1 hu with hu | hu
            · exact hcurrent u hu
            · rw [List.mem_singleton.1 hu, hkind]
              nofun)
          refine ⟨g', by rw [hadd]; exact hg', hredirects, ?_⟩
          rw [hstages, List.append_assoc, List.singleton_append]

/-- After the first redirect, tokens are added to the last one, and no pipe may come. -/
theorem foldlM_add_of_redirects (groups : List (List Token)) {last : List Token} (hg : g.redirects = groups ++ [last]) :
    ts.foldlM add g = match ts.find? (·.kind == .pipe) with
      | some pipe => .error (.redirectBeforeCommand pipe.text pipe.position)
      | none => .ok { g with
          redirects := groups ++ (last ++ ts.takeWhile (·.kind != .redirect)) ::
            (redirectGroups ts).map fun x => x.1 :: x.2 } := by
  induction ts generalizing g groups last with
  | nil => simp [redirectGroups, ← hg, pure, Except.pure]
  | cons t ts ih =>
      rw [List.foldlM_cons]
      cases hkind : t.kind with
      | pipe =>
          have hadd : g.add t = .error (.redirectBeforeCommand t.text t.position) := by
            rw [add, hkind]
            simp [hg]
          rw [hadd, List.find?_cons_of_pos (by simp [hkind])]
          rfl
      | redirect =>
          have hadd : g.add t = .ok { g with redirects := (groups ++ [last]) ++ [[t]] } := by
            rw [add, hkind, ← hg]
          rw [hadd, List.find?_cons_of_neg (by simp [hkind])]
          refine (ih (g := { g with redirects := (groups ++ [last]) ++ [[t]] }) _ rfl).trans ?_
          simp [redirectGroups, hkind]
      | value | optionName | equalSign =>
          have hadd : g.add t = .ok { g with redirects := groups ++ [last ++ [t]] } := by
            rw [add, hkind]
            simp [hg]
          rw [hadd, List.find?_cons_of_neg (by simp [hkind])]
          refine (ih (g := { g with redirects := groups ++ [last ++ [t]] }) _ rfl).trans ?_
          simp [redirectGroups, hkind]

end Grouping

theorem collect_eq (ts : List Token) :
    collect ts = match (ts.drop (firstRedirect ts)).find? (·.kind == .pipe) with
      | some pipe => .error (.redirectBeforeCommand pipe.text pipe.position)
      | none => .ok ⟨stages (ts.take (firstRedirect ts)), [], (redirectGroups ts).map fun x => x.1 :: x.2⟩ := by
  rw [drop_firstRedirect, take_firstRedirect, ← redirectGroups_dropWhile]
  have hcommands : ∀ t ∈ ts.takeWhile (·.kind != .redirect), t.kind ≠ .redirect :=
    fun t ht => by simpa using List.mem_takeWhile_imp ht
  obtain ⟨g, hg, hredirects, hstages⟩ := Grouping.exists_foldlM_add (g := {}) hcommands rfl nofun
  have hcut : ts.foldlM Grouping.add {} = (ts.dropWhile (·.kind != .redirect)).foldlM Grouping.add g := by
    conv_lhs => rw [← List.takeWhile_append_dropWhile (p := (·.kind != .redirect)) (l := ts)]
    rw [List.foldlM_append, hg]
    rfl
  have hclosed (groups : List (List Token)) : ({ g with redirects := groups } : Grouping).close =
      ⟨stages (ts.takeWhile (·.kind != .redirect)), [], groups⟩ := by
    rw [Grouping.close_eq] at hstages ⊢
    exact congrArg (Grouping.mk · [] groups) hstages
  rw [collect, hcut]
  have hhead := List.head?_dropWhile_not (·.kind != .redirect) ts
  generalize ts.dropWhile (·.kind != .redirect) = after at hhead ⊢
  rcases after with _ | ⟨operator, rest⟩
  · have hsame : g = { g with redirects := [] } := by rw [← hredirects]
    simp only [List.foldlM_nil, List.find?_nil, pure, Except.pure, Except.map, redirectGroups, List.map_nil]
    rw [hsame, hclosed]
  · have hkind : operator.kind = .redirect := by simpa using hhead
    have hadd : g.add operator = .ok { g with redirects := [] ++ [[operator]] } := by
      rw [Grouping.add, hkind, hredirects]
    have hfirst : (operator :: rest).foldlM Grouping.add g =
        rest.foldlM Grouping.add { g with redirects := [] ++ [[operator]] } := by
      rw [List.foldlM_cons, hadd]
      rfl
    rw [hfirst, Grouping.foldlM_add_of_redirects [] rfl, List.find?_cons_of_neg (by simp [hkind]),
      redirectGroups, if_pos hkind]
    cases rest.find? (·.kind == .pipe) with
    | some pipe => rfl
    | none => exact congrArg Except.ok (hclosed _)

/-! ### The parts of the line -/

section Cuts

variable {ts : List Token} {groups sts : List (List Token)} {chars : List Char} {stop : Nat}

theorem position?_eq (h : ts ≠ []) : position? ts = some (startOf ts) := by
  obtain ⟨t, ts, rfl⟩ := List.exists_cons_of_ne_nil h
  rfl

/-- Where the first redirect starts; without a redirect it is where the line ends. -/
def stopOf (length : Nat) : List (List Token) → Nat
  | [] => length + 1
  | first :: _ => startOf first

/-- The stages start one after another, and the last one before `stop`, which is in the line or its end. -/
structure Ascends (length stop : Nat) (sts : List (List Token)) : Prop where
  ne_nil : ∀ ts ∈ sts, ts ≠ []
  starts : (sts.map startOf ++ [stop]).Pairwise (· < ·)
  first : ∀ ts ∈ sts, 1 ≤ startOf ts
  stop_le : stop ≤ length + 1

theorem Ascends.tail {length : Nat} (h : Ascends length stop (ts :: sts)) : Ascends length stop sts :=
  ⟨fun xs hxs => h.ne_nil xs (List.mem_cons_of_mem _ hxs), h.starts.of_cons,
    fun xs hxs => h.first xs (List.mem_cons_of_mem _ hxs), h.stop_le⟩

theorem Ascends.exists_cuts (hgroups : ∀ ts ∈ groups, ts ≠ [])
    (h : Ascends chars.length (stopOf chars.length groups) sts) :
    ∃ cuts, cuts? chars.length groups sts = some cuts ∧ cuts.length = sts.length ∧
      (∀ c ∈ cuts, 1 ≤ c.1 ∧ c.1 ≤ c.2 ∧ c.2 ≤ chars.length + 1) ∧
      (sts.zip cuts).mapM (fun x => segment? chars x.1 x.2) =
        some (segmentsOf chars (stopOf chars.length groups) sts) := by
  induction sts with
  | nil => exact ⟨[], rfl, rfl, nofun, rfl⟩
  | cons ts sts ih =>
      obtain ⟨cuts, hcuts, hlength, hbounds, hsegments⟩ := ih h.tail
      have hne := h.ne_nil ts List.mem_cons_self
      -- the stage ends before the end of the line, and before the next one or the first redirect
      obtain ⟨stop, hstop, hlt, hle, hrest⟩ : ∃ stop, stop? chars.length groups sts = some stop ∧
          startOf ts < stop ∧ stop ≤ chars.length + 1 ∧
          segmentsOf chars (stopOf chars.length groups) (ts :: sts) =
            ⟨ts, startOf ts, sourceText chars (startOf ts) stop⟩ ::
              segmentsOf chars (stopOf chars.length groups) sts := by
        have hstarts := List.pairwise_cons.1 h.starts
        rcases sts with _ | ⟨next, sts⟩
        · have hlast := hstarts.1 (stopOf chars.length groups) (by simp)
          refine ⟨stopOf chars.length groups, ?_, hlast, h.stop_le, rfl⟩
          rcases groups with _ | ⟨first, groups⟩
          · rfl
          · exact position?_eq (hgroups first List.mem_cons_self)
        · have hnext := hstarts.1 (startOf next) (by simp)
          have hlast := (List.pairwise_cons.1 hstarts.2).1 (stopOf chars.length groups) (by simp)
          exact ⟨startOf next, position?_eq (h.ne_nil next (by simp)), hnext, hlast.le.trans h.stop_le, rfl⟩
      have hfirst := h.first ts List.mem_cons_self
      refine ⟨(startOf ts, min stop (chars.length + 1)) :: cuts, ?_, by simp [hlength], ?_, ?_⟩
      · rw [cuts?, position?_eq hne, hstop, hcuts]
        rfl
      · refine List.forall_mem_cons.2 ⟨?_, hbounds⟩
        dsimp only
        omega
      · rw [List.zip_cons_cons, List.mapM_cons, hsegments, hrest]
        have hslice : slice? chars (startOf ts) (min stop (chars.length + 1)) =
            some (slice chars (startOf ts) (min stop (chars.length + 1))) := if_pos (by omega)
        rw [segment?, position?_eq hne, hslice]
        rfl

end Cuts

theorem filterMap_head?_sublist {α : Type} (ass : List (List α)) :
    (ass.filterMap List.head?).Sublist ass.flatten := by
  induction ass with
  | nil => exact .slnil
  | cons as ass ih =>
      cases as with
      | nil => exact ih
      | cons a as => exact (ih.trans (List.sublist_append_right as _)).cons_cons a

theorem map_startOf {xss : List (List Token)} (h : ∀ xs ∈ xss, xs ≠ []) :
    xss.map startOf = (xss.filterMap List.head?).map (·.position) := by
  induction xss with
  | nil => rfl
  | cons xs xss ih =>
      obtain ⟨hxs, hxss⟩ := List.forall_mem_cons.1 h
      obtain ⟨x, xs, rfl⟩ := List.exists_cons_of_ne_nil hxs
      exact congrArg (x.position :: ·) (ih hxss)

/-- Redirects start at the first token that is not part of a stage. -/
theorem stopOf_redirectGroups (length : Nat) (ts : List Token) :
    stopOf length ((redirectGroups ts).map fun x => x.1 :: x.2) =
      startOr (length + 1) (ts.drop (firstRedirect ts)) := by
  rw [drop_firstRedirect, ← redirectGroups_dropWhile]
  have hhead := List.head?_dropWhile_not (·.kind != .redirect) ts
  generalize ts.dropWhile (·.kind != .redirect) = after at hhead ⊢
  cases after with
  | nil => rfl
  | cons operator rest =>
      have hkind : operator.kind = .redirect := by simpa using hhead
      rw [redirectGroups, if_pos hkind]
      rfl

theorem flatten_pieces {α : Type} (p : α → Bool) (as : List α) : (pieces p as).flatten = as.filter (!p ·) := by
  induction as with
  | nil => rfl
  | cons a as ih =>
      rw [pieces]
      by_cases ha : p a = true
      · rw [if_pos ha, List.flatten_cons, List.nil_append, ih, List.filter_cons_of_neg (by simp [ha])]
      · rw [if_neg ha, List.filter_cons_of_pos (by simp [ha]), ← ih]
        rcases hps : pieces p as with _ | ⟨q, qs⟩
        · exact absurd hps (pieces_ne_nil p as)
        · rfl

theorem flatten_stages (ts : List Token) : (stages ts).flatten = ts.filter (·.kind != .pipe) := by
  rw [stages, List.flatten_filter_not_isEmpty, flatten_pieces]
  rfl

/-- The stages of a line start one after another, before the first redirect. -/
theorem ascends_stages {line : String} {ts : List Token} (h : Line.tokenize line = .ok ts) :
    Ascends line.toList.length (stopOf line.toList.length ((redirectGroups ts).map fun x => x.1 :: x.2))
      (stages (ts.take (firstRedirect ts))) := by
  generalize hcommands : ts.take (firstRedirect ts) = commands
  generalize hafter : ts.drop (firstRedirect ts) = after
  have hts : commands ++ after = ts := by rw [← hcommands, ← hafter, List.take_append_drop]
  have hplace : ∀ t ∈ ts, 1 ≤ t.position ∧ t.position ≤ line.toList.length := by
    intro t ht
    rw [String.length_toList]
    exact position_of_mem h ht
  have hne : ∀ xs ∈ stages commands, xs ≠ [] := fun xs hxs => by simpa using List.of_mem_filter hxs
  have hheads := (filterMap_head?_sublist (stages commands)).trans (flatten_stages commands ▸ List.filter_sublist)
  have hascending := pairwise_position h
  rw [stopOf_redirectGroups, hafter]
  rw [← hts] at hascending hplace
  refine ⟨hne, ?_, ?_, ?_⟩
  · rw [map_startOf hne]
    cases after with
    | nil =>
        refine List.pairwise_append.2 ⟨?_, List.pairwise_singleton _ _, ?_⟩
        · exact List.pairwise_map.2 (hascending.sublist (hheads.trans (List.sublist_append_left _ _)))
        · rintro _ hstart _ hend
          obtain ⟨t, ht, rfl⟩ := List.mem_map.1 hstart
          rw [List.mem_singleton.1 hend]
          exact Nat.lt_succ_of_le (hplace t (List.mem_append_left _ (hheads.subset ht))).2
    | cons operator rest =>
        have hsub := hheads.append ((List.nil_sublist rest).cons_cons operator)
        have hpositions := List.pairwise_map.2 (hascending.sublist hsub)
        rwa [List.map_append] at hpositions
  · intro xs hxs
    obtain ⟨t, xs, rfl⟩ := List.exists_cons_of_ne_nil (hne xs hxs)
    exact (hplace t (List.mem_append_left _ (hheads.subset (List.mem_filterMap.2 ⟨_, hxs, rfl⟩)))).1
  · cases after with
    | nil => exact Nat.le_refl _
    | cons operator rest =>
        exact Nat.le_succ_of_le (hplace operator (List.mem_append_right _ List.mem_cons_self)).2

/-! ### Redirects and arguments -/

theorem redirects?_eq (nullWord : String) (groups : List (Token × List Token)) :
    redirects? nullWord (groups.map fun x => x.1 :: x.2) =
      some (groups.mapM fun x => redirectOf nullWord x.1 x.2) := by
  induction groups with
  | nil => rfl
  | cons g groups ih =>
      rw [List.map_cons, redirects?, List.mapM_cons, ih]
      rw [redirect?]
      simp only [List.getElem?_cons_zero, Option.map_some, List.tail_cons]
      cases redirectOf nullWord g.1 g.2 with
      | error e => rfl
      | ok r =>
          cases groups.mapM fun x => redirectOf nullWord x.1 x.2 <;> rfl

theorem splitFrom_eq (ts : List Token) (raw : RawArguments) (i : Nat) :
    splitFrom ts raw i = some (Line.splitFrom raw (ts.drop i)) := by
  fun_induction splitFrom ts raw i with
  | case1 raw i hi ht => simp [hi] at ht
  | case2 raw i _ t ht hkind ih => rw [ih, drop_eq_cons ht, Line.splitFrom, hkind]
  | case3 raw i _ t ht hkind e hname =>
      rw [drop_eq_cons ht, Line.splitFrom, hkind]
      dsimp only
      rw [hname]
  | case4 raw i _ t ht hkind name hname hend ih =>
      rw [ih, drop_eq_cons ht, splitFrom_flag hkind hname]
      rw [List.drop_eq_nil_of_le (List.getElem?_eq_none_iff.1 hend)]
      rintro _ ⟨⟩
  | case5 raw i _ t ht hkind name hname equal hequal heq hend =>
      rw [drop_eq_cons ht, drop_eq_cons hequal, List.drop_eq_nil_of_le (List.getElem?_eq_none_iff.1 hend),
        Line.splitFrom, hkind]
      dsimp only
      rw [hname]
      dsimp only
      rw [if_pos heq]
  | case6 raw i _ t ht hkind name hname equal hequal heq v hv hword ih =>
      rw [ih, drop_eq_cons ht, drop_eq_cons hequal, drop_eq_cons hv,
        splitFrom_assigned hkind hname heq hword]
  | case7 raw i _ t ht hkind name hname equal hequal heq v hv hword =>
      rw [drop_eq_cons ht, drop_eq_cons hequal, drop_eq_cons hv, Line.splitFrom, hkind]
      dsimp only
      rw [hname]
      dsimp only
      rw [if_pos heq, if_neg hword]
  | case8 raw i _ t ht hkind name hname other hother heq ih =>
      rw [ih, drop_eq_cons ht, splitFrom_flag hkind hname]
      rw [drop_eq_cons hother]
      rintro _ ⟨⟩
      exact heq
  | case9 raw i _ t ht hkind | case10 raw i _ t ht hkind | case11 raw i _ t ht hkind =>
      rw [drop_eq_cons ht, Line.splitFrom, hkind]
  | case12 raw i hi => rw [List.drop_eq_nil_of_le (by omega), Line.splitFrom]

/-! ### Whole lines -/

theorem group_eq {line : String} {ts : List Token} (h : Line.tokenize line = .ok ts) (nullWord : String) :
    group line ts nullWord = some (Line.group line ts nullWord) := by
  rw [group, collect_eq, Line.group_eq]
  cases (ts.drop (firstRedirect ts)).find? (·.kind == .pipe) with
  | some pipe => rfl
  | none =>
      have hgroups : ∀ xs ∈ (redirectGroups ts).map fun x => x.1 :: x.2, xs ≠ [] :=
        List.forall_mem_map.2 fun _ _ => List.cons_ne_nil _ _
      obtain ⟨cuts, hcuts, -, -, hsegments⟩ := (ascends_stages h).exists_cuts hgroups
      dsimp only
      rw [hcuts, redirects?_eq, Option.bind_eq_bind, Option.bind_some, hsegments, stopOf_redirectGroups]
      rfl

theorem parse_eq (line nullWord : String) : parse line nullWord = some (Line.parse line nullWord) := by
  rw [parse, tokenize_eq, Line.parse]
  cases h : Line.tokenize line with
  | error e => rfl
  | ok ts => exact group_eq h nullWord

theorem invocation_eq (registry : Registry) {s : Segment} (h : s.tokens ≠ []) :
    invocation registry s = some (Invocation.ofSegment registry s) := by
  obtain ⟨_ | ⟨first, rest⟩, position, text⟩ := s
  · exact absurd rfl h
  have hsplit := splitFrom_eq (first :: rest) {} 1
  rw [List.drop_one] at hsplit
  rw [invocation, Invocation.ofSegment, Invocation.head]
  dsimp only [List.getElem?_cons_zero]
  rw [hsplit]
  split
  · dsimp only
    cases registry.resolve first.text with
    | error e => rfl
    | ok r => rfl
  · rfl

theorem invocations_eq (registry : Registry) {ss : List Segment} (h : ∀ s ∈ ss, s.tokens ≠ []) :
    invocations registry ss = some (Invocation.ofSegments registry ss) := by
  induction ss with
  | nil => rfl
  | cons s ss ih =>
      obtain ⟨hs, hss⟩ := List.forall_mem_cons.1 h
      rw [invocations, invocation_eq registry hs, Invocation.ofSegments, ih hss]
      cases Invocation.ofSegment registry s <;> rfl

/-- Reading a line by index never goes out of range and gives what the reader of lines does, up to its commands and
their arguments.  Where the tokens of a line are grouped, no stage and no redirect is without a token, and every part
of the line that is a stage's text starts at its first character or later, does not stop before it starts, and stops
at the end of the line at the latest. -/
theorem within_line (line nullWord : String) (registry : Registry) :
    (parse line nullWord = some (Line.parse line nullWord)) ∧
    (∀ ts g, Line.tokenize line = .ok ts → collect ts = .ok g →
      (∀ stage ∈ g.stages, stage ≠ []) ∧ (∀ redirect ∈ g.redirects, redirect ≠ []) ∧
      ∃ cuts, cuts? line.toList.length g.redirects g.stages = some cuts ∧ cuts.length = g.stages.length ∧
        ∀ cut ∈ cuts, 1 ≤ cut.1 ∧ cut.1 ≤ cut.2 ∧ cut.2 ≤ line.toList.length + 1) ∧
    ∀ cl, Line.parse line nullWord = .ok cl →
      (∀ s ∈ cl.segments, s.tokens ≠ [] ∧ splitFrom s.tokens {} 1 = some (splitArguments s.tokens)) ∧
      invocations registry cl.segments = some (Invocation.ofSegments registry cl.segments) := by
  have hstages {ts : List Token} : ∀ stage ∈ stages (ts.take (firstRedirect ts)), stage ≠ [] :=
    fun stage hstage => by simpa using List.of_mem_filter hstage
  refine ⟨parse_eq line nullWord, ?_, ?_⟩
  · intro ts g hts hg
    rw [collect_eq] at hg
    split at hg
    · cases hg
    · cases hg
      have hgroups : ∀ xs ∈ (redirectGroups ts).map fun x => x.1 :: x.2, xs ≠ [] :=
        List.forall_mem_map.2 fun _ _ => List.cons_ne_nil _ _
      obtain ⟨cuts, hcuts, hlength, hbounds, -⟩ := (ascends_stages hts).exists_cuts hgroups
      exact ⟨hstages, hgroups, cuts, hcuts, hlength, hbounds⟩
  · intro cl hcl
    obtain ⟨ts, -, hgroup⟩ := except_bind_eq_ok_iff.1 hcl
    have hsegments : ∀ s ∈ cl.segments, s.tokens ≠ [] := by
      intro s hs
      have hmem := List.mem_map_of_mem (f := Segment.tokens) hs
      rw [(group_eq_ok_iff.1 hgroup).2.1, map_tokens_segmentsOf] at hmem
      exact hstages _ hmem
    refine ⟨fun s hs => ⟨hsegments s hs, ?_⟩, invocations_eq registry hsegments⟩
    rw [splitFrom_eq, splitArguments, List.drop_one]

end Indexed

end CommandShell.Line
