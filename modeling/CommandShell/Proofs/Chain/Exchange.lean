import CommandShell.Proofs.Chain.Flow

/-!
The steps in which a stage that has a meaning writes to the link after it and reads from its input,
and all its steps taken together.
-/

namespace CommandShell

namespace Chain

variable {c d t : Chain} {i : Nat} {s : Setup} {lineBreak : List Char} {use : Option FileUse}
  {w w' : Worker} {phase : FileUse.Phase} {g g' : List Char → Yield} {stored text taken : List Char}

/-! ### Writing -/

theorem supply_setLink {l : Link} {j : Nat} (hj : j ≠ i + 1) : (c.setLink i l).supply j = c.supply j := by
  cases j with
  | zero => rfl
  | succ k =>
      have hki : i ≠ k := fun h => hj (h ▸ rfl)
      simp only [supply, links_setLink, List.getElem?_set_ne hki]

/-- The links are ended as before if one of them is replaced by one that is ended like it. -/
theorem done_setLink {l m : Link} (hl : c.links[i]? = some l) (hwriter : m.writerDone = l.writerDone)
    (hreader : m.readerDone = l.readerDone) {j : Nat} {k n : Link} (hk : c.links[j]? = some k)
    (hn : (c.setLink i m).links[j]? = some n) :
    n.writerDone = k.writerDone ∧ n.readerDone = k.readerDone := by
  rw [links_setLink] at hn
  by_cases hij : i = j
  · subst hij
    cases hl.symm.trans hk
    rw [List.getElem?_set_self (List.getElem?_eq_some_iff.1 hl).1] at hn
    cases hn
    exact ⟨hwriter, hreader⟩
  · rw [List.getElem?_set_ne hij] at hn
    cases hk.symm.trans hn
    exact ⟨rfl, rfl⟩

theorem worked_pushed (h : Before s lineBreak use c i w phase g stored text) {x : Char} {rest : List Char}
    {l m : Link} {k : w.body.Meaning lineBreak use} {next : w.body.State} (hl : c.links[i]? = some l)
    (hpush : l.push c.isCancelled x = .pushed m) (hfits : k.fits next phase)
    (hyields : ∀ y, g y = ⟨x :: rest, []⟩ ++ k.yield next y) :
    Worked s lineBreak use c i g stored text { w with control := .writing rest next } phase
      (fun y => ⟨rest, []⟩ ++ k.yield next y) ⟨[x], []⟩
      ((c.setLink i m).setWorker i { w with control := .writing rest next }) := by
  obtain ⟨-, -, -, rfl⟩ := Link.push_eq_pushed_iff.1 hpush
  have hi : i < c.links.length := (List.getElem?_eq_some_iff.1 hl).1
  have hinner : c.links[i]? ≠ none := by simp [hl]
  refine ⟨rfl, ⟨⟨k, .writing hfits⟩, h.stands.files⟩, fun z _ => ?_, fun j _ hj => ?_,
    fun l' hl' => .inr ?_, by simp, ?_, ?_, fun hlast => absurd hlast hinner, .refl _, .refl _, fun place _ _ => .refl _ _,
    .refl _, fun place => .inl, fun _ => ⟨rfl, rfl⟩, fun hlast => absurd hlast hinner, rfl, rfl, h.input⟩
  · rw [hyields, supply_setWorker, supply_setLink (Nat.ne_of_lt (Nat.lt_succ_self i))]
    rfl
  · rw [supply_setWorker, supply_setLink hj]
  · rw [supply_setWorker, supply_succ hl, supply_succ (l := { l with queue := l.queue.push x })]
    · rw [Queue.toList_push]
    · rw [links_setLink, List.getElem?_set_self hi]
  · intro j l' m' hl' hm'
    obtain ⟨hwriter, hreader⟩ := done_setLink (m := { l with queue := l.queue.push x }) hl rfl rfl hl' hm'
    exact ⟨fun hm' => .inl (hwriter ▸ hm'), fun hm' => .inl (hreader ▸ hm')⟩
  · rw [List.append_nil]
    exact h.filing

theorem worked_pushChar (h : Before s lineBreak use c i w phase g stored text) {x : Char} {rest : List Char}
    {k : w.body.Meaning lineBreak use} {next : w.body.State}
    (hwriting : w.control = .writing (x :: rest) next) (hfits : k.fits next phase) (hyields : ∀ y, g y = ⟨x :: rest, []⟩ ++ k.yield next y)
    (hstep : c.pushChar i w x rest next = some d) :
    ∃ w' phase' g' y, Worked s lineBreak use c i g stored text w' phase' g' y d := by
  rw [pushChar] at hstep
  split at hstep
  · next hlast =>
      have hnot := h.unwritten hlast
      rw [hwriting] at hnot
      cases hnot
  · next l hl =>
      split at hstep <;> cases hstep
      · next hpush => exact ⟨_, _, _, _, worked_pushed h hl hpush hfits hyields⟩
      · next hdrop =>
          -- the next stage has finished, so the rest of the text is to go nowhere
          have hdone : l.readerDone = true :=
            (Link.push_eq_dropped_iff.1 hdrop).resolve_right (by simp [h.cancelled])
          have hworld : World.Tends s.world use c.world c.world := World.Apart.tends (.refl _ _)
          refine ⟨_, _, _, ⟨x :: rest, []⟩, worked_still h (.refl c) hworld rfl
            (stands_resume hfits h.stands.files) rfl hyields (.inr ⟨l, hl, hdone⟩) (fun _ => rfl) ?_⟩
          rw [List.append_nil]
          exact h.filing

/-! ### Reading -/

/-- Characters have been taken from the input of a stage. -/
structure Took (c : Chain) (i : Nat) (taken : List Char) (t : Chain) : Prop where
  workers : t.workers = c.workers
  supply : c.supply i = taken ++ t.supply i
  others : ∀ j, j ≠ i → t.supply j = c.supply j
  length : t.links.length = c.links.length
  ended : ∀ {j : Nat} {l m : Link}, c.links[j]? = some l → t.links[j]? = some m →
    m.writerDone = l.writerDone ∧ m.readerDone = l.readerDone
  ends : t.ends = { c.ends with input := t.ends.input }
  failures : t.failures = c.failures
  input : t.ends.input ≠ .terminal

theorem took_nothing (c : Chain) (i : Nat) (hinput : c.ends.input ≠ .terminal) : Took c i [] c := by
  refine ⟨rfl, rfl, fun _ _ => rfl, rfl, ?_, rfl, rfl, hinput⟩
  intro j l m hl hm
  cases hl.symm.trans hm
  exact ⟨rfl, rfl⟩

theorem took_setInput (taken : List Char) {rest : List Char}
    (hinput : c.ends.input = .redirected (taken ++ rest)) :
    Took c 0 taken { c with ends := { c.ends with input := .redirected rest } } := by
  refine ⟨rfl, ?_, fun j hj => ?_, rfl, ?_, rfl, rfl, nofun⟩
  · rw [Chain.supply, hinput]
    rfl
  · cases j with
    | zero => exact absurd rfl hj
    | succ k => rfl
  · intro j l m hl hm
    cases hl.symm.trans hm
    exact ⟨rfl, rfl⟩

theorem took_setLink (taken : List Char) {j : Nat} {l : Link} {q : Queue Char}
    (hinput : c.ends.input ≠ .terminal) (hl : c.links[j]? = some l)
    (hq : l.queue.toList = taken ++ q.toList) :
    Took c (j + 1) taken (c.setLink j { l with queue := q }) := by
  have hj : j < c.links.length := (List.getElem?_eq_some_iff.1 hl).1
  refine ⟨rfl, ?_, fun k hk => supply_setLink hk, by simp,
    done_setLink (m := { l with queue := q }) hl rfl rfl, rfl, rfl, hinput⟩
  rw [supply_succ hl, supply_succ (l := { l with queue := q }), hq]
  rw [links_setLink, List.getElem?_set_self hj]

/-- A stage other than the first one has a link before it. -/
theorem link_of_worker (hlength : c.workers.length = c.links.length + 1)
    (hw : c.workers[i + 1]? = some w) : ∃ l, c.links[i]? = some l := by
  have hi := (List.getElem?_eq_some_iff.1 hw).1
  exact ⟨_, List.getElem?_eq_getElem (by omega)⟩

theorem took_tryRead {x : Option Char} (hlength : c.workers.length = c.links.length + 1)
    (hw : c.workers[i]? = some w) (hinput : c.ends.input ≠ .terminal) (htry : c.tryRead i = (x, t)) :
    Took c i x.toList t := by
  rw [tryRead] at htry
  cases i with
  | zero =>
      dsimp only [linkBefore?] at htry
      rcases hin : c.ends.input with _ | (_ | ⟨y, rest⟩) | _
      · exact absurd hin hinput
      · simp only [Ends.tryRead, hin, Redirected.tryRead] at htry
        cases htry
        exact took_setInput [] hin
      · simp only [Ends.tryRead, hin, Redirected.tryRead] at htry
        cases htry
        exact took_setInput [y] hin
      · simp only [Ends.tryRead, hin] at htry
        cases htry
        exact took_nothing c 0 hinput
  | succ j =>
      obtain ⟨l, hl⟩ := link_of_worker hlength hw
      simp only [linkBefore?, hl, Nat.add_sub_cancel] at htry
      rcases htake : l.tryRead with ⟨y, m⟩
      rw [htake] at htry
      cases htry
      cases y with
      | none =>
          obtain ⟨rfl, hempty⟩ := Link.tryRead_eq_none htake
          exact took_setLink [] hinput hl rfl
      | some y =>
          obtain ⟨q, rfl, hq⟩ := Link.tryRead_eq_some htake
          exact took_setLink [y] hinput hl hq

theorem tryRead_of_readChar_got {x : Char} (hinput : c.ends.input ≠ .terminal)
    (hread : c.readChar i = .got x t) : c.tryRead i = (some x, t) := by
  rw [readChar] at hread
  rw [tryRead]
  split at hread
  · next hbefore =>
      rcases hin : c.ends.input with _ | (_ | ⟨y, rest⟩) | _
      · exact absurd hin hinput
      · cases hcancel : c.ends.isCancelled <;>
          simp [Ends.readChar, hin, Redirected.readChar, Redirected.tryRead, hcancel] at hread
      · cases hcancel : c.ends.isCancelled <;>
          simp [Ends.readChar, hin, Redirected.readChar, Redirected.tryRead, hcancel] at hread
        obtain ⟨rfl, rfl⟩ := hread
        simp [Ends.tryRead, hin, Redirected.tryRead]
      · simp [Ends.readChar, hin] at hread
  · split at hread <;> cases hread
    next hgot => rw [(Link.readChar_eq_got hgot).2]

theorem rest_of_readChar_ended {e e' : Ends} (hinput : e.input ≠ .terminal)
    (hcancelled : e.isCancelled = false) (h : e.readChar = .ended e') : e' = e ∧ e.input.rest = [] := by
  rcases hin : e.input with _ | (_ | ⟨y, rest⟩) | _
  · exact absurd hin hinput
  · simp only [Ends.readChar, hin, Redirected.readChar, Redirected.tryRead, hcancelled] at h
    cases h
    refine ⟨?_, rfl⟩
    rw [← hin]
  · simp [Ends.readChar, hin, Redirected.readChar, Redirected.tryRead, hcancelled] at h
  · simp only [Ends.readChar, hin] at h
    cases h
    exact ⟨rfl, rfl⟩

/-- A reader that waits comes to the end where nothing more is written and nothing is left. -/
theorem took_of_readChar_ended (hlength : c.workers.length = c.links.length + 1)
    (hw : c.workers[i]? = some w) (hinput : c.ends.input ≠ .terminal) (hcancelled : c.isCancelled = false)
    (hread : c.readChar i = .ended t) : Took c i [] t ∧ c.supply i = [] ∧ c.IsFed i := by
  rw [readChar] at hread
  cases i with
  | zero =>
      dsimp only [linkBefore?] at hread
      split at hread <;> cases hread
      next e' hended =>
        obtain ⟨rfl, hrest⟩ := rest_of_readChar_ended hinput hcancelled hended
        refine ⟨took_nothing c 0 hinput, hrest, ?_⟩
        intro l hl
        cases hl
  | succ j =>
      obtain ⟨l, hl⟩ := link_of_worker hlength hw
      simp only [linkBefore?, hl, Nat.add_sub_cancel] at hread
      split at hread <;> cases hread
      next hended =>
        obtain ⟨rfl, hc | ⟨hempty, hdone⟩⟩ := Link.readChar_eq_ended hended
        · simp [hcancelled] at hc
        · refine ⟨took_setLink [] hinput hl rfl, ?_, ?_⟩
          · rw [supply_succ hl, hempty]
          · intro k hk
            cases hl.symm.trans hk
            exact hdone

/-- A step in which the stage takes characters of its input and does nothing else. -/
theorem worked_take (h : Before s lineBreak use c i w phase g stored text) (htook : Took c i taken t)
    (hstands : w'.Stands lineBreak use phase g') (hrun : w'.isFinished = false)
    (hunwritten : w'.control.isWriting = false)
    (hyields : ∀ rest, (c.IsFed i → rest = []) →
      g (taken ++ (t.supply i ++ rest)) = g' (t.supply i ++ rest)) :
    Worked s lineBreak use c i g stored text w' phase g' ⟨[], []⟩ (t.setWorker i w') := by
  have hworld : (t.setWorker i w').world = c.world := by
    rw [Chain.world, ends_setWorker, htook.ends]
    rfl
  have houtput : t.ends.output = c.ends.output := by rw [htook.ends]
  refine ⟨?_, hstands, fun rest hrest => ?_, fun j hj _ => ?_, fun l hl => .inr ?_, htook.length, ?_, ?_,
    fun hlast => ?_, ?_, ?_, fun place _ _ => ?_, ?_, fun place hplace => ?_, fun _ => ?_,
    fun _ => hunwritten, ?_, htook.failures, htook.input⟩
  · rw [workers_setWorker, htook.workers]
  · rw [htook.supply, List.append_assoc, hyields rest hrest, supply_setWorker, Yield.empty_append]
  · rw [supply_setWorker, htook.others j hj]
  · rw [supply_setWorker, htook.others _ (Nat.succ_ne_self i), List.append_nil]
  · intro j l m hl hm
    obtain ⟨hwriter, hreader⟩ := htook.ended hl hm
    exact ⟨fun hm => .inl (hwriter ▸ hm), fun hm => .inl (hreader ▸ hm)⟩
  · rw [List.append_nil, hworld]
    exact h.filing
  · rw [hrun, List.append_nil, hworld, ends_setWorker, houtput]
    exact h.delivered hlast
  · rw [ends_setWorker, houtput]
    exact .refl _
  · rw [hworld]
    exact .refl _
  · rw [hworld]
    exact .refl _ _
  · rw [hworld]
    exact .refl _
  · rw [hworld] at hplace
    exact .inl hplace
  · exact ⟨congrArg World.terminal hworld, houtput⟩
  · show t.ends.isCancelled = c.ends.isCancelled
    rw [htook.ends]
    rfl

/-- The stage has taken a character, with or without waiting for it. -/
theorem worked_feed (h : Before s lineBreak use c i w phase g stored text) {r : Reading} {x : Char}
    {k : w.body.Meaning lineBreak use} {next : Option String → w.body.State}
    (howes : k.Owes phase (.reading r next) g) (htry : c.tryRead i = (some x, t))
    (hstep : c.readOn i w r next = some d)
    (hread : r.step (tryRead i) (readChar i) c = (some (r.feed (some x)), t)) :
    ∃ w' phase' g' y, Worked s lineBreak use c i g stored text w' phase' g' y d := by
  have htook := took_tryRead h.length h.worker h.input htry
  obtain ⟨hmore, hdone⟩ := Body.Meaning.owes_of_feed_some howes x
  rw [readOn, hread] at hstep
  rcases hfeed : r.feed (some x) with r' | answer
  · rw [hfeed] at hstep
    cases hstep
    obtain ⟨g', howes', hyields⟩ := hmore r' hfeed
    exact ⟨_, _, _, _, worked_take h htook ⟨⟨k, howes'⟩, h.stands.files⟩ rfl rfl fun _ _ => hyields _⟩
  · rw [hfeed] at hstep
    cases hstep
    obtain ⟨hfits, hyields⟩ := hdone answer hfeed
    exact ⟨_, _, _, _, worked_take h htook (stands_resume hfits h.stands.files) rfl rfl
      fun _ _ => hyields _⟩

theorem worked_readOn (h : Before s lineBreak use c i w phase g stored text) {r : Reading}
    {k : w.body.Meaning lineBreak use} {next : Option String → w.body.State}
    (howes : k.Owes phase (.reading r next) g) (hstep : c.readOn i w r next = some d) :
    ∃ w' phase' g' y, Worked s lineBreak use c i g stored text w' phase' g' y d := by
  rcases hread : r.step (tryRead i) (readChar i) c with ⟨next?, t⟩
  obtain ⟨fed, hfed, hnext⟩ := Reading.fed_of_step hread
  subst hnext
  cases hfed with
  | tried x t heager htry =>
      cases x with
      | some x => exact worked_feed h howes htry hstep hread
      | none =>
          obtain ⟨answer, hdone, hfits, hyields⟩ := Body.Meaning.owes_of_cut howes heager
          have htook := took_tryRead h.length h.worker h.input htry
          simp only [readOn, hread, Option.map_some, hdone] at hstep
          cases hstep
          exact ⟨_, _, _, _, worked_take h htook (stands_resume hfits h.stands.files) rfl rfl
            fun _ _ => hyields _⟩
  | got x t hwait hgot => exact worked_feed h howes (tryRead_of_readChar_got h.input hgot) hstep hread
  | ended t hwait hended =>
      obtain ⟨answer, hdone, hfits, hyields⟩ := Body.Meaning.owes_of_ended howes hwait
      obtain ⟨htook, hempty, hisfed⟩ :=
        took_of_readChar_ended h.length h.worker h.input h.cancelled hended
      simp only [readOn, hread, Option.map_some, hdone] at hstep
      cases hstep
      refine ⟨_, _, _, _, worked_take h htook (stands_resume hfits h.stands.files) rfl rfl ?_⟩
      intro rest hrest
      have hsupply := htook.supply
      rw [hempty, List.nil_append] at hsupply
      rw [hrest hisfed, ← hsupply]
      exact hyields
  | blocked t hwait hblocked =>
      simp only [readOn, hread, Option.map_none] at hstep
      split at hstep <;> cases hstep
      next hbefore =>
        -- this is the first stage, and its input is all there
        have haround := (readChar_around c i).2
        rw [hblocked] at haround
        have hfirst := linkBefore?_eq_none haround hbefore
        exact absurd (terminal_of_readChar_blocked hblocked hfirst) h.input

/-! ### All steps -/

theorem worked_output (h : Before s lineBreak use c i w phase g stored text) {action : OutputAction}
    {k : w.body.Meaning lineBreak use} {next : w.body.State} (hclear : action ≠ .clearScreen)
    (hfits : k.fits next phase) (hyields : ∀ x, g x = ⟨action.chars lineBreak, []⟩ ++ k.yield next x) :
    ∃ w' phase' g' y,
      Worked s lineBreak use c i g stored text w' phase' g' y (c.output i w action next) := by
  rw [output]
  split
  · next l hl =>
      have hchars : action.linkText.toList = action.chars lineBreak := by
        rw [OutputAction.toList_linkText, h.innerBreak (by simp [hl])]
      refine ⟨_, _, _, _, worked_alone h ⟨⟨k, .writing hfits⟩, h.stands.files⟩ rfl
        (fun hlast => by simp [hlast] at hl) fun x => ?_⟩
      rw [hyields, hchars]
  · next hlast =>
      obtain ⟨output, world, hperform, hworked⟩ := worked_perform h hlast hclear hfits hyields
      rw [hperform]
      exact ⟨_, _, _, _, hworked⟩

/-- The requests of a body that has a meaning are those that it speaks of, and none of them fails. -/
theorem worked_serve (h : Before s lineBreak use c i w phase g stored text)
    {k : w.body.Meaning lineBreak use} {state : w.body.State} (hfits : k.fits state phase) (hg : g = k.yield state) :
    ∃ w' phase' g' y,
      Worked s lineBreak use c i g stored text w' phase' g' y (c.serve i w (w.body.next state)) := by
  have hyields := k.yields state phase hfits
  have hfiles := h.stands.files
  have hfiling := h.filing
  subst hg
  cases hrequest : w.body.next state with
  | finish result =>
      rw [hrequest] at hyields
      obtain ⟨rfl, hopened, hyields⟩ := hyields
      exact ⟨_, _, _, _, worked_finish h hopened hyields⟩
  | output action next =>
      rw [hrequest] at hyields
      exact worked_output h hyields.1 hyields.2.1 hyields.2.2
  | read extent next =>
      rw [hrequest] at hyields
      cases extent with
      | character | all => exact hyields.elim
      | chunk =>
          exact ⟨_, _, _, _, worked_alone h ⟨⟨k, .chunk hfits hrequest⟩, hfiles⟩ rfl (fun _ => rfl)
            fun x => rfl⟩
      | line =>
          exact ⟨_, _, _, _, worked_alone h ⟨⟨k, .line hfits hrequest nofun⟩, hfiles⟩ rfl (fun _ => rfl)
            fun x => rfl⟩
  | checkCancelled next =>
      rw [hrequest] at hyields
      rw [serve, h.cancelled]
      exact ⟨_, _, _, _, worked_alone h (stands_resume hyields.1 hfiles) rfl (fun _ => rfl) hyields.2⟩
  | makeFoldersFor path next =>
      rw [hrequest] at hyields
      obtain ⟨⟨append, rfl⟩, rfl, hnext, hyields⟩ := hyields
      obtain ⟨world, hmake, hmade, hworld, hterminal⟩ := hfiling.makeFoldersFor h.paths
      rw [serve, hmake]
      rw [← List.append_nil stored] at hmade
      exact ⟨_, _, _, _, worked_file h hmade hworld hterminal hnext hfiles hyields⟩
  | openFile path append next =>
      rw [hrequest] at hyields
      obtain ⟨rfl, rfl, hnext⟩ := hyields
      obtain ⟨id, world, hopen, hopened, hworld, hterminal⟩ := hfiling.openFile h.paths
      rw [serve, hopen]
      rw [← List.append_nil stored] at hopened
      have hlisted : w.files ++ [id] = [id] := by rw [hfiles]; rfl
      exact ⟨_, _, _, _, worked_file h hopened hworld hterminal (hnext id).1 hlisted (hnext id).2⟩
  | writeFile id t next =>
      rw [hrequest] at hyields
      obtain ⟨rfl, hnext, hyields⟩ := hyields
      obtain ⟨hwritten, hworld, hterminal⟩ := hfiling.writeFile t
      exact ⟨_, _, _, _, worked_file h hwritten hworld hterminal hnext hfiles hyields⟩
  | flushFile id next =>
      rw [hrequest] at hyields
      obtain ⟨rfl, hnext, hyields⟩ := hyields
      obtain ⟨hflushed, -, hworld, hterminal⟩ := hfiling.flushFile
      rw [← List.append_nil stored] at hflushed
      exact ⟨_, _, _, _, worked_file h hflushed hworld hterminal hnext hfiles hyields⟩
  | errorOutput | readKey | flushKeys | sleep | cancel | endSession | history | sessions | environment
    | load =>
      rw [hrequest] at hyields
      exact hyields.elim

/-- What every step of a stage with a meaning does. -/
theorem worked_of_step (h : Before s lineBreak use c i w phase g stored text) (hstep : c.step i = some d) :
    ∃ w' phase' g' y, Worked s lineBreak use c i g stored text w' phase' g' y d := by
  rw [step] at hstep
  simp only [h.worker] at hstep
  obtain ⟨k, howes⟩ := h.stands.owes
  split at hstep
  · cases hstep
  · split at hstep
    · cases hstep
    · next state hcontrol =>
        cases hstep
        rw [hcontrol] at howes
        cases howes with
        | ready hfits => exact worked_serve h hfits rfl
    · next next' hcontrol =>
        cases hstep
        rw [hcontrol] at howes
        cases howes with
        | writing hfits =>
            exact ⟨_, _, _, _, worked_alone h (stands_resume hfits h.stands.files) rfl (fun _ => rfl)
              fun x => rfl⟩
    · next x rest next' hcontrol =>
        rw [hcontrol] at howes
        cases howes with
        | writing hfits => exact worked_pushChar h hcontrol hfits (fun _ => rfl) hstep
    · next r next' hcontrol =>
        rw [hcontrol] at howes
        exact worked_readOn h howes hstep
    · next hcontrol =>
        rw [hcontrol] at howes
        cases howes
    · next hcontrol =>
        rw [hcontrol] at howes
        cases howes

end Chain

end CommandShell
