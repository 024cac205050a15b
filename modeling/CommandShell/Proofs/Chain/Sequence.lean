import CommandShell.Proofs.Chain.Exchange
import Mathlib.Logic.Function.Basic

/-!
Stages that have a meaning at work in a chain.  What each of them is still to read follows from what is
left of the chain's input and what waits in the links; main statement: no step of any stage changes
what comes of the stages altogether.
-/

namespace CommandShell

namespace Chain

/-- All that the stages are still to read: what waits for them, and what is to come of the stage
before. -/
def incoming (supply : Nat → List Char) (g : Nat → List Char → Yield) : Nat → List Char
  | 0 => supply 0
  | j + 1 => supply (j + 1) ++ (g j (incoming supply g j)).out

/-- What is still to come of the stage before. -/
def upstream (supply : Nat → List Char) (g : Nat → List Char → Yield) : Nat → List Char
  | 0 => []
  | j + 1 => (g j (incoming supply g j)).out

theorem incoming_eq (supply : Nat → List Char) (g : Nat → List Char → Yield) (j : Nat) :
    incoming supply g j = supply j ++ upstream supply g j := by
  cases j with
  | zero => rw [upstream, List.append_nil]; rfl
  | succ j => rfl

theorem upstream_congr {supply supply' : Nat → List Char} {g g' : Nat → List Char → Yield} {k : Nat}
    (hsupply : ∀ j, j < k → supply' j = supply j) (hg : ∀ j, j < k → g' j = g j) :
    upstream supply' g' k = upstream supply g k := by
  induction k with
  | zero => rfl
  | succ k ih =>
      have hk := ih (fun j hj => hsupply j (by omega)) fun j hj => hg j (by omega)
      rw [upstream, upstream, incoming_eq, incoming_eq, hk, hsupply k (by omega), hg k (by omega)]

/-- What is to come of each stage, given what ends its lines and which file it writes. -/
structure Plan where
  lineBreak : Nat → List Char
  use : Nat → Option FileUse
  total : Nat → Yield

variable {s : Setup} {p : Plan} {c d : Chain} {i : Nat} {w w' : Worker} {supply : Nat → List Char}
  {phase : Nat → FileUse.Phase} {g : Nat → List Char → Yield} {stored : Nat → List Char} {text : List Char}

/-- The file of a stage is neither that of another nor a folder made for it, and the output goes
elsewhere. -/
structure Plan.Apart (p : Plan) (s : Setup) : Prop where
  stages : ∀ {i j : Nat} {place : String}, s.world.usePlace? (p.use i) = some place →
    s.world.Needs (p.use j) place → i = j
  output : ∀ {i : Nat} {place : String}, s.world.Needs (p.use i) place → s.sink.place? s.place ≠ some place

/-- What has come of the stages and what is still to come of them is what was to come of them. -/
structure OnTrack (s : Setup) (p : Plan) (c : Chain) (phase : Nat → FileUse.Phase)
    (g : Nat → List Char → Yield) (stored : Nat → List Char) (text : List Char) : Prop where
  length : c.workers.length = c.links.length + 1
  stands : ∀ {i : Nat} {w : Worker}, c.workers[i]? = some w →
    w.Stands (p.lineBreak i) (p.use i) (phase i) (g i)
  unwritten : ∀ {i : Nat} {w : Worker}, c.workers[i]? = some w → c.links[i]? = none →
    w.control.isWriting = false
  filing : ∀ i, i ≤ c.links.length → s.world.Filing c.world (p.use i) (phase i) (stored i)
  stored : ∀ i, i ≤ c.links.length →
    stored i ++ (g i (incoming c.supply g i)).stored = (p.total i).stored
  written : text ++ (g c.links.length (incoming c.supply g c.links.length)).out =
    (p.total c.links.length).out
  delivered : ∀ {w : Worker}, c.workers[c.links.length]? = some w → if w.isFinished then
    ChainOutput.Received s.shown s.place s.node c.ends.output c.world
      (Text.endLine (p.lineBreak c.links.length) text)
    else ChainOutput.Delivered s.shown s.place s.node c.ends.output c.world text
  ended : ∀ {j : Nat} {l : Link}, c.links[j]? = some l →
    (l.writerDone = true → ∀ {w : Worker}, c.workers[j]? = some w → w.isFinished = true) ∧
      (l.readerDone = true → ∀ {w : Worker}, c.workers[j + 1]? = some w → w.isFinished = true)
  innerBreak : ∀ {i : Nat}, c.links[i]?.isSome → p.lineBreak i = ['\n']
  lastBreak : c.ends.output.lineTermination.toList = p.lineBreak c.links.length
  sink : c.ends.output.sink = s.sink
  apart : p.Apart s
  paths : s.world.SamePaths c.world
  cancelled : c.isCancelled = false
  failures : c.failures = []
  input : c.ends.input ≠ .terminal

theorem eq_finished (h : w.isFinished = true) : w.control = .finished := by
  rw [Worker.isFinished] at h
  split at h
  · next hcontrol => exact hcontrol
  · cases h

/-- Nothing more comes of a stage that has finished. -/
theorem yield_of_finished {lineBreak : List Char} {use : Option FileUse} {phase : FileUse.Phase}
    {g : List Char → Yield} (h : w.Stands lineBreak use phase g) (hfinished : w.isFinished = true) :
    phase = .closed ∧ ∀ x, g x = {} := by
  obtain ⟨m, howes⟩ := h.owes
  rw [eq_finished hfinished] at howes
  cases howes with
  | finished hclosed => exact ⟨hclosed, fun _ => rfl⟩

theorem before_of_onTrack (h : OnTrack s p c phase g stored text) (hw : c.workers[i]? = some w)
    (hrun : w.isFinished = false) :
    Before s (p.lineBreak i) (p.use i) c i w (phase i) (g i) (stored i) text := by
  have hi := (List.getElem?_eq_some_iff.1 hw).1
  have hlength := h.length
  have hlast : c.links[i]? = none → i = c.links.length := by
    intro hnone
    rw [List.getElem?_eq_none_iff] at hnone
    omega
  refine ⟨h.length, hw, h.stands hw, h.unwritten hw, h.filing i (by omega), fun hnone => ?_, h.innerBreak,
    fun hnone => ?_, fun _ place hneeds => h.sink ▸ h.apart.output hneeds, h.paths, h.cancelled, h.input⟩
  · have hi := hlast hnone
    subst hi
    have hdelivered := h.delivered hw
    rwa [hrun] at hdelivered
  · rw [h.lastBreak, hlast hnone]

section Step

variable {y : Yield} {phase' : FileUse.Phase} {g' : List Char → Yield}
  (h : OnTrack s p c phase g stored text) (hw : c.workers[i]? = some w)
  (hworked : Worked s (p.lineBreak i) (p.use i) c i (g i) (stored i) text w' phase' g' y d)

include hworked

theorem upstream_worked {j : Nat} (hj : j ≤ i) :
    upstream d.supply (Function.update g i g') j = upstream c.supply g j :=
  upstream_congr (fun k hk => hworked.supply k (by omega) (by omega))
    fun k hk => Function.update_of_ne (by omega) _ _

theorem incoming_before {j : Nat} (hj : j < i) :
    incoming d.supply (Function.update g i g') j = incoming c.supply g j := by
  rw [incoming_eq, incoming_eq, upstream_worked hworked (by omega), hworked.supply j (by omega) (by omega)]

theorem others_worked {j : Nat} (hj : j ≠ i) : d.workers[j]? = c.workers[j]? := by
  rw [hworked.workers, List.getElem?_set_ne (Ne.symm hj)]

theorem links_worked {j : Nat} : d.links[j]? = none ↔ c.links[j]? = none := by
  rw [List.getElem?_eq_none_iff, List.getElem?_eq_none_iff, hworked.length]

include hw

theorem self_worked : d.workers[i]? = some w' := by
  rw [hworked.workers, List.getElem?_set_self (List.getElem?_eq_some_iff.1 hw).1]

include h

/-- What has come of the stage is what it no longer has to do. -/
theorem yield_incoming :
    g i (incoming c.supply g i) = y ++ g' (incoming d.supply (Function.update g i g') i) := by
  rw [incoming_eq, incoming_eq, upstream_worked hworked (Nat.le_refl i)]
  -- where the stage before has ended the link, nothing is to come of it
  refine hworked.yields _ fun hfed => ?_
  cases i with
  | zero => rfl
  | succ j =>
      obtain ⟨l, hl⟩ := link_of_worker h.length hw
      have hj := (List.getElem?_eq_some_iff.1 hw).1
      have hbefore : c.workers[j]? = some c.workers[j] := List.getElem?_eq_getElem (by omega)
      have hfinished := (h.ended hl).1 (hfed l hl) hbefore
      rw [upstream, (yield_of_finished (h.stands hbefore) hfinished).2]

/-- The stages further on have the same to come as before. -/
theorem yield_after {j : Nat} (hij : i < j) (hj : j ≤ c.links.length) :
    g j (incoming d.supply (Function.update g i g') j) = g j (incoming c.supply g j) := by
  induction j with
  | zero => omega
  | succ j ih =>
      by_cases hji : j = i
      · subst hji
        have hlength := h.length
        have hlink : c.links[j]? = some c.links[j] := List.getElem?_eq_getElem (by omega)
        have hnext : c.workers[j + 1]? = some c.workers[j + 1] := List.getElem?_eq_getElem (by omega)
        -- the next stage has finished, or what the step has written waits for it
        rcases hworked.below _ hlink with hdone | hsupply
        · have hfinished := (h.ended hlink).2 hdone hnext
          have hnone := (yield_of_finished (h.stands hnext) hfinished).2
          rw [hnone, hnone]
        · rw [incoming, incoming, hsupply, Function.update_self, yield_incoming h hw hworked,
            Yield.out_append, List.append_assoc]
      · have hlt : i < j := by omega
        have hne : j ≠ i := by omega
        rw [incoming, incoming, hworked.supply _ (by omega) (by omega), Function.update_of_ne hne,
          ih hlt (by omega)]

theorem stored_worked {j : Nat} (hj : j ≤ c.links.length) :
    Function.update stored i (stored i ++ y.stored) j ++ (Function.update g i g' j
      (incoming d.supply (Function.update g i g') j)).stored = (p.total j).stored := by
  rw [← h.stored j hj]
  rcases Nat.lt_trichotomy j i with hlt | rfl | hgt
  · have hne : j ≠ i := by omega
    rw [Function.update_of_ne hne, Function.update_of_ne hne, incoming_before hworked hlt]
  · rw [Function.update_self, Function.update_self, yield_incoming h hw hworked, Yield.stored_append,
      List.append_assoc]
  · have hne : j ≠ i := by omega
    rw [Function.update_of_ne hne, Function.update_of_ne hne, yield_after h hw hworked hgt hj]

theorem written_worked :
    (if i = c.links.length then text ++ y.out else text) ++ (Function.update g i g' c.links.length
      (incoming d.supply (Function.update g i g') c.links.length)).out =
      (p.total c.links.length).out := by
  rw [← h.written]
  by_cases hlast : i = c.links.length
  · rw [if_pos hlast, ← hlast, Function.update_self, yield_incoming h hw hworked, Yield.out_append,
      List.append_assoc]
  · have hi := (List.getElem?_eq_some_iff.1 hw).1
    have hlength := h.length
    rw [if_neg hlast, Function.update_of_ne (Ne.symm hlast),
      yield_after h hw hworked (by omega) (Nat.le_refl _)]

theorem delivered_worked {v : Worker} (hv : d.workers[c.links.length]? = some v) : if v.isFinished then
      ChainOutput.Received s.shown s.place s.node d.ends.output d.world
        (Text.endLine (p.lineBreak c.links.length) (if i = c.links.length then text ++ y.out else text))
      else ChainOutput.Delivered s.shown s.place s.node d.ends.output d.world
        (if i = c.links.length then text ++ y.out else text) := by
  by_cases hlast : i = c.links.length
  · rw [if_pos hlast, ← hlast]
    rw [← hlast, self_worked hw hworked, Option.some_inj] at hv
    subst hv
    exact hworked.delivered (List.getElem?_eq_none_iff.2 (by omega))
  · have hi := (List.getElem?_eq_some_iff.1 hw).1
    have hlength := h.length
    have hbefore : i < c.links.length := by omega
    obtain ⟨hterminal, houtput⟩ := hworked.inner (by simpa using hbefore)
    -- the step may have written to the stage's own file, which the output file is not
    have hkeep : c.ends.output.sink.place? s.place = some s.place → c.world.KeepsAt d.world s.place := by
      intro hplace
      refine hworked.keeps _ (fun hown => h.apart.output (.inl hown) (h.sink ▸ hplace)) fun hnone => ?_
      rw [List.getElem?_eq_none_iff] at hnone
      omega
    rw [others_worked hworked (Ne.symm hlast)] at hv
    have hdelivered := h.delivered hv
    rw [if_neg hlast, houtput]
    split at hdelivered
    · next hfinished =>
        rw [if_pos hfinished]
        exact hdelivered.keep hterminal hkeep
    · next hrun =>
        rw [if_neg hrun]
        exact hdelivered.keep hterminal hkeep

/-- A link is ended on a side only by the stage on that side. -/
theorem ended_worked (hrun : w.isFinished = false) {j : Nat} {m : Link} (hm : d.links[j]? = some m) :
    (m.writerDone = true → ∀ {v : Worker}, d.workers[j]? = some v → v.isFinished = true) ∧
      (m.readerDone = true → ∀ {v : Worker}, d.workers[j + 1]? = some v → v.isFinished = true) := by
  have hj : j < c.links.length := hworked.length ▸ (List.getElem?_eq_some_iff.1 hm).1
  have hl : c.links[j]? = some c.links[j] := List.getElem?_eq_getElem hj
  obtain ⟨hwriter, hreader⟩ := hworked.ended hl hm
  have hkept : ∀ {k : Nat} {v : Worker}, (∀ {u : Worker}, c.workers[k]? = some u → u.isFinished = true) →
      d.workers[k]? = some v → v.isFinished = true := by
    intro k v hfinished hv
    by_cases hk : k = i
    · subst hk
      simp [hfinished hw] at hrun
    · exact hfinished (others_worked hworked hk ▸ hv)
  refine ⟨fun hdone v hv => ?_, fun hdone v hv => ?_⟩
  · rcases hwriter hdone with hbefore | ⟨rfl, hfinished⟩
    · exact hkept (fun hu => (h.ended hl).1 hbefore hu) hv
    · cases (self_worked hw hworked).symm.trans hv
      exact hfinished
  · rcases hreader hdone with hbefore | ⟨rfl, hfinished⟩
    · exact hkept (fun hu => (h.ended hl).2 hbefore hu) hv
    · cases (self_worked hw hworked).symm.trans hv
      exact hfinished

omit hw in
/-- No stage touches what has been done for the file of another. -/
theorem spares_worked {j : Nat} (hj : j ≠ i) : World.Spares s.world (p.use j) c.world d.world where
  paths := hworked.paths
  keeps place hneeds := hworked.keeps place (fun hown => hj (h.apart.stages hown hneeds).symm)
    fun _ => h.sink ▸ h.apart.output hneeds
  covers := hworked.covers
  folders place hplace hfolder := (hworked.folders place hfolder).resolve_right
    fun hmade => hj (h.apart.stages hplace (.inr hmade))

/-- No step of any stage changes what comes of the stages altogether. -/
theorem onTrack_worked (hrun : w.isFinished = false) :
    OnTrack s p d (Function.update phase i phase') (Function.update g i g')
      (Function.update stored i (stored i ++ y.stored))
      (if i = c.links.length then text ++ y.out else text) where
  length := by rw [hworked.workers, List.length_set, h.length, hworked.length]
  stands {j v} hv := by
    by_cases hj : j = i
    · subst hj
      cases (self_worked hw hworked).symm.trans hv
      rw [Function.update_self, Function.update_self]
      exact hworked.stands
    · rw [Function.update_of_ne hj, Function.update_of_ne hj]
      exact h.stands (others_worked hworked hj ▸ hv)
  unwritten {j v} hv hlast := by
    by_cases hj : j = i
    · subst hj
      cases (self_worked hw hworked).symm.trans hv
      exact hworked.unwritten ((links_worked hworked).1 hlast)
    · exact h.unwritten (others_worked hworked hj ▸ hv) ((links_worked hworked).1 hlast)
  filing j hlast := by
    by_cases hj : j = i
    · subst hj
      rw [Function.update_self, Function.update_self]
      exact hworked.filing
    · rw [Function.update_of_ne hj, Function.update_of_ne hj]
      exact (h.filing j (hworked.length ▸ hlast)).keep h.paths (spares_worked h hworked hj)
  stored j hj := stored_worked h hw hworked (hworked.length ▸ hj)
  written := by
    rw [hworked.length]
    exact written_worked h hw hworked
  delivered {v} hv := by
    rw [hworked.length] at hv ⊢
    exact delivered_worked h hw hworked hv
  ended hm := ended_worked h hw hworked hrun hm
  innerBreak {j} hj := by
    refine h.innerBreak ?_
    simpa [hworked.length] using hj
  lastBreak := by
    rw [hworked.output.lineTermination, hworked.length]
    exact h.lastBreak
  sink := hworked.output.sink.trans h.sink
  apart := h.apart
  paths := h.paths.trans hworked.paths
  cancelled := hworked.cancelled.trans h.cancelled
  failures := hworked.failures.trans h.failures
  input := hworked.input

end Step

theorem onTrack_step (h : OnTrack s p c phase g stored text) (hstep : c.step i = some d) :
    ∃ phase g stored text, OnTrack s p d phase g stored text := by
  obtain ⟨w, -, hw, hrun, -⟩ := advanced_of_step hstep
  obtain ⟨w', phase', g', y, hworked⟩ := worked_of_step (before_of_onTrack h hw hrun) hstep
  exact ⟨_, _, _, _, onTrack_worked h hw hworked hrun⟩

theorem onTrack_follow {schedule : List Nat} (h : OnTrack s p c phase g stored text)
    (hrun : c.follow schedule = some d) : ∃ phase g stored text, OnTrack s p d phase g stored text := by
  induction schedule generalizing c phase g stored text with
  | nil =>
      cases hrun
      exact ⟨_, _, _, _, h⟩
  | cons i schedule ih =>
      obtain ⟨e, hstep, hrest⟩ := follow_cons hrun
      obtain ⟨_, _, _, _, he⟩ := onTrack_step h hstep
      exact ih he hrest

theorem stage_of_finished (h : OnTrack s p c phase g stored text) (hfinished : c.isFinished = true)
    (hi : i ≤ c.links.length) :
    ∃ w, c.workers[i]? = some w ∧ w.isFinished = true ∧ phase i = .closed ∧ ∀ x, g i x = {} := by
  have hlength := h.length
  have hw : c.workers[i]? = some c.workers[i] := List.getElem?_eq_getElem (by omega)
  have hdone : c.workers[i].isFinished = true := List.all_eq_true.1 hfinished _ (List.getElem_mem _)
  exact ⟨_, hw, hdone, yield_of_finished (h.stands hw) hdone⟩

/-- When all stages have finished, all that was to come of them has come. -/
theorem received_of_finished (h : OnTrack s p c phase g stored text) (hfinished : c.isFinished = true) :
    ChainOutput.Received s.shown s.place s.node c.ends.output c.world
      (Text.endLine (p.lineBreak c.links.length) (p.total c.links.length).out) := by
  obtain ⟨w, hw, hdone, -, hnone⟩ := stage_of_finished h hfinished (Nat.le_refl _)
  have hdelivered := h.delivered hw
  have hwritten := h.written
  rw [hnone, List.append_nil] at hwritten
  rwa [if_pos hdone, hwritten] at hdelivered

theorem filing_of_finished (h : OnTrack s p c phase g stored text) (hfinished : c.isFinished = true)
    (hi : i ≤ c.links.length) :
    s.world.Filing c.world (p.use i) .closed (p.total i).stored := by
  obtain ⟨w, hw, hdone, hclosed, hnone⟩ := stage_of_finished h hfinished hi
  have hfiling := h.filing i hi
  have hstored := h.stored i hi
  rw [hnone, List.append_nil] at hstored
  rwa [hclosed, hstored] at hfiling

end Chain

end CommandShell
