import CommandShell.Builtin.Copying
import CommandShell.Proofs.Chain.Step
import Mathlib.Logic.Relation
import Mathlib.Tactic.ByContra

/-!
A chain never deadlocks.  Main statement: in whatever order the stages take their steps, and
whatever happens around them, as long as a stage is unfinished some unfinished stage waits for no
link; and once the pipeline is cancelled none does.
-/

namespace CommandShell

theorem Body.steady_answering {request : Request (Option Ending)} (h : request.pauses = false) :
    (answering request).Steady := by
  intro s
  match s with
  | none => exact h
  | some ⟨[], result⟩ => rfl
  | some ⟨action :: rest, result⟩ => rfl

theorem Builtin.steady_copying : copying.Steady := by
  intro s
  match s with
  | .read | .write text | .done => rfl

namespace Chain

/-- A chain before its first step: links of any capacity between stages that are at their start. -/
structure Fresh (c : Chain) : Prop where
  length : c.workers.length = c.links.length + 1
  links : ∀ l ∈ c.links, ∃ capacity, l = .new capacity
  workers : ∀ w ∈ c.workers, w.control = .ready w.body.start ∧ w.wake = 0

/-- A stage takes a step, time passes, or the world around changes: keys are typed, files are
written by others, the pipeline is cancelled. -/
inductive Change : Chain → Chain → Prop
  | step {c d : Chain} (i : Nat) (h : c.step i = some d) : Change c d
  | tick {c d : Chain} (h : c.tick = some d) : Change c d
  | outside (c : Chain) (w : World) : Change c (c.withWorld w)

theorem reach_of_follow {c d : Chain} {schedule : List Nat} (h : c.follow schedule = some d) :
    Relation.ReflTransGen Change c d := by
  induction schedule generalizing c with
  | nil =>
      cases h
      exact .refl
  | cons i schedule ih =>
      obtain ⟨e, hstep, hrest⟩ := follow_cons h
      exact .head (.step i hstep) (ih hrest)

/-- The stage has a character to write and its link is full. -/
def WaitsToWrite (c : Chain) (i : Nat) : Prop :=
  ∃ w x rest next l, c.workers[i]? = some w ∧ w.control = .writing (x :: rest) next ∧
    c.links[i]? = some l ∧ l.capacity ≤ l.queue.size ∧ l.readerDone = false ∧ c.isCancelled = false

/-- The stage needs a character to read on and its link is empty. -/
def WaitsToRead (c : Chain) (i : Nat) : Prop :=
  ∃ w r next l, c.workers[i]? = some w ∧ w.control = .reading r next ∧ r.isEager = false ∧
    c.linkBefore? i = some l ∧ l.queue.toList = [] ∧ l.writerDone = false ∧ c.isCancelled = false

def WaitsForLink (c : Chain) (i : Nat) : Prop := c.WaitsToWrite i ∨ c.WaitsToRead i

variable {a c d : Chain} {i : Nat} {w : Worker}

/-- A stage that cannot take a step is finished, waits for time to pass, or waits for a link. -/
theorem waits_of_step_eq_none (hw : c.workers[i]? = some w) (hrun : w.isFinished = false)
    (h : c.step i = none) :
    (c.now < w.wake ∧ c.isCancelled = false) ∨ c.WaitsForLink i := by
  rw [step] at h
  simp only [hw] at h
  split at h
  · next hpaused => exact .inl (by simpa using hpaused)
  · right
    split at h
    · next hcontrol => simp [Worker.isFinished, hcontrol] at hrun
    · cases h
    · cases h
    · next x rest next hcontrol =>
        rw [pushChar] at h
        split at h
        · cases h
        · next l hl =>
            split at h <;> cases h
            next hpush =>
              obtain ⟨hcancelled, hreader, hfull⟩ := Link.push_eq_blocked_iff.1 hpush
              exact .inl ⟨w, x, rest, next, l, hw, hcontrol, hl, hfull, hreader, hcancelled⟩
    · next r next hcontrol =>
        rw [readOn] at h
        rcases hstep : r.step (tryRead i) (readChar i) c with ⟨next?, e⟩
        obtain ⟨fed, hfed, hnext⟩ := Reading.fed_of_step hstep
        rw [hstep] at h
        split at h
        · cases h
        · cases h
        · next heq =>
            cases heq
            cases hfed with
            | tried | got | ended => cases hnext
            | blocked t hwait hblocked =>
                rw [readChar] at hblocked
                split at hblocked
                · next hbefore =>
                    split at hblocked <;> cases hblocked
                    rw [if_neg (by change ¬(c.linkBefore? i).isSome = true; simp [hbefore])] at h
                    cases h
                · next l hl =>
                    split at hblocked <;> cases hblocked
                    next hlink =>
                      obtain ⟨-, hcancelled, hempty, hwriter⟩ := Link.readChar_eq_blocked hlink
                      exact .inr ⟨w, r, next, l, hw, hcontrol, hwait, hl, hempty, hwriter, hcancelled⟩
    · cases h
    · cases h

/-- Stages are joined by links that can hold something, and a finished stage has ended the links
beside it. -/
structure Joined (c : Chain) : Prop where
  length : c.workers.length = c.links.length + 1
  capacity_pos : ∀ {i : Nat} {l : Link}, c.links[i]? = some l → 0 < l.capacity
  writerDone : ∀ {i : Nat} {w : Worker} {l : Link}, c.workers[i]? = some w → w.isFinished = true →
    c.links[i]? = some l → l.writerDone = true
  readerDone : ∀ {i : Nat} {w : Worker} {l : Link}, c.workers[i + 1]? = some w →
    w.isFinished = true → c.links[i]? = some l → l.readerDone = true

theorem joined_of_fresh (h : c.Fresh) : c.Joined := by
  have hready : ∀ {i : Nat} {w : Worker}, c.workers[i]? = some w → w.isFinished = false := by
    intro i w hw
    have hcontrol := (h.workers w (List.mem_of_getElem? hw)).1
    simp [Worker.isFinished, hcontrol]
  refine ⟨h.length, ?_, ?_, ?_⟩
  · intro i l hl
    obtain ⟨capacity, rfl⟩ := h.links l (List.mem_of_getElem? hl)
    exact Nat.lt_of_lt_of_le Nat.zero_lt_one (Nat.le_max_right _ _)
  · intro i w l hw hfinished
    simp [hready hw] at hfinished
  · intro i w l hw hfinished
    simp [hready hw] at hfinished

theorem Around.exists_before {j : Nat} {m : Link} (h : Around c d) (hm : d.links[j]? = some m) :
    ∃ l, c.links[j]? = some l ∧ l.Later m := by
  have hj := (List.getElem?_eq_some_iff.1 hm).1
  rw [h.length] at hj
  have hl := List.getElem?_eq_getElem hj
  exact ⟨_, hl, h.later hl hm⟩

theorem joined_step (hc : c.Joined) (h : c.step i = some d) : d.Joined := by
  obtain ⟨w, w', hw, -, hadv⟩ := advanced_of_step h
  refine ⟨?_, ?_, ?_, ?_⟩
  · rw [hadv.workers, List.length_set, hadv.around.length, hc.length]
  · intro j m hm
    obtain ⟨l, hl, hlater⟩ := hadv.around.exists_before hm
    rw [hlater.capacity]
    exact hc.capacity_pos hl
  · intro j v m hv hfinished hm
    obtain ⟨l, hl, hlater⟩ := hadv.around.exists_before hm
    rw [hadv.workers, List.getElem?_set] at hv
    split at hv
    · next hij =>
        subst hij
        split at hv <;> cases hv
        exact (hadv.ended hfinished hm).1 rfl
    · exact hlater.writerDone (hc.writerDone hv hfinished hl)
  · intro j v m hv hfinished hm
    obtain ⟨l, hl, hlater⟩ := hadv.around.exists_before hm
    rw [hadv.workers, List.getElem?_set] at hv
    split at hv
    · next hij =>
        subst hij
        split at hv <;> cases hv
        exact (hadv.ended hfinished hm).2 rfl
    · exact hlater.readerDone (hc.readerDone hv hfinished hl)

theorem joined_change (hc : c.Joined) (h : Change c d) : d.Joined := by
  cases h with
  | step i h => exact joined_step hc h
  | tick h =>
      obtain ⟨time, rfl⟩ := tick_eq h
      exact ⟨hc.length, hc.capacity_pos, hc.writerDone, hc.readerDone⟩
  | outside w => exact ⟨hc.length, hc.capacity_pos, hc.writerDone, hc.readerDone⟩

theorem joined_of_reach (ha : a.Fresh) (h : Relation.ReflTransGen Change a c) : c.Joined := by
  induction h with
  | refl => exact joined_of_fresh ha
  | tail _ hchange ih => exact joined_change ih hchange

/-- If all unfinished stages wait for links, none waits to write: the stage after it would wait to
write as well, and so on to the last stage, which writes to no link. -/
theorem not_waitsToWrite (hc : c.Joined)
    (hwait : ∀ i w, c.workers[i]? = some w → w.isFinished = false → c.WaitsForLink i) :
    ¬c.WaitsToWrite i := by
  intro h
  induction hn : c.links.length - i generalizing i with
  | zero =>
      obtain ⟨w, x, rest, next, l, -, -, hl, -⟩ := h
      have hi := (List.getElem?_eq_some_iff.1 hl).1
      omega
  | succ n ih =>
      obtain ⟨w, x, rest, next, l, hw, -, hl, hfull, hreader, -⟩ := h
      have hi := (List.getElem?_eq_some_iff.1 hl).1
      obtain ⟨v, hv⟩ : ∃ v, c.workers[i + 1]? = some v :=
        ⟨_, List.getElem?_eq_getElem (by rw [hc.length]; omega)⟩
      have hrun : v.isFinished = false := by
        by_contra hfinished
        have hdone := hc.readerDone hv (by simpa using hfinished) hl
        simp [hreader] at hdone
      rcases hwait (i + 1) v hv hrun with hwrite | ⟨_, _, _, k, -, -, -, hk, hempty, -⟩
      · exact ih hwrite (by omega)
      · -- the link between the two would have to be full and empty
        have hkl : k = l := Option.some.inj (hk.symm.trans hl)
        subst hkl
        have hpos := hc.capacity_pos hl
        rw [Queue.size_eq_length, hempty] at hfull
        simp at hfull
        omega

/-- If all unfinished stages wait for links, none waits to read: the stage before it would wait to
read as well, and so on to the first stage, which reads from no link. -/
theorem not_waitsToRead (hc : c.Joined)
    (hwait : ∀ i w, c.workers[i]? = some w → w.isFinished = false → c.WaitsForLink i) :
    ¬c.WaitsToRead i := by
  intro h
  induction i with
  | zero =>
      obtain ⟨_, _, _, _, -, -, -, hl, -⟩ := h
      cases hl
  | succ i ih =>
      obtain ⟨w, r, next, l, hw, -, -, hl, -, hwriter, -⟩ := h
      have hi := (List.getElem?_eq_some_iff.1 hw).1
      have hv : c.workers[i]? = some c.workers[i] := List.getElem?_eq_getElem (by omega)
      have hrun : c.workers[i].isFinished = false := by
        by_contra hfinished
        have hdone := hc.writerDone hv (by simpa using hfinished) hl
        simp [hwriter] at hdone
      rcases hwait i _ hv hrun with hwrite | hread
      · exact not_waitsToWrite hc hwait hwrite
      · exact ih hread

theorem exists_not_waiting (hc : c.Joined) (hrun : c.isFinished = false) :
    ∃ i w, c.workers[i]? = some w ∧ w.isFinished = false ∧ ¬c.WaitsForLink i := by
  by_contra hnone
  have hwait : ∀ i w, c.workers[i]? = some w → w.isFinished = false → c.WaitsForLink i := by
    intro i w hw hrun
    by_contra hnot
    exact hnone ⟨i, w, hw, hrun, hnot⟩
  obtain ⟨w, hmem, hfinished⟩ : ∃ w ∈ c.workers, w.isFinished = false := by
    simpa [isFinished] using hrun
  obtain ⟨i, hw⟩ := List.getElem?_of_mem hmem
  rcases hwait i w hw hfinished with hwrite | hread
  · exact not_waitsToWrite hc hwait hwrite
  · exact not_waitsToRead hc hwait hread

/-- Time can pass as long as an unfinished stage waits for it. -/
theorem exists_tick (hw : c.workers[i]? = some w) (hrun : w.isFinished = false)
    (hwake : c.now < w.wake) : ∃ d, c.tick = some d := by
  have hmem : w.wake ∈ c.workers.filterMap fun w =>
      if !w.isFinished && c.now < w.wake then some w.wake else none := by
    rw [List.mem_filterMap]
    exact ⟨w, List.mem_of_getElem? hw, by simp [hrun, hwake]⟩
  obtain ⟨time, htime⟩ := Option.isSome_iff_exists.1 (List.isSome_min?_of_mem hmem)
  exact ⟨{ c with now := time }, by simp only [tick, htime, Option.map_some]⟩

/-- No stage waits for time to pass, now or later. -/
structure Steady (c : Chain) : Prop where
  input : c.ends.input ≠ .terminal
  workers : ∀ w ∈ c.workers, w.body.Steady ∧ w.Awake c.now

theorem steady_of_fresh (h : c.Fresh) (hinput : c.ends.input ≠ .terminal)
    (hbodies : ∀ w ∈ c.workers, w.body.Steady) : c.Steady := by
  refine ⟨hinput, ?_⟩
  intro w hw
  obtain ⟨hcontrol, hwake⟩ := h.workers w hw
  exact ⟨hbodies w hw, by simp [hwake], by simp [hcontrol, Control.isPaused]⟩

theorem steady_change (hc : c.Steady) (h : Change c d) : d.Steady := by
  cases h with
  | step i h =>
      obtain ⟨w, w', hw, -, hadv⟩ := advanced_of_step h
      refine ⟨hc.input ∘ hadv.around.terminal, ?_⟩
      intro v hv
      rw [hadv.workers] at hv
      rw [hadv.around.now]
      rcases List.mem_or_eq_of_mem_set hv with hv | rfl
      · exact hc.workers v hv
      · obtain ⟨hbody, hawake⟩ := hc.workers w (List.mem_of_getElem? hw)
        exact hadv.steady hc.input hbody hawake
  | tick h =>
      -- nobody waits, so there is nothing to let pass
      unfold tick at h
      have hnone : (c.workers.filterMap fun w =>
          if !w.isFinished && c.now < w.wake then some w.wake else none) = [] := by
        rw [List.filterMap_eq_nil_iff]
        intro w hw
        have hawake := (hc.workers w hw).2.1
        simp [Nat.not_lt.2 hawake]
      dsimp only at h
      rw [hnone] at h
      cases h
  | outside w => exact ⟨hc.input, hc.workers⟩

theorem steady_of_reach (ha : a.Steady) (h : Relation.ReflTransGen Change a c) : c.Steady := by
  induction h with
  | refl => exact ha
  | tail _ hchange ih => exact steady_change ih hchange

/-- Where no stage waits for time to pass, one that waits for no link can take a step. -/
theorem exists_step (hc : c.Joined) (hsteady : c.Steady) (hrun : c.isFinished = false) : ∃ i d, c.step i = some d := by
  obtain ⟨i, w, hw, hfinished, hnot⟩ := exists_not_waiting hc hrun
  have hawake := (hsteady.workers w (List.mem_of_getElem? hw)).2.1
  rcases hstep : c.step i with _ | d
  · rcases waits_of_step_eq_none hw hfinished hstep with ⟨hwake, -⟩ | hwait
    · omega
    · exact absurd hwait hnot
  · exact ⟨i, d, hstep⟩

/-- A stage that writes two characters and one that passes it on, over a link of the given capacity. -/
def writingPair (capacity : Nat) : Chain where
  ends :=
    { world := .detached (.fresh [] "") none {}
      token := 0
      typing := { keys := [[], []] }
      input := .null
      output := .new .null {} }
  links := [.new capacity]
  workers := [worker (.answering (.output (.write "ab") (some {}))), worker Builtin.copying]
where
  worker (body : Body) : Worker :=
    { context := {}, invocation := .failed (.parse .emptyLine), body, control := .ready body.start }

/-- No chain deadlocks.  As long as a stage is unfinished, some unfinished stage does not wait for a
link, and a stage can take a step or time can pass; where the first input is not typed and no body
waits for time to pass, a stage can take a step.  Once the pipeline is cancelled every unfinished
stage can. -/
theorem exists_step_of_not_finished (ha : a.Fresh) (h : Relation.ReflTransGen Change a c) :
    (c.isFinished = false →
      (∃ i w, c.workers[i]? = some w ∧ w.isFinished = false ∧ ¬c.WaitsForLink i) ∧
      ((∃ i d, c.step i = some d) ∨ ∃ d, c.tick = some d) ∧
      (a.ends.input ≠ .terminal → (∀ w ∈ a.workers, w.body.Steady) → ∃ i d, c.step i = some d)) ∧
    (c.isCancelled = true → ∀ i w, c.workers[i]? = some w → w.isFinished = false →
      ¬c.WaitsForLink i ∧ ∃ d, c.step i = some d) := by
  have hc := joined_of_reach ha h
  constructor
  · intro hrun
    obtain ⟨i, w, hw, hfinished, hnot⟩ := exists_not_waiting hc hrun
    refine ⟨⟨i, w, hw, hfinished, hnot⟩, ?_, ?_⟩
    · rcases hstep : c.step i with _ | d
      · rcases waits_of_step_eq_none hw hfinished hstep with ⟨hwake, -⟩ | hwait
        · exact .inr (exists_tick hw hfinished hwake)
        · exact absurd hwait hnot
      · exact .inl ⟨i, d, hstep⟩
    · intro hinput hbodies
      exact exists_step hc (steady_of_reach (steady_of_fresh ha hinput hbodies) h) hrun
  · intro hcancelled i w hw hrun
    have hnot : ¬c.WaitsForLink i := by
      rintro (⟨_, _, _, _, _, _, _, _, _, _, hlive⟩ | ⟨_, _, _, _, _, _, _, _, _, _, hlive⟩)
      · simp [hcancelled] at hlive
      · simp [hcancelled] at hlive
    refine ⟨hnot, ?_⟩
    rcases hstep : c.step i with _ | d
    · rcases waits_of_step_eq_none hw hrun hstep with ⟨-, hlive⟩ | hwait
      · simp [hcancelled] at hlive
      · exact absurd hwait hnot
    · exact ⟨d, rfl⟩

theorem exists_step_of_full_link :
    ∃ c d, Relation.ReflTransGen Change (writingPair 0) c ∧ c.step 0 = none ∧
      (∃ i e, c.step i = some e) ∧ Relation.ReflTransGen Change c d ∧ d.isCancelled = true ∧
      ∃ e, d.step 0 = some e := by
  have hfresh : (writingPair 0).Fresh := by
    refine ⟨rfl, ?_, ?_⟩
    · simp [writingPair]
    · simp [writingPair, writingPair.worker]
  have hsteady : ∀ w ∈ (writingPair 0).workers, w.body.Steady := by
    rintro w (_ | ⟨_, _ | ⟨_, ⟨⟩⟩⟩)
    · exact Body.steady_answering rfl
    · exact Builtin.steady_copying
  let tokens : CancelTree := ⟨[{ id := 0, cancelled := true }], 1⟩
  let cancelled : World := { World.detached (.fresh [] "") none {} with tokens }
  -- the second step writes one character, and the link holds no more
  obtain ⟨c, hc, hblocked, hrun, hcancelled, w, hw, hwrun⟩ : ∃ c,
      (writingPair 0).follow [0, 0] = some c ∧ c.step 0 = none ∧ c.isFinished = false ∧
        (c.withWorld cancelled).isCancelled = true ∧
        ∃ w, c.workers[0]? = some w ∧ w.isFinished = false :=
    ⟨_, rfl, rfl, rfl, rfl, _, rfl, rfl⟩
  have hfull := reach_of_follow hc
  have hcancel := hfull.tail (.outside c cancelled)
  refine ⟨c, c.withWorld cancelled, hfull, hblocked, ?_, .single (.outside c cancelled), hcancelled, ?_⟩
  · exact ((exists_step_of_not_finished hfresh hfull).1 hrun).2.2 nofun hsteady
  · exact ((exists_step_of_not_finished hfresh hcancel).2 hcancelled 0 w hw hwrun).2

end Chain

end CommandShell
