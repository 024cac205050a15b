import CommandShell.Proofs.Link.Shared

/-!
Links that are ended.  Main statement: as long as nothing is written to a link whose writing end is closed, a
link that is ended stays so, a read that waits gives nothing, and one that does not wait gives at most what was
queued when the link was cancelled.
-/

namespace CommandShell

namespace Link

variable {l : Link} {cancelled : Bool}

theorem isEnded_iff : l.isEnded cancelled = true ↔ cancelled = true ∨ l.writerDone = true ∧ l.queue.toList = [] := by
  simp [isEnded]

theorem tryRead_fst (l : Link) : l.tryRead.1 = l.queue.toList.head? := by
  rcases htry : l.tryRead with ⟨c, m⟩
  cases c with
  | none => simp [(tryRead_eq_none htry).2]
  | some c =>
      obtain ⟨q, -, hq⟩ := tryRead_eq_some htry
      simp [hq]

theorem tryRead_of_empty (h : l.queue.toList = []) : l.tryRead = (none, l) := by
  rw [tryRead, Queue.pop?_eq_none_iff.2 h]

theorem readChar_of_isEnded (h : l.isEnded cancelled = true) : l.readChar cancelled = .ended l := by
  rw [readChar]
  split
  · rfl
  · next hlive =>
      obtain ⟨hdone, hempty⟩ := (isEnded_iff.1 h).resolve_left hlive
      rw [tryRead_of_empty hempty]
      simp [hdone]

/-- A read from an ended link has its answer at once. -/
theorem read_of_isEnded (h : l.isEnded cancelled = true) (extent : Extent) :
    l.read cancelled extent = some (if extent = .all then some "" else none, l) := by
  cases extent <;> simp [read, Reading.run, Reading.step, Reading.start, Reading.isEager, Reading.feed,
    readChar_of_isEnded h]

end Link

namespace SharedLink

variable {s t : SharedLink}

/-- Once a link has been ended, and unless something is written late to a link that is neither cancelled nor
closed by its reader: it stays ended, each read that waits for a character gives nothing, and the characters
that can be taken without waiting are the last ones that were in the queue then, so there are none if the link
was not cancelled or its queue was empty. -/
theorem ended_of_later (h : Later s t) (hended : s.link.isEnded s.cancelled = true)
    (hlate : s.cancelled = false → s.link.readerDone = false → t.entered = s.entered) :
    t.link.isEnded t.cancelled = true ∧ t.link.readChar t.cancelled = .ended t.link ∧
      (∀ extent, extent ≠ .all → t.link.read t.cancelled extent = some (none, t.link)) ∧
      t.link.read t.cancelled .all = some (some "", t.link) ∧
      t.link.queue.toList <:+ s.link.queue.toList ∧ t.link.tryRead.1 = t.link.queue.toList.head? ∧
      (s.cancelled = false ∨ s.link.queue.toList = [] → t.link.tryRead = (none, t.link)) := by
  have ho := onward_of_later h
  have hentered : t.entered = s.entered := by
    by_cases hrefusing : s.cancelled = true ∨ s.link.readerDone = true
    · exact ho.refusing hrefusing
    · rw [not_or, Bool.not_eq_true, Bool.not_eq_true] at hrefusing
      exact hlate hrefusing.1 hrefusing.2
  have hsuffix := ho.queue hentered
  have hended' : t.link.isEnded t.cancelled = true := by
    rw [Link.isEnded_iff] at hended ⊢
    refine hended.imp ho.cancelled ?_
    rintro ⟨hdone, hempty⟩
    exact ⟨ho.later.writerDone hdone, List.suffix_nil.1 (hempty ▸ hsuffix)⟩
  refine ⟨hended', Link.readChar_of_isEnded hended', ?_, Link.read_of_isEnded hended' .all, hsuffix,
    t.link.tryRead_fst, ?_⟩
  · intro extent hne
    rw [Link.read_of_isEnded hended', if_neg hne]
  · intro hnone
    have hempty : s.link.queue.toList = [] := by
      refine hnone.elim (fun hlive => ?_) id
      exact ((Link.isEnded_iff.1 hended).resolve_left (by simp [hlive])).2
    exact Link.tryRead_of_empty (List.suffix_nil.1 (hempty ▸ hsuffix))

/-- A link that is cancelled with two characters in its queue, before and after one of them has been taken. -/
theorem ended_of_later_of_cancelled :
    let s : SharedLink := ⟨((Link.new 4).write false ['a', 'b']).1, true, [⟨['a', 'b'], [], false⟩],
      [(0, 'a'), (0, 'b')]⟩
    let t : SharedLink := { s with link := s.link.tryRead.2 }
    Later s t ∧ s.link.isEnded s.cancelled = true ∧ t.link.isEnded t.cancelled = true ∧
      t.link.read t.cancelled .line = some (none, t.link) ∧ t.link.tryRead.1 = ['b'].head? ∧
      ['b'] <:+ s.link.queue.toList := by
  intro s t
  have h : Later s t := .single (.tryRead s)
  have hended : s.link.isEnded s.cancelled = true := rfl
  obtain ⟨hended', -, hread, -, hsuffix, htry, -⟩ := ended_of_later h hended nofun
  exact ⟨h, hended, hended', hread .line nofun, htry, hsuffix⟩

/-- Neither condition can be left out: a link that is cancelled with text in its queue is ended, and its first
character can still be taken; and a link whose writing end is closed is ended, and is so no longer when a text
is written to it, which its reader gets. -/
theorem ended_not_final :
    let full : SharedLink := ⟨((Link.new 4).write false ['a', 'b']).1, true, [⟨['a', 'b'], [], false⟩],
      [(0, 'a'), (0, 'b')]⟩
    let closed : SharedLink := { link := (Link.new 4).endWriting }
    let late : SharedLink := ⟨((Link.new 4).endWriting.write false ['c']).1, false, [⟨['c'], [], false⟩], [(0, 'c')]⟩
    (Reach 4 full ∧ full.link.isEnded full.cancelled = true ∧ full.link.tryRead.1 = some 'a') ∧
      Reach 4 closed ∧ closed.link.isEnded closed.cancelled = true ∧ Later closed late ∧
      late.link.isEnded late.cancelled = false ∧
      late.link.read late.cancelled .chunk = some (some "c", closed.link) := by
  intro full closed late
  have hcall : Reach 4 _ := .single (.call (fresh 4) (.write "ab"))
  have hfirst := hcall.tail (.push _ 0 ['a', 'b'] ['b'] 'a' _ rfl rfl)
  have hsecond := hfirst.tail (.push _ 0 ['a', 'b'] [] 'b' _ rfl rfl)
  have hfull : Reach 4 full := hsecond.tail (.cancel _)
  have hclosed : Reach 4 closed := .single (.endWriting (fresh 4))
  have hlate : Later closed _ := .single (.call closed (.write "c"))
  have hlate : Later closed late := hlate.tail (.push _ 0 ['c'] [] 'c' _ rfl rfl)
  exact ⟨⟨hfull, rfl, rfl⟩, hclosed, rfl, hlate, rfl, rfl⟩

end SharedLink

end CommandShell
