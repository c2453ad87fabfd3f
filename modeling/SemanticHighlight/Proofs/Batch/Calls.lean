import SemanticHighlight.Proofs.Batch.Results

/-!
# Which tasks call the backend

`Called` is kept by every step: a task calls the backend at most once, only for a pair with
a text, and never again once it has started. As long as the batch is neither cancelled nor
given up, every task that has started has made its call.
-/

namespace SemanticHighlight.Batch

variable {b b' : Batch} {e : Event}

/-- What is known of the calls of a batch. -/
structure Called (b : Batch) : Prop where
  nodup : b.calls.Nodup
  /-- A task that has called is not about to start. -/
  spent : ∀ slot ∈ b.calls, slot ∉ b.queued ∧ b.stage.slot? ≠ some slot
  hasText : ∀ slot ∈ b.calls,
    slot < b.slots.length ∧ ∃ p, b.pairs[slot]? = some p ∧ p.context ≠ none
  /-- A task that has started has called, and so has one whose result is there. -/
  every : b.cancelled = false → b.abandoned = false → ∀ slot p, b.pairs[slot]? = some p →
    p.context ≠ none → (slot ∈ b.started ∨ ∃ r, b.slots[slot]? = some (some r)) →
    slot ∈ b.calls

/-- At the beginning no call has been made. -/
theorem begin_called (hits : List HitData) (configs : List FieldConfig) (cancelled : Bool) :
    (begin hits configs cancelled).Called := by
  refine ⟨List.nodup_nil, fun _ h => absurd h List.not_mem_nil,
    fun _ h => absurd h List.not_mem_nil, fun _ _ slot p _ _ h => ?_⟩
  rcases h with h | ⟨r, h⟩
  · exact absurd h List.not_mem_nil
  · exact absurd h (by simp [begin])

/-- Going on to a stage that submits nothing makes no call. -/
theorem Called.goOn (h : b.Called) {stage : Stage} (hs : stage.slot? = none)
    (pending : Nat) (expired : Bool) {abandoned : Bool}
    (ha : abandoned = false → b.abandoned = false) :
    Called { b with stage, pending, expired, abandoned } := by
  refine ⟨h.nodup, fun slot hm => ⟨(h.spent slot hm).1, ?_⟩, h.hasText,
    fun hc ha' => h.every hc (ha ha')⟩
  rw [hs]
  simp

/-- Making a slot makes no call. -/
theorem Called.visited (h : b.Called) {p : Pair} (hp : b.pairs[b.slots.length]? = some p)
    {made : Option FieldResult} (hmade : p.context ≠ none → made = none) {stage : Stage}
    (hs : stage.slot? = none ∨ stage.slot? = some b.slots.length) :
    Called { b with slots := b.slots ++ [made], stage } := by
  refine ⟨h.nodup, fun slot hm => ⟨(h.spent slot hm).1, ?_⟩, fun slot hm => ?_, ?_⟩
  · -- the slots with calls are visited ones, and the new slot is none of them
    have hlt := (h.hasText slot hm).1
    rcases hs with hs | hs
    · rw [hs]
      simp
    · rw [hs]
      intro heq
      exact absurd (Option.some.inj heq) (by omega)
  · obtain ⟨hlt, htext⟩ := h.hasText slot hm
    refine ⟨?_, htext⟩
    show slot < (b.slots ++ [made]).length
    rw [List.length_append]
    omega
  · intro hc ha slot p' hp' htext hfrom
    rcases hfrom with hfrom | ⟨r, hfrom⟩
    · exact h.every hc ha slot p' hp' htext (.inl hfrom)
    · rcases slot_of_concat hfrom with hfrom | ⟨heq, hr⟩
      · exact h.every hc ha slot p' hp' htext (.inr ⟨r, hfrom⟩)
      · -- the new slot is filled only if its pair has no text
        have hpp : p' = p := by
          rw [heq] at hp'
          exact Option.some.inj (hp'.symm.trans hp)
        rw [hmade (hpp ▸ htext)] at hr
        exact absurd hr (by simp)

/-- The tasks of the results that arrive have started. -/
theorem started_of_messages {slot : Nat} {result : FieldResult}
    {rest : List (Nat × FieldResult)} (hm : b.messages = (slot, result) :: rest) :
    slot ∈ b.started ∧ ∀ s ∈ started { b with messages := rest }, s ∈ b.started := by
  unfold started
  rw [hm]
  refine ⟨by simp, fun s hs => ?_⟩
  simp only [List.map_cons, List.mem_append, List.mem_cons] at hs ⊢
  rcases hs with hs | hs | hs | hs
  · exact .inl hs
  · exact .inr (.inl hs)
  · exact .inr (.inr (.inl (.inr hs)))
  · exact .inr (.inr (.inr hs))

/-- A result that fills its slot makes no call. -/
theorem Called.taken (h : b.Called) {slot : Nat} {result : FieldResult}
    {rest : List (Nat × FieldResult)} (hm : b.messages = (slot, result) :: rest)
    {stage : Stage} (hs : stage.slot? = none) (pending : Nat) :
    Called { b with
      messages := rest, stage, pending, slots := b.slots.set slot (some result) } := by
  refine ⟨h.nodup, fun s hcall => ⟨(h.spent s hcall).1, by rw [hs]; simp⟩,
    fun s hcall => ?_, ?_⟩
  · obtain ⟨hlt, htext⟩ := h.hasText s hcall
    refine ⟨?_, htext⟩
    show s < (b.slots.set slot (some result)).length
    rw [List.length_set]
    exact hlt
  · -- a result in its slot stands for its task as the message did
    intro hc ha s p hp htext hfrom
    obtain ⟨hslot, hrest⟩ := started_of_messages hm
    rcases hfrom with hfrom | ⟨r, hfrom⟩
    · exact h.every hc ha s p hp htext (.inl (hrest s hfrom))
    · rcases Rows.getElem?_of_set hfrom with ⟨-, hfrom⟩ | ⟨heq, -⟩
      · exact h.every hc ha s p hp htext (.inr ⟨r, hfrom⟩)
      · rw [heq] at hp ⊢
        exact h.every hc ha slot p hp htext (.inl hslot)

/-- A task that does not call the backend makes no call, whatever becomes of it. -/
theorem Called.moved (h : b.Called) (hpairs : b'.pairs = b.pairs) (hslots : b'.slots = b.slots)
    (hstage : b'.stage = b.stage) (hcalls : b'.calls = b.calls)
    (hqueued : ∀ slot ∈ b'.queued, slot ∈ b.queued)
    (hevery : b'.cancelled = false → b'.abandoned = false →
      b.cancelled = false ∧ b.abandoned = false ∧ ∀ slot ∈ b'.started, slot ∈ b.started) :
    b'.Called := by
  refine ⟨by rw [hcalls]; exact h.nodup, fun slot hm => ?_, fun slot hm => ?_, ?_⟩
  · rw [hcalls] at hm
    obtain ⟨hnot, hstage'⟩ := h.spent slot hm
    refine ⟨fun hq => hnot (hqueued slot hq), ?_⟩
    rw [hstage]
    exact hstage'
  · rw [hcalls] at hm
    rw [hslots, hpairs]
    exact h.hasText slot hm
  · -- every task that had to be called still has to
    intro hc ha slot p hp htext hfrom
    obtain ⟨hc, ha, hstarted⟩ := hevery hc ha
    rw [hcalls]
    rw [hpairs] at hp
    rw [hslots] at hfrom
    refine h.every hc ha slot p hp htext ?_
    rcases hfrom with hfrom | hfrom
    · exact .inl (hstarted slot hfrom)
    · exact .inr hfrom

/-- The task that a worker starts calls the backend for the first time. -/
theorem Called.started (h : b.Called) (ht : b.Tracked) {slot : Nat} (hq : slot ∈ b.queued) :
    Called { b with
      queued := b.queued.erase slot
      calling := b.calling ++ [slot], calls := b.calls ++ [slot] } := by
  have hout : slot ∈ b.outstanding := List.mem_append_left _ hq
  have hqueued : b.queued.Nodup := (List.nodup_append.1 ht.outstanding.nodup).1
  refine ⟨?_, fun s hm => ?_, fun s hm => ?_, ?_⟩
  · refine List.nodup_append.2 ⟨h.nodup, by simp, fun s hs s' hs' heq => ?_⟩
    rw [heq, List.mem_singleton.1 hs'] at hs
    exact (h.spent slot hs).1 hq
  · rcases List.mem_append.1 hm with hm | hm
    · exact ⟨fun hs => (h.spent s hm).1 (List.mem_of_mem_erase hs), (h.spent s hm).2⟩
    · rw [List.mem_singleton.1 hm]
      refine ⟨fun hs => (hqueued.mem_erase_iff.1 hs).1 rfl, fun hs => ?_⟩
      -- a slot about to be submitted is claimed beside the outstanding ones
      have hclaimed := ht.awaiting.nodup
      unfold claimed at hclaimed
      have hs' : b.stage.slot? = some slot := hs
      rw [hs'] at hclaimed
      exact (List.nodup_cons.1 hclaimed).1 hout
  · rcases List.mem_append.1 hm with hm | hm
    · exact h.hasText s hm
    · rw [List.mem_singleton.1 hm]
      exact ⟨ht.outstanding.lt hout, ht.outstanding.hasText slot hout⟩
  · intro hc ha s p hp htext hfrom
    rcases hfrom with hfrom | hfrom
    · simp only [Batch.started, List.mem_append, List.mem_singleton] at hfrom
      rcases hfrom with (hfrom | hfrom) | hfrom
      · refine List.mem_append_left _ (h.every hc ha s p hp htext (.inl ?_))
        exact List.mem_append_left _ hfrom
      · exact List.mem_append_right _ (List.mem_singleton.2 hfrom)
      · refine List.mem_append_left _ (h.every hc ha s p hp htext (.inl ?_))
        exact List.mem_append_right _ (List.mem_append.2 (hfrom.imp_right List.mem_append.2))
    · exact List.mem_append_left _ (h.every hc ha s p hp htext (.inr hfrom))

/-- Tasks that move on have started before. -/
theorem started_of_reply {slot : Nat} (hq : slot ∈ b.calling) (result : FieldResult) :
    ∀ s ∈ started { b with
      calling := b.calling.erase slot
      reporting := b.reporting ++ [(slot, result)] }, s ∈ b.started := by
  intro s hs
  have hperm := perm_move (b.reporting.map (·.1)) (b.messages.map (·.1) ++ b.lost)
    (List.perm_cons_erase hq)
  refine hperm.mem_iff.1 ?_
  simpa [Batch.started] using hs

/-- A task that breaks off counts as started still. -/
theorem started_of_lose {slot : Nat} (hq : slot ∈ b.calling) :
    ∀ s ∈ started { b with
      calling := b.calling.erase slot, lost := b.lost ++ [slot] }, s ∈ b.started := by
  intro s hs
  have hperm := perm_move (b.reporting.map (·.1) ++ (b.messages.map (·.1) ++ b.lost)) []
    (List.perm_cons_erase hq)
  rw [List.append_nil] at hperm
  refine hperm.mem_iff.1 ?_
  simpa [Batch.started] using hs

/-- A task that reports counts as started until its message is taken. Its slot moves from one part
of `started` to the next. -/
theorem started_of_report {slot : Nat} {result : FieldResult}
    (hq : (slot, result) ∈ b.reporting) :
    ∀ s ∈ started { b with
      reporting := b.reporting.erase (slot, result)
      messages := b.messages ++ [(slot, result)] }, s ∈ b.started := by
  intro s hs
  unfold Batch.started at hs ⊢
  rw [List.mem_append] at hs ⊢
  refine hs.imp_right fun hs => ?_
  simp only [List.map_append, List.map_cons, List.map_nil, List.mem_append,
    List.mem_singleton] at hs ⊢
  -- it was a report before it was a message, and counts as started either way
  rcases hs with hs | (hs | hs) | hs
  · obtain ⟨message, hmem, heq⟩ := List.mem_map.1 hs
    exact .inl (List.mem_map.2 ⟨message, List.mem_of_mem_erase hmem, heq⟩)
  · exact .inr (.inl hs)
  · rw [hs]
    exact .inl (List.mem_map.2 ⟨_, hq, rfl⟩)
  · exact .inr (.inr hs)

/-- Every step keeps what is known of the calls. -/
theorem step_called (ht : b.Tracked) (h : b.Called) (hstep : Step b e b') : b'.Called := by
  cases hstep with
  | visitEnd hs | refuse _ _ hs | lookEnd hs | lookOn hs | idle hs | disconnect hs | settle hs =>
    exact h.goOn rfl b.pending b.expired id
  | late _ _ hs | expire hs => exact h.goOn rfl b.pending true id
  | fail _ hs => exact h.goOn rfl b.pending b.expired (fun ha => absurd ha (by simp))
  | conclude waitedMs elapsedNs hs =>
    refine h.goOn rfl b.pending b.expired (fun ha => ?_)
    exact (Bool.or_eq_false_iff.1 ha).1
  | visitSkip p hs hp hc =>
    exact h.visited hp (fun htext => absurd hc htext) (.inl (by rw [hs]; rfl))
  | visitPass p hs hp hc =>
    exact h.visited hp (fun _ => rfl) (.inl (by rw [hs]; rfl))
  | visitOpen p hs hp hc => exact h.visited hp (fun _ => rfl) (.inr rfl)
  | accept slot hs =>
    refine ⟨h.nodup, fun s hm => ⟨?_, by simp [Stage.slot?]⟩, h.hasText, h.every⟩
    obtain ⟨hnot, hstage⟩ := h.spent s hm
    intro hq
    rcases List.mem_append.1 hq with hq | hq
    · exact hnot hq
    · rw [hs, List.mem_singleton.1 hq] at hstage
      exact hstage rfl
  | receive slot result rest hs hm hl => exact h.taken hm rfl (b.pending - 1)
  | receiveStray slot result rest hs hm hl =>
    exact absurd (ht.lt_of_messages hm) hl
  | drain slot result rest hs hm => exact h.taken hm (by rw [hs]; rfl) b.pending
  | startCancelled slot durationMs p hp hq hc =>
    -- a task that does not call starts only in a batch that is cancelled or given up
    refine h.moved rfl rfl rfl rfl (fun s hs => List.mem_of_mem_erase hs) (fun hc' => ?_)
    exact absurd (hc.symm.trans hc') (by simp)
  | startAbandoned slot durationMs p hp hq hc ha =>
    refine h.moved rfl rfl rfl rfl (fun s hs => List.mem_of_mem_erase hs) (fun _ ha' => ?_)
    exact absurd (ha.symm.trans ha') (by simp)
  | startCall slot durationMs p hp hq => exact h.started ht hq
  | reply slot p reply durationMs hp hq =>
    exact h.moved rfl rfl rfl rfl (fun s hs => hs)
      (fun hc ha => ⟨hc, ha, started_of_reply hq _⟩)
  | lose slot hq =>
    exact h.moved rfl rfl rfl rfl (fun s hs => hs)
      (fun hc ha => ⟨hc, ha, started_of_lose hq⟩)
  | report slot result hf =>
    exact h.moved rfl rfl rfl rfl (fun s hs => hs)
      (fun hc ha => ⟨hc, ha, started_of_report (List.mem_of_find?_eq_some hf)⟩)
  | cancel =>
    exact h.moved rfl rfl rfl rfl (fun s hs => hs) (fun hc => absurd hc (by simp))

/-- So it holds in every reachable state. -/
theorem run_called {hits : List HitData} {configs : List FieldConfig} {cancelled : Bool}
    {events : List Event} (hrun : (begin hits configs cancelled).run? events = some b) :
    b.Called :=
  run_induction (I := fun _ b => b.Called) (begin_called hits configs cancelled)
    (fun _ _ _ _ hrun h hstep => step_called (run_invariant hrun).tracked h hstep) events b hrun

end SemanticHighlight.Batch
