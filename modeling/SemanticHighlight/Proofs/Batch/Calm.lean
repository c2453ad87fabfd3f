import SemanticHighlight.Proofs.Batch.OneByOne

/-!
# Batches come to an end, and calm ones undisturbed

As long as a batch has not returned, somebody can go on, and has less to do then (`toDo`). So
every row of steps can be continued until the batch has returned (`run_finish`).

In a `Calm` row of steps no deadline comes, nothing is cancelled and no submission fails, and
the backend ends its calls as given. The steps that lead a batch to its end are calm, so a
calm row of steps can be continued as such (`Calm.finish`), and then the batch is
`Undisturbed`.
-/

namespace SemanticHighlight

/-- How much a caller has left to do when it is here. Submitting a task weighs more than the
visit that follows, by more than the task that it brings about. -/
def Stage.toDo : Stage → Nat
  | submitting _ => 11
  | visiting => 5
  | looking => 4
  | receiving => 3
  | draining => 2
  | concluding => 1
  | failing _ | returned _ => 0

namespace Batch

/-- Whether an event is neither a cancellation nor a deadline nor a failed submission. -/
def Event.IsCalm : Event → Prop
  | .cancel | .expire | .submit (.error _) => False
  | _ => True

instance : DecidablePred Event.IsCalm
  | .cancel | .expire | .submit (.error _) => .isFalse id
  | .visit | .submit (.ok _) | .fail | .look | .receive | .idle | .disconnect | .drain | .settle
  | .conclude _ _ | .start _ _ | .reply _ _ _ | .lose _ | .report _ => .isTrue trivial

/-- A bound of the calm steps that a batch can take. -/
def toDo (b : Batch) : Nat :=
  8 * (b.pairs.length - b.slots.length) + 5 * b.queued.length + 4 * b.calling.length
    + 3 * b.reporting.length + 2 * b.messages.length + b.stage.toDo

/-- A row of steps in which nothing goes wrong and the backend ends its calls as given. -/
structure Calm (hits : List HitData) (configs : List FieldConfig) (replies : Replies)
    (events : List Event) (b : Batch) : Prop where
  run : (begin hits configs false).run? events = some b
  calm : ∀ e ∈ events, e.IsCalm
  heeds : ∀ e ∈ events, e.Heeds replies (Pair.all hits configs)

/-- A batch that has seen nothing go wrong. -/
structure Sound (b : Batch) : Prop where
  inTime : b.expired = false
  goesOn : b.cancelled = false
  accepted : b.stage.isRefused = false

/-- At the beginning no slot has been visited. -/
theorem begin_sound (hits : List HitData) (configs : List FieldConfig) :
    (begin hits configs false).Sound := by
  refine ⟨rfl, rfl, ?_⟩
  unfold begin
  dsimp only
  split <;> rfl

variable {b b' : Batch} {e : Event} {events : List Event}

/-- A calm step keeps a batch sound. -/
theorem step_sound (h : b.Sound) (hcalm : e.IsCalm) (hstep : Step b e b') : b'.Sound := by
  cases hstep with
  | late | refuse | expire | cancel => exact hcalm.elim
  | fail reason hs =>
    -- a batch fails only once a submission has
    have hrefused := h.accepted
    rw [hs] at hrefused
    cases hrefused
  | visitEnd | visitOpen | accept | lookEnd | lookOn | receive | receiveStray | idle | disconnect
  | settle | conclude => exact ⟨h.inTime, h.goesOn, rfl⟩
  | visitSkip | visitPass | drain | startCancelled | startAbandoned | startCall | reply
  | lose | report => exact ⟨h.inTime, h.goesOn, h.accepted⟩

/-! ## Somebody can go on -/

/-- Whoever has a task of the batch can go on with it: the worker whose result is ready, else
the backend that is being called, else the worker that takes a task from the queue. -/
theorem exists_step_of_task (ht : b.Tracked) (ha : b.abandoned = false) (replies : Replies)
    (hq : b.isSilent = false) :
    ∃ e b', e.IsCalm ∧ e.Heeds replies b.pairs ∧ Step b e b' ∧ b'.toDo < b.toDo := by
  have htext := ht.outstanding.hasText
  -- a report is sent first, then a call ends, and then a task starts: whichever there is
  cases hr : b.reporting with
  | cons message rest =>
    obtain ⟨slot, result⟩ := message
    have hfind : b.reporting.find? (·.1 = slot) = some (slot, result) := by
      rw [hr, List.find?_cons_of_pos (by simp)]
    refine ⟨.report slot, _, trivial, trivial, .report slot result hfind, ?_⟩
    simp only [toDo, hr, List.erase_cons_head, List.length_append, List.length_cons,
      List.length_nil]
    omega
  | nil =>
    cases hcall : b.calling with
    | cons slot rest =>
      have hmem : slot ∈ b.calling := by rw [hcall]; exact List.mem_cons_self
      obtain ⟨p, hp, htext⟩ := htext slot (by simp [outstanding, started, hmem])
      obtain ⟨q, hq⟩ := exists_request htext
      refine ⟨.reply slot (replies slot q) 0, _, trivial, ?_,
        .reply slot p (replies slot q) 0 hp hmem, ?_⟩
      · intro p' q' hp' hq'
        cases hp.symm.trans hp'
        cases hq.symm.trans hq'
        rfl
      · simp only [toDo, hcall, List.erase_cons_head, List.length_append, List.length_cons,
          List.length_nil]
        omega
    | nil =>
      cases hqueue : b.queued with
      | cons slot rest =>
        have hmem : slot ∈ b.queued := by rw [hqueue]; exact List.mem_cons_self
        obtain ⟨p, hp, -⟩ := htext slot (by simp [outstanding, hmem])
        cases hc : b.cancelled with
        | true =>
          refine ⟨.start slot 0, _, trivial, trivial, .startCancelled slot 0 p hp hmem hc, ?_⟩
          simp only [toDo, hqueue, List.erase_cons_head, List.length_append, List.length_cons,
            List.length_nil]
          omega
        | false =>
          refine ⟨.start slot 0, _, trivial, trivial, .startCall slot 0 p hp hmem hc ha, ?_⟩
          simp only [toDo, hqueue, List.erase_cons_head, List.length_append, List.length_cons,
            List.length_nil]
          omega
      | nil =>
        unfold isSilent at hq
        rw [hqueue, hcall, hr] at hq
        cases hq

/-- As long as the caller has not returned, and no submission has failed, somebody can go on,
and has less to do then. -/
theorem exists_step (ht : b.Tracked) (haccepted : b.stage.isRefused = false)
    (ha : b.abandoned = false) (hret : ∀ ending, b.stage ≠ .returned ending)
    (replies : Replies) :
    ∃ e b', e.IsCalm ∧ e.Heeds replies b.pairs ∧ Step b e b' ∧ b'.toDo < b.toDo := by
  -- one case for each stage; where the caller waits and no message is there, a task goes on
  cases hs : b.stage with
  | visiting =>
    cases hnext : b.pairs[b.slots.length]? with
    | none =>
      refine ⟨.visit, _, trivial, trivial, .visitEnd hs hnext, ?_⟩
      simp only [toDo, hs, Stage.toDo]
      omega
    | some p =>
      have hlt : b.slots.length < b.pairs.length := (List.getElem?_eq_some_iff.1 hnext).1
      by_cases hc : p.context = none
      · refine ⟨.visit, _, trivial, trivial, .visitSkip p hs hnext hc, ?_⟩
        simp only [toDo, List.length_append, List.length_cons, List.length_nil]
        omega
      · cases hgo : (b.expired || b.cancelled) with
        | true =>
          refine ⟨.visit, _, trivial, trivial, .visitPass p hs hnext hc hgo, ?_⟩
          simp only [toDo, List.length_append, List.length_cons, List.length_nil]
          omega
        | false =>
          refine ⟨.visit, _, trivial, trivial, .visitOpen p hs hnext hc hgo, ?_⟩
          simp only [toDo, hs, Stage.toDo, List.length_append, List.length_cons,
            List.length_nil]
          omega
  | submitting slot =>
    refine ⟨.submit (.ok ()), _, trivial, trivial, .accept slot hs, ?_⟩
    simp only [toDo, hs, Stage.toDo, List.length_append, List.length_cons, List.length_nil]
    omega
  | failing reason =>
    rw [hs] at haccepted
    cases haccepted
  | looking =>
    by_cases hend : b.pending = 0 ∨ b.cancelled = true
    · refine ⟨.look, _, trivial, trivial, .lookEnd hs hend, ?_⟩
      simp only [toDo, hs, Stage.toDo]
      omega
    · obtain ⟨hn, hc⟩ := not_or.1 hend
      refine ⟨.look, _, trivial, trivial, .lookOn hs hn (Bool.eq_false_iff.2 hc), ?_⟩
      simp only [toDo, hs, Stage.toDo]
      omega
  | receiving =>
    cases hm : b.messages with
    | cons message rest =>
      obtain ⟨slot, result⟩ := message
      by_cases hl : slot < b.slots.length
      · refine ⟨.receive, _, trivial, trivial, .receive slot result rest hs hm hl, ?_⟩
        simp only [toDo, hs, hm, Stage.toDo, List.length_set, List.length_cons]
        omega
      · refine ⟨.receive, _, trivial, trivial, .receiveStray slot result rest hs hm hl, ?_⟩
        simp only [toDo, hs, hm, Stage.toDo, List.length_cons]
        omega
    | nil =>
      cases hq : b.isSilent with
      | false => exact exists_step_of_task ht ha replies hq
      | true =>
        refine ⟨.disconnect, _, trivial, trivial, .disconnect hs hm hq, ?_⟩
        simp only [toDo, hs, Stage.toDo]
        omega
  | draining =>
    cases hm : b.messages with
    | cons message rest =>
      obtain ⟨slot, result⟩ := message
      refine ⟨.drain, _, trivial, trivial, .drain slot result rest hs hm, ?_⟩
      simp only [toDo, hm, List.length_set, List.length_cons]
      omega
    | nil =>
      refine ⟨.settle, _, trivial, trivial, .settle hs hm, ?_⟩
      simp only [toDo, hs, Stage.toDo]
      omega
  | concluding =>
    refine ⟨.conclude 0 0, _, trivial, trivial, .conclude 0 0 hs, ?_⟩
    simp only [toDo, conclude, hs, Stage.toDo]
    omega
  | returned ending => exact absurd hs (hret ending)

section Runs

variable {hits : List HitData} {configs : List FieldConfig} {cancelled : Bool}

/-- Every row of steps can be continued, by calm ones, until the batch has returned. -/
theorem run_finish (hrun : (begin hits configs cancelled).run? events = some b)
    (replies : Replies) :
    ∃ more b' ending, b.run? more = some b' ∧ b'.stage = .returned ending ∧
      ∀ e ∈ more, e.IsCalm ∧ e.Heeds replies (Pair.all hits configs) := by
  -- by induction on how much there is to do
  induction hn : b.toDo using Nat.strongRecOn generalizing events b with
  | ind n ih =>
    by_cases hret : ∃ ending, b.stage = .returned ending
    · obtain ⟨ending, hs⟩ := hret
      exact ⟨[], b, ending, rfl, hs, fun _ he => absurd he List.not_mem_nil⟩
    · have hopen : ∀ ending, b.stage ≠ .returned ending := fun ending hs => hret ⟨ending, hs⟩
      have hinv := run_invariant hrun
      have ha := hinv.told.of_stage hopen
      cases hrefused : b.stage.isRefused with
      | true =>
        -- a batch with a failed submission is given up next
        obtain ⟨reason, hs⟩ : ∃ reason, b.stage = .failing reason := by
          cases hs : b.stage with
          | failing reason => exact ⟨reason, rfl⟩
          | returned ending => exact absurd hs (hopen ending)
          | _ =>
            rw [hs] at hrefused
            cases hrefused
        have hfail := (Step.fail reason hs).step?_eq
        refine ⟨[.fail], { b with abandoned := true, stage := .returned (.refused reason) },
          .refused reason, ?_, rfl, List.forall_mem_singleton.2 ⟨trivial, trivial⟩⟩
        show (b.step? .fail).bind some = _
        rw [hfail]
        rfl
      | false =>
        obtain ⟨e, b₁, hcalm, hheeds, hstep, hlt⟩ :=
          exists_step hinv.tracked hrefused ha hopen replies
        have hrun₁ : (begin hits configs cancelled).run? (events ++ [e]) = some b₁ := by
          rw [run?_concat, hrun]
          exact hstep.step?_eq
        obtain ⟨more, b', ending, hmore, hs, hall⟩ := ih b₁.toDo (hn ▸ hlt) hrun₁ rfl
        refine ⟨e :: more, b', ending, ?_, hs, List.forall_mem_cons.2 ⟨⟨hcalm, ?_⟩, hall⟩⟩
        · show (b.step? e).bind (·.run? more) = some b'
          rw [hstep.step?_eq]
          exact hmore
        · rw [← hinv.pairs_eq]
          exact hheeds

end Runs

/-! ## Calm batches -/

namespace Calm

variable {hits : List HitData} {configs : List FieldConfig} {replies : Replies}

/-- Nothing has gone wrong in a calm row of steps. -/
theorem sound (h : Calm hits configs replies events b) : b.Sound := by
  refine run_induction (I := fun events b => (∀ e ∈ events, e.IsCalm) → b.Sound)
    (fun _ => begin_sound hits configs) ?_ events b h.run h.calm
  intro events b e b' _ ih hstep hcalm
  obtain ⟨hbefore, hlast⟩ := List.forall_mem_append.1 hcalm
  exact step_sound (ih hbefore) (List.forall_mem_singleton.1 hlast) hstep

/-- A calm row of steps can be continued until the batch has returned. -/
theorem finish (h : Calm hits configs replies events b) :
    ∃ more b' ending, Calm hits configs replies (events ++ more) b' ∧
      b'.stage = .returned ending := by
  obtain ⟨more, b', ending, hmore, hs, hall⟩ := run_finish h.run replies
  refine ⟨more, b', ending, ⟨?_, ?_, ?_⟩, hs⟩
  · rw [run?_append, h.run]
    exact hmore
  · exact List.forall_mem_append.2 ⟨h.calm, fun e he => (hall e he).1⟩
  · exact List.forall_mem_append.2 ⟨h.heeds, fun e he => (hall e he).2⟩

/-- A calm batch that has returned is undisturbed. -/
theorem undisturbed (h : Calm hits configs replies events b) {ending : Ending}
    (hret : b.stage = .returned ending) :
    ∃ results, ending.outcome = .ok results ∧
      Undisturbed hits configs replies events b results := by
  have hsound := h.sound
  have hok : ∃ results, ending.outcome = .ok results := by
    cases ending with
    | vacant => exact ⟨_, rfl⟩
    | completed results elapsedNs => exact ⟨_, rfl⟩
    | refused reason =>
      have hrefused := hsound.accepted
      rw [hret] at hrefused
      cases hrefused
  obtain ⟨results, hok⟩ := hok
  exact ⟨results, hok, h.run, h.heeds, ⟨ending, hret, hok⟩, hsound.inTime, hsound.goesOn⟩

end Calm

end Batch

end SemanticHighlight
