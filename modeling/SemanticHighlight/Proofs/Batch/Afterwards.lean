import SemanticHighlight.Batch.Fine
import SemanticHighlight.Proofs.Batch.Calls
import SemanticHighlight.Proofs.Batch.Positions

/-!
# No call outlives its batch

A batch gives itself up (`abandoned`) when a submission fails and when a result is missing at
the end, but not when all results are there. That is enough: a task that is queued waits for
an open slot, so if no slot is open then no task is queued (`Sealed`, kept by every step).

Main statement (`no_call_afterwards`), for tasks whose two looks at the flags are steps of
their own: a pair is asked about once at most, a task that looks after the batch has returned
does not call the backend, and neither does one that first looks after a cancellation.
-/

namespace SemanticHighlight.Batch

section Coarse

variable {b b' : Batch} {e : Event}

/-! ## A batch that has returned is given up or has no task left -/

/-- Whether a batch that has returned was given up, unless no task of it is left. -/
def Sealed (b : Batch) : Prop :=
  ∀ ending, b.stage = .returned ending → b.abandoned = true ∨ b.outstanding = []

theorem begin_sealed (hits : List HitData) (configs : List FieldConfig) (cancelled : Bool) :
    (begin hits configs cancelled).Sealed :=
  fun _ _ => .inr rfl

/-- A task is outstanding only while its slot is open. -/
theorem Tracked.outstanding_of_isFull (h : b.Tracked) (hfull : b.isFull = true) :
    b.outstanding = [] := by
  refine List.eq_nil_iff_forall_not_mem.2 fun slot hmem => ?_
  have hopen := h.outstanding.isOpen slot hmem
  have hsome := List.all_eq_true.1 hfull none (List.mem_of_getElem? hopen)
  exact absurd hsome (by simp)

/-- What tasks do among themselves leaves a batch sealed. -/
theorem Sealed.moved (h : b.Sealed) (hstage : b'.stage = b.stage)
    (habandoned : b'.abandoned = b.abandoned) (hp : b'.outstanding.Perm b.outstanding) :
    b'.Sealed := by
  intro ending hret
  rw [hstage] at hret
  rw [habandoned]
  refine (h ending hret).imp_right fun hnil => ?_
  rw [hnil] at hp
  exact hp.eq_nil

/-- Nothing is to be shown about a batch whose caller has not returned. -/
theorem sealed_of_stage (hs : ∀ ending, b.stage ≠ .returned ending) : b.Sealed :=
  fun ending hret => absurd hret (hs ending)

/-- Every step leaves a batch sealed. -/
theorem step_sealed (ht : b.Tracked) (h : b.Sealed) (hstep : Step b e b') : b'.Sealed := by
  cases hstep with
  | visitEnd | visitOpen | accept | late | refuse | lookEnd | lookOn | expire | receive
  | receiveStray | idle | disconnect | settle => exact sealed_of_stage (by simp)
  | visitSkip _ hs | visitPass _ hs | drain _ _ _ hs => exact sealed_of_stage (by simp [hs])
  | fail => exact fun _ _ => .inl rfl
  | conclude waitedMs elapsedNs hs =>
    intro ending _
    -- the one ending that may leave the flag down, and then every slot is filled
    show (b.abandoned || !b.isFull) = true ∨ b.outstanding = []
    cases hfull : b.isFull with
    | true => exact .inr (ht.outstanding_of_isFull hfull)
    | false => exact .inl (by simp)
  | startCancelled slot durationMs p hp hq | startAbandoned slot durationMs p hp hq =>
    exact h.moved rfl rfl (outstanding_perm_of_start hq _)
  | startCall slot durationMs p hp hq =>
    exact h.moved rfl rfl (outstanding_perm_of_startCall hq)
  | reply slot p reply durationMs hp hq => exact h.moved rfl rfl (outstanding_perm_of_reply hq _)
  | lose slot hq => exact h.moved rfl rfl (outstanding_perm_of_lose hq)
  | report slot result hf =>
    exact h.moved rfl rfl (outstanding_perm_of_report (List.mem_of_find?_eq_some hf))
  | cancel => exact h

/-! ## Steps that start no task -/

/-- Whether a worker starts a task. -/
def Event.isStart : Event → Bool
  | start _ _ => true
  | _ => false

/-- Only the start of a task takes it off the queue. -/
theorem Step.queued_subset (h : Step b e b') (he : e.isStart = false) :
    ∀ slot ∈ b.queued, slot ∈ b'.queued := by
  intro slot hq
  cases h with
  | startCancelled | startAbandoned | startCall => cases he
  | accept => exact List.mem_append_left _ hq
  | _ => exact hq

/-- Only the start of a task calls the backend. -/
theorem Step.calls_eq (h : Step b e b') (he : e.isStart = false) : b'.calls = b.calls := by
  cases h with
  | startCall => cases he
  | _ => rfl

end Coarse

namespace Fine

variable {b b' : Fine} {e : Event}

/-! ## Steps, case by case -/

/-- What a step can do to a batch. -/
inductive Step (b : Fine) : Event → Fine → Prop
  | other (event : Batch.Event) (next : Batch) (he : event.isStart = false)
      (h : Batch.Step b.toBatch event next) : Step b (.other event) { b with toBatch := next }
  /-- The task finds the request cancelled. -/
  | lookCancelled (slot : Nat) (durationMs : UInt64) (p : Pair) (hq : slot ∈ b.queued)
      (hb : slot ∉ b.between) (hc : b.cancelled = true) :
      Step b (.look slot durationMs)
        { b with
          queued := b.queued.erase slot
          reporting := b.reporting ++ [(slot, p.cancelled durationMs)] }
  | lookOn (slot : Nat) (durationMs : UInt64) (hq : slot ∈ b.queued) (hb : slot ∉ b.between)
      (hc : b.cancelled = false) :
      Step b (.look slot durationMs) { b with between := b.between ++ [slot] }
  /-- The task finds the batch given up. -/
  | lookAbandoned (slot : Nat) (durationMs : UInt64) (p : Pair) (hb : slot ∈ b.between)
      (ha : b.abandoned = true) :
      Step b (.lookAgain slot durationMs)
        { b with
          between := b.between.erase slot
          queued := b.queued.erase slot
          reporting := b.reporting ++ [(slot, p.abandoned durationMs)] }
  /-- The task calls the backend. -/
  | call (slot : Nat) (durationMs : UInt64) (hb : slot ∈ b.between) (ha : b.abandoned = false) :
      Step b (.lookAgain slot durationMs)
        { b with
          between := b.between.erase slot
          queued := b.queued.erase slot
          calling := b.calling ++ [slot], calls := b.calls ++ [slot] }

/-- Whatever the function makes of a batch, the relation allows. -/
theorem Step.of_step? (h : b.step? e = some b') : Step b e b' := by
  cases e with
  | other event =>
    -- the coarse step of a start is none here: it is cut into two looks
    cases hs : event.isStart with
    | true =>
      cases event with
      | start => cases h
      | _ => cases hs
    | false =>
      have hmap : (b.toBatch.step? event).map (fun next => { b with toBatch := next }) =
          some b' := by
        cases event with
        | start => cases hs
        | _ => exact h
      obtain ⟨next, hnext, rfl⟩ := Option.map_eq_some_iff.1 hmap
      exact .other event next hs (.of_step? hnext)
  | look slot durationMs =>
    simp only [step?] at h
    split at h
    · next p hp =>
      simp only [Option.ite_none_right_eq_some, Option.some.injEq] at h
      obtain ⟨⟨hq, hb⟩, rfl⟩ := h
      unfold look
      by_cases hc : b.cancelled = true
      · rw [if_pos hc]
        exact .lookCancelled slot durationMs p hq hb hc
      · rw [if_neg hc]
        exact .lookOn slot durationMs hq hb (by simpa using hc)
    · cases h
  | lookAgain slot durationMs =>
    simp only [step?] at h
    split at h
    · next p hp =>
      simp only [Option.ite_none_right_eq_some, Option.some.injEq] at h
      obtain ⟨hb, rfl⟩ := h
      unfold lookAgain
      by_cases ha : b.abandoned = true
      · rw [if_pos ha]
        exact .lookAbandoned slot durationMs p hb ha
      · rw [if_neg ha]
        exact .call slot durationMs hb (by simpa using ha)
    · cases h

/-- What is kept by each step holds after every row of steps. -/
theorem run_induction {P : Fine → Prop} {events : List Event} (hfirst : P b)
    (hkeep : ∀ {b e b'}, P b → Step b e b' → P b') (hrun : b.run? events = some b') : P b' :=
  Rows.induction (I := fun _ => P) hfirst (fun _ h hstep => hkeep h (.of_step? hstep)) hrun

/-- A step of a row, with what came before it and the row that starts with it. -/
theorem exists_step {events : List Event} (hrun : b.run? events = some b') (he : e ∈ events) :
    ∃ before mid next after, b.run? before = some mid ∧ Step mid e next ∧
      mid.run? (e :: after) = some b' := by
  obtain ⟨before, after, rfl⟩ := List.append_of_mem he
  rw [run?_append] at hrun
  obtain ⟨mid, hbefore, hafter⟩ := Option.bind_eq_some_iff.1 hrun
  obtain ⟨next, hnext, -⟩ := Option.bind_eq_some_iff.1 hafter
  exact ⟨before, mid, next, after, hbefore, .of_step? hnext, hafter⟩

/-- A step of a batch is one at the finer grain, or two if a task takes both its looks. -/
theorem exists_run_of_step {c c' : Batch} {event : Batch.Event} (h : Batch.Step c event c') :
    ∃ events, run? { toBatch := c } events = some { toBatch := c' } := by
  have hother : event.isStart = false →
      run? { toBatch := c } [.other event] = some { toBatch := c' } := by
    intro he
    have hstep := h.step?_eq
    cases event with
    | start => cases he
    | _ => simp [run?, step?, hstep]
  cases h with
  | startCancelled slot durationMs p hp hq hc =>
    exact ⟨[.look slot durationMs], by simp [run?, step?, look, hp, hq, hc]⟩
  | startAbandoned slot durationMs p hp hq hc ha | startCall slot durationMs p hp hq hc ha =>
    exact ⟨[.look slot 0, .lookAgain slot durationMs],
      by simp [run?, step?, look, lookAgain, hp, hq, hc, ha]⟩
  | _ => exact ⟨_, hother rfl⟩

/-- Every row of steps of a batch is one at the finer grain, in which each task takes its
second look right after its first. -/
theorem exists_run {c c' : Batch} {events : List Batch.Event} (hrun : c.run? events = some c') :
    ∃ fine, run? { toBatch := c } fine = some { toBatch := c' } := by
  induction events generalizing c with
  | nil =>
    cases hrun
    exact ⟨[], rfl⟩
  | cons event events ih =>
    obtain ⟨mid, hevent, hrun⟩ := Option.bind_eq_some_iff.1 hrun
    obtain ⟨first, hfirst⟩ := exists_run_of_step (.of_step? hevent)
    obtain ⟨second, hsecond⟩ := ih hrun
    refine ⟨first ++ second, ?_⟩
    rw [run?_append, hfirst]
    exact hsecond

/-! ## What every row of steps keeps -/

/-- What is known of a batch and of its tasks between their looks. -/
structure Sound (pairs : List Pair) (b : Fine) : Prop where
  pairs_eq : b.pairs = pairs
  tracked : b.Tracked
  called : b.Called
  isSealed : b.Sealed
  nodup : b.between.Nodup
  queued : ∀ slot ∈ b.between, slot ∈ b.queued

theorem begin_sound (hits : List HitData) (configs : List FieldConfig) (cancelled : Bool) :
    Sound (Pair.all hits configs) (begin hits configs cancelled) :=
  ⟨rfl, begin_tracked hits configs cancelled, begin_called hits configs cancelled,
    begin_sealed hits configs cancelled, List.nodup_nil, fun _ h => absurd h List.not_mem_nil⟩

/-- A task that leaves the queue after both its looks leaves the others where they are. -/
theorem queued_erase {between queued : List Nat} (hn : between.Nodup)
    (hq : ∀ slot ∈ between, slot ∈ queued) (slot : Nat) :
    ∀ s ∈ between.erase slot, s ∈ queued.erase slot := by
  intro s hs
  obtain ⟨hne, hmem⟩ := hn.mem_erase_iff.1 hs
  exact (List.mem_erase_of_ne hne).2 (hq s hmem)

/-- Every step keeps it. -/
theorem Sound.step {pairs : List Pair} (h : Sound pairs b) (hstep : Step b e b') :
    Sound pairs b' := by
  cases hstep with
  | other event next he hnext =>
    refine ⟨hnext.keeps.1.trans h.pairs_eq, step_tracked h.tracked hnext,
      step_called h.tracked h.called hnext, step_sealed h.tracked h.isSealed hnext, h.nodup,
      fun slot hb => hnext.queued_subset he slot (h.queued slot hb)⟩
  | lookCancelled slot durationMs p hq hb hc =>
    have hperm := outstanding_perm_of_start hq (p.cancelled durationMs)
    refine ⟨h.pairs_eq, h.tracked.moved rfl rfl rfl rfl hperm,
      h.called.moved rfl rfl rfl rfl (fun s hs => List.mem_of_mem_erase hs)
        (fun hc' => absurd (hc.symm.trans hc') (by simp)),
      h.isSealed.moved rfl rfl hperm, h.nodup, fun s hs => ?_⟩
    have hne : s ≠ slot := fun he => hb (he ▸ hs)
    exact (List.mem_erase_of_ne hne).2 (h.queued s hs)
  -- the task is between its looks now, and still queued
  | lookOn slot durationMs hq hb hc =>
    refine ⟨h.pairs_eq, h.tracked, h.called, h.isSealed, ?_, fun s hs => ?_⟩
    · exact List.nodup_append.2 ⟨h.nodup, by simp,
        fun s hs s' hs' heq => hb (List.mem_singleton.1 hs' ▸ heq ▸ hs)⟩
    · rcases List.mem_append.1 hs with hs | hs
      · exact h.queued s hs
      · rw [List.mem_singleton.1 hs]
        exact hq
  | lookAbandoned slot durationMs p hb ha =>
    have hperm := outstanding_perm_of_start (h.queued slot hb) (p.abandoned durationMs)
    exact ⟨h.pairs_eq, h.tracked.moved rfl rfl rfl rfl hperm,
      h.called.moved rfl rfl rfl rfl (fun s hs => List.mem_of_mem_erase hs)
        (fun _ ha' => absurd (ha.symm.trans ha') (by simp)),
      h.isSealed.moved rfl rfl hperm, h.nodup.erase slot, queued_erase h.nodup h.queued slot⟩
  | call slot durationMs hb ha =>
    have hq := h.queued slot hb
    have hperm := outstanding_perm_of_startCall hq
    exact ⟨h.pairs_eq, h.tracked.moved rfl rfl rfl rfl hperm, h.called.started h.tracked hq,
      h.isSealed.moved rfl rfl hperm, h.nodup.erase slot, queued_erase h.nodup h.queued slot⟩

theorem Sound.run {pairs : List Pair} {events : List Event} (h : Sound pairs b)
    (hrun : b.run? events = some b') : Sound pairs b' :=
  run_induction h Sound.step hrun

/-- A task that takes a look has not called the backend. -/
theorem Sound.not_called {pairs : List Pair} (h : Sound pairs b) {slot : Nat}
    (he : ∃ durationMs, e = .look slot durationMs ∨ e = .lookAgain slot durationMs)
    (hstep : Step b e b') : slot ∉ b.calls := by
  have hq : slot ∈ b.queued := by
    rcases he with ⟨durationMs, rfl | rfl⟩
    · cases hstep with
      | lookCancelled _ _ _ hq | lookOn _ _ hq => exact hq
    · cases hstep with
      | lookAbandoned _ _ _ hb | call _ _ hb => exact h.queued slot hb
  exact fun hcalled => (h.called.spent slot hcalled).1 hq

/-! ## After the batch has returned, and after a cancellation -/

/-- Nobody calls the backend after the batch has returned: if it was not given up, then no
task is between its looks. -/
theorem Sound.step_returned {pairs : List Pair} (h : Sound pairs b) {ending : Ending}
    (hret : b.stage = .returned ending) (hstep : Step b e b') :
    b'.stage = .returned ending ∧ b'.calls = b.calls := by
  cases hstep with
  | other event next he hnext => exact ⟨hnext.stage_of_returned hret, hnext.calls_eq he⟩
  | lookCancelled | lookOn | lookAbandoned => exact ⟨hret, rfl⟩
  | call slot durationMs hb ha =>
    rcases h.isSealed ending hret with habandoned | hnil
    · exact absurd (ha.symm.trans habandoned) (by simp)
    · have hmem : slot ∈ b.outstanding := List.mem_append_left _ (h.queued slot hb)
      rw [hnil] at hmem
      exact absurd hmem List.not_mem_nil

/-- So it is in every row of steps that follows. -/
theorem Sound.run_returned {pairs : List Pair} {events : List Event} (h : Sound pairs b)
    {ending : Ending} (hret : b.stage = .returned ending) (hrun : b.run? events = some b') :
    b'.stage = .returned ending ∧ b'.calls = b.calls := by
  refine (run_induction (P := fun c => Sound pairs c ∧ c.stage = .returned ending ∧
    c.calls = b.calls) ⟨h, hret, rfl⟩ ?_ hrun).2
  rintro c e c' ⟨hc, hret, hcalls⟩ hstep
  obtain ⟨hret', hcalls'⟩ := hc.step_returned hret hstep
  exact ⟨hc.step hstep, hret', hcalls'.trans hcalls⟩

/-- Once the request is cancelled, only tasks that had their first look call the backend. -/
structure Curbed (b b' : Fine) : Prop where
  cancelled : b'.cancelled = true
  calls : ∀ slot ∈ b'.calls, slot ∈ b.calls ∨ slot ∈ b.between
  between : ∀ slot ∈ b'.between, slot ∈ b.between

theorem curbed_of_cancelled (hc : b.cancelled = true) : Curbed b b :=
  ⟨hc, fun _ h => .inl h, fun _ h => h⟩

/-- Every step keeps a batch curbed. -/
theorem Curbed.step {b₀ : Fine} (h : Curbed b₀ b) (hstep : Step b e b') : Curbed b₀ b' := by
  cases hstep with
  | other event next he hnext =>
    refine ⟨hnext.keeps.2.1 h.cancelled, fun slot hs => h.calls slot ?_, h.between⟩
    exact hnext.calls_eq he ▸ hs
  | lookCancelled => exact ⟨h.cancelled, h.calls, h.between⟩
  | lookOn slot durationMs hq hb hc => exact absurd (hc.symm.trans h.cancelled) (by simp)
  | lookAbandoned slot durationMs p hb ha =>
    exact ⟨h.cancelled, h.calls, fun s hs => h.between s (List.mem_of_mem_erase hs)⟩
  | call slot durationMs hb ha =>
    refine ⟨h.cancelled, fun s hs => ?_, fun s hs => h.between s (List.mem_of_mem_erase hs)⟩
    rcases List.mem_append.1 hs with hs | hs
    · exact h.calls s hs
    · -- this task was between its looks when the request was cancelled
      rw [List.mem_singleton.1 hs]
      exact .inr (h.between slot hb)

theorem Curbed.run {b₀ : Fine} {events : List Event} (h : Curbed b₀ b)
    (hrun : b.run? events = some b') : Curbed b₀ b' :=
  run_induction h Curbed.step hrun

theorem cancelled_of_run {events : List Event} (hc : b.cancelled = true)
    (hrun : b.run? events = some b') : b'.cancelled = true :=
  ((curbed_of_cancelled hc).run hrun).cancelled

section Runs

variable {hits : List HitData} {configs : List FieldConfig} {cancelled : Bool}
  {first second : List Event}

/-- **No call outlives its batch.** However the steps of the caller, of the tasks and of a
cancellation follow one another, the two looks of a task at the flags being steps of their
own:

* each pair of a hit and a configuration causes at most one call, and nothing else does;
* once the batch has returned, well or not, no call is made any more, and a task that takes
  one of its looks from then on never calls;
* a task that takes its first look after a cancellation never calls;
* if the batch has returned results without being given up, no task is queued. -/
theorem no_call_afterwards (hfirst : (begin hits configs cancelled).run? first = some b)
    (hsecond : b.run? second = some b') :
    ((∀ i j : Nat, i < hits.length → j < configs.length →
        b'.calls.count (i * configs.length + j) ≤ 1) ∧
      ∀ slot ∈ b'.calls, slot < hits.length * configs.length) ∧
    (∀ ending, b.stage = .returned ending → b'.calls = b.calls ∧
      ∀ slot durationMs, .look slot durationMs ∈ second ∨ .lookAgain slot durationMs ∈ second →
        slot ∉ b'.calls) ∧
    (b.cancelled = true → ∀ slot durationMs, .look slot durationMs ∈ second →
      slot ∉ b'.calls) ∧
    (∀ ending results, b.stage = .returned ending → ending.outcome = .ok results →
      b.abandoned = false → b.queued = []) := by
  have hb := (begin_sound hits configs cancelled).run hfirst
  have hb' := hb.run hsecond
  refine ⟨⟨fun i j _ _ => ?_, fun slot hmem => ?_⟩, fun ending hret => ⟨?_, ?_⟩, ?_, ?_⟩
  · exact List.nodup_iff_count.1 hb'.called.nodup _
  · obtain ⟨-, p, hp, -⟩ := hb'.called.hasText slot hmem
    rw [hb'.pairs_eq] at hp
    rw [← Pair.length_all]
    exact (List.getElem?_eq_some_iff.1 hp).1
  · exact (hb.run_returned hret hsecond).2
  · -- the look is some step of the second row; what is called later is called by then
    intro slot durationMs hlook
    obtain ⟨e, he, hmem⟩ : ∃ e, (∃ durationMs, e = .look slot durationMs ∨
        e = .lookAgain slot durationMs) ∧ e ∈ second := by
      rcases hlook with hlook | hlook
      · exact ⟨_, ⟨durationMs, .inl rfl⟩, hlook⟩
      · exact ⟨_, ⟨durationMs, .inr rfl⟩, hlook⟩
    obtain ⟨before, mid, next, after, hbefore, hstep, hafter⟩ := exists_step hsecond hmem
    have hmid := hb.run hbefore
    rw [(hmid.run_returned (hb.run_returned hret hbefore).1 hafter).2]
    exact hmid.not_called he hstep
  · -- a call after the first look would need that look to have found no cancellation
    intro hc slot durationMs hlook
    obtain ⟨before, mid, next, after, hbefore, hstep, hafter⟩ := exists_step hsecond hlook
    have hmid := hb.run hbefore
    have hcurbed := (curbed_of_cancelled (cancelled_of_run hc hbefore)).run hafter
    intro hcalled
    rcases hcurbed.calls slot hcalled with hcalled | hbetween
    · exact hmid.not_called ⟨durationMs, .inl rfl⟩ hstep hcalled
    · cases hstep with
      | lookCancelled _ _ _ _ hnot | lookOn _ _ _ hnot => exact hnot hbetween
  · intro ending results hret _ ha
    rcases hb.isSealed ending hret with habandoned | hnil
    · exact absurd (ha.symm.trans habandoned) (by simp)
    · exact (List.append_eq_nil_iff.1 hnil).1

end Runs

/-- One task calls the backend, one has had its first look and one has not started when the
request is cancelled and the batch gives itself up. -/
def interruptedBefore : List Event :=
  [.other .visit, .other (.submit (.ok ())), .look 0 0, .other .visit,
   .other (.submit (.ok ())), .other .visit, .other .visit, .look 1 0, .other .visit,
   .other (.submit (.ok ())), .lookAgain 0 0, .other .visit, .other (.submit (.error (.late 1))),
   .other .visit, .other .cancel, .other .look, .other .settle, .other (.conclude 5 7)]

/-- What the tasks still do. -/
def interruptedAfter : List Event :=
  [.look 4 1, .other (.reply 0 (.text "z") 3), .lookAgain 1 2, .other (.report 0),
   .other (.report 1)]

/-- A cancellation comes when the last result is there. -/
def cancelledInTime : List Event :=
  [.other .visit, .other (.submit (.ok ())), .look 0 0, .lookAgain 0 0, .other .visit,
   .other .look, .other (.reply 0 .broken 3), .other (.report 0), .other .cancel,
   .other .receive, .other .look, .other .settle, .other (.conclude 5 7)]

/-- What the interrupted batch returns. -/
def interruptedLate : List FieldResult :=
  [.late 0 "t" 5, .late 0 "t" 5, .skipped 1 "t" "field text missing or empty",
   .skipped 1 "t" "field text missing or empty", .late 2 "t" 5, .late 2 "t" 5]

/-- What the batch returns whose results were all there. -/
def cancelledResults : List FieldResult := [.failed 0 "t" "inference panicked" 3]

/-- It is so for the interrupted batch, and for one that is cancelled in time. -/
theorem no_call_afterwards_interrupted :
    (∃ b b', (begin spoiledHits rivalConfigs false).run? interruptedBefore = some b ∧
      b.run? interruptedAfter = some b' ∧
      b.stage = .returned (.completed interruptedLate 7) ∧ b.cancelled = true ∧
      b.queued = [1, 4] ∧ b'.queued = [] ∧
      b'.calls = b.calls ∧ 1 ∉ b'.calls ∧ 4 ∉ b'.calls ∧ b'.calls.count (0 * 2 + 0) ≤ 1) ∧
    ∃ b, (begin (spoiledHits.take 1) (rivalConfigs.take 1) false).run? cancelledInTime =
        some b ∧
      b.stage = .returned (.completed cancelledResults 7) ∧ b.abandoned = false ∧
      b.queued = [] := by
  constructor
  · have h : ((begin spoiledHits rivalConfigs false).run? interruptedBefore).map (fun b =>
        (b.stage, b.cancelled, b.queued, (b.run? interruptedAfter).map (·.queued))) =
        some (.returned (.completed interruptedLate 7), true, [1, 4], some []) := by decide
    obtain ⟨b, hfirst, heq⟩ := Option.map_eq_some_iff.1 h
    obtain ⟨hret, hc, hqueued, hafter⟩ : b.stage = _ ∧ b.cancelled = _ ∧ b.queued = _ ∧
        (b.run? interruptedAfter).map (·.queued) = _ := by simpa only [Prod.mk.injEq] using heq
    obtain ⟨b', hsecond, hqueued'⟩ := Option.map_eq_some_iff.1 hafter
    obtain ⟨⟨honce, -⟩, hreturned, hcancelled, -⟩ := no_call_afterwards hfirst hsecond
    obtain ⟨hcalls, hlooks⟩ := hreturned _ hret
    exact ⟨b, b', hfirst, hsecond, hret, hc, hqueued, hqueued', hcalls,
      hlooks 1 2 (.inr (by simp [interruptedAfter])),
      hcancelled hc 4 1 (by simp [interruptedAfter]), honce 0 0 (by decide) (by decide)⟩
  · -- cancelled before the only task looks, which the caller still waits for
    have h : ((begin (spoiledHits.take 1) (rivalConfigs.take 1) false).run?
        cancelledInTime).map (fun b => (b.stage, b.abandoned)) =
        some (.returned (.completed cancelledResults 7), false) := by decide
    obtain ⟨b, hfirst, heq⟩ := Option.map_eq_some_iff.1 h
    obtain ⟨hret, ha⟩ : b.stage = _ ∧ b.abandoned = _ := by
      simpa only [Prod.mk.injEq] using heq
    have hsecond : b.run? [] = some b := rfl
    obtain ⟨-, -, -, hempty⟩ := no_call_afterwards hfirst hsecond
    exact ⟨b, hfirst, hret, ha, hempty _ _ hret rfl ha⟩

end Fine

end SemanticHighlight.Batch
