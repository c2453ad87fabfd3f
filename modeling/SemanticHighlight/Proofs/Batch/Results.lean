import SemanticHighlight.Proofs.Batch.Invariant

/-!
# Where the results of a batch come from

A result on its way to the caller is `Known` to the batch: it stands in its slot, or a task
carries it there. `run_origin` says that in every row of steps a known result has one of
four origins, and so belongs to the pair of its slot. `Told` says that a batch which has
returned has told its caller what the slots hold. `run_refusal` is where a refusal comes
from.

`run_invariant` bundles what every row of steps keeps.
-/

namespace SemanticHighlight

/-- What a submission failed with. -/
def Stage.refusal? : Stage → Option Refusal
  | failing reason | returned (.refused reason) => some reason
  | _ => none

namespace Batch

variable {b b' : Batch} {e : Event} {events : List Event}

/-! ## What the caller is told -/

/-- A batch that has returned has told its caller what the slots hold. Only then can it have
been given up, and it was if a submission failed or a result is missing. -/
structure Told (b : Batch) : Prop where
  results : ∀ results elapsedNs, b.stage = .returned (.completed results elapsedNs) →
    ∃ waitedMs, results = b.results waitedMs
  vacant : b.stage = .returned .vacant → b.pairs = []
  returned : b.abandoned = true → ∃ ending, b.stage = .returned ending
  missing : b.abandoned = true → b.stage.isRefused = false → b.isFull = false

/-- At the beginning nothing has been told. -/
theorem begin_told (hits : List HitData) (configs : List FieldConfig) (cancelled : Bool) :
    (begin hits configs cancelled).Told := by
  refine ⟨fun results elapsedNs hs => ?_, fun hs => ?_, fun ha => absurd ha (by simp [begin]),
    fun ha => absurd ha (by simp [begin])⟩
  · unfold begin at hs
    dsimp only at hs
    split at hs <;> simp at hs
  · unfold begin at hs ⊢
    dsimp only at hs ⊢
    split at hs
    · next hp => exact List.isEmpty_iff.1 hp
    · simp at hs

/-- A batch that has not returned has not been given up. -/
theorem Told.of_stage (h : b.Told) (hs : ∀ ending, b.stage ≠ .returned ending) :
    b.abandoned = false := by
  cases ha : b.abandoned with
  | false => rfl
  | true =>
    obtain ⟨ending, he⟩ := h.returned ha
    exact absurd he (hs ending)

/-- Nothing is to be shown about a batch whose caller has not returned. -/
theorem told_of_stage (hs : ∀ ending, b.stage ≠ .returned ending)
    (ha : b.abandoned = false) : b.Told := by
  refine ⟨fun results elapsedNs h => absurd h (hs _), fun h => absurd h (hs _), ?_, ?_⟩
  all_goals
    intro h
    rw [ha] at h
    exact absurd h (by simp)

/-- Every step keeps what a caller who has returned was told. -/
theorem step_told (h : b.Told) (hstep : Step b e b') : b'.Told := by
  cases hstep with
  | visitEnd hs | visitOpen _ hs | accept _ hs | late _ _ hs | refuse _ _ hs | lookEnd hs
  | lookOn hs | expire hs | receive _ _ _ hs | receiveStray _ _ _ hs | idle hs
  | disconnect hs | settle hs =>
    exact told_of_stage (by simp) (h.of_stage (by simp [hs]))
  | visitSkip _ hs | visitPass _ hs | drain _ _ _ hs =>
    exact told_of_stage (by simp [hs]) (h.of_stage (by simp [hs]))
  | fail reason hs =>
    exact ⟨by simp, by simp, fun _ => ⟨_, rfl⟩,
      fun _ hr => absurd hr (by simp [Stage.isRefused])⟩
  | conclude waitedMs elapsedNs hs =>
    refine ⟨fun results _ he => ⟨waitedMs, ?_⟩, by simp [Batch.conclude], fun _ => ⟨_, rfl⟩,
      fun ha _ => ?_⟩
    · have he' : Stage.returned (.completed (b.results waitedMs) elapsedNs) = _ := he
      simp only [Stage.returned.injEq, Ending.completed.injEq] at he'
      exact he'.1.symm
    · -- nothing gives a batch up before it concludes
      have ha' : (b.abandoned || !b.isFull) = true := ha
      rw [h.of_stage (by simp [hs])] at ha'
      show b.isFull = false
      simpa using ha'
  | startCancelled | startAbandoned | startCall | reply | lose | report | cancel =>
    exact ⟨h.results, h.vacant, h.returned, h.missing⟩

/-! ## Origins -/

/-- Whether a result for a slot stands in it or is on its way there. -/
def Known (b : Batch) (slot : Nat) (r : FieldResult) : Prop :=
  b.slots[slot]? = some (some r) ∨ (slot, r) ∈ b.reporting ∨ (slot, r) ∈ b.messages

/-- How a result for a slot came about in a row of steps that led to a batch. -/
inductive Origin (events : List Event) (b : Batch) (slot : Nat) : FieldResult → Prop
  /-- The pair has no text. -/
  | skipped (p : Pair) (hp : b.pairs[slot]? = some p) (hc : p.context = none) :
      Origin events b slot p.skipped
  /-- The backend ended its call. -/
  | replied (p : Pair) (reply : Inference.Reply) (durationMs : UInt64)
      (hp : b.pairs[slot]? = some p) (hc : p.context ≠ none)
      (he : .reply slot reply durationMs ∈ events) :
      Origin events b slot (p.result reply durationMs)
  | cancelled (p : Pair) (durationMs : UInt64) (hp : b.pairs[slot]? = some p)
      (hc : p.context ≠ none) (hb : b.cancelled = true) :
      Origin events b slot (p.cancelled durationMs)
  | abandoned (p : Pair) (durationMs : UInt64) (hp : b.pairs[slot]? = some p)
      (hc : p.context ≠ none) (hb : b.abandoned = true) :
      Origin events b slot (p.abandoned durationMs)

/-- The pairs of a batch stay the same, and what has been cancelled or given up stays so. -/
theorem Step.keeps (h : Step b e b') :
    b'.pairs = b.pairs ∧ (b.cancelled = true → b'.cancelled = true) ∧
      (b.abandoned = true → b'.abandoned = true) := by
  cases h with
  | conclude waitedMs elapsedNs hs =>
    refine ⟨rfl, id, fun ha => ?_⟩
    show (b.abandoned || !b.isFull) = true
    rw [ha, Bool.true_or]
  | fail => exact ⟨rfl, id, fun _ => rfl⟩
  | cancel => exact ⟨rfl, fun _ => rfl, id⟩
  | _ => exact ⟨rfl, id, id⟩

/-- An origin that a result has it keeps as steps are added. -/
theorem Origin.step {slot : Nat} {r : FieldResult} (h : Origin events b slot r)
    (hstep : Step b e b') : Origin (events ++ [e]) b' slot r := by
  obtain ⟨hpairs, hcancelled, habandoned⟩ := hstep.keeps
  cases h with
  | skipped p hp hc => exact .skipped p (by rw [hpairs]; exact hp) hc
  | replied p reply ms hp hc he =>
    exact .replied p reply ms (by rw [hpairs]; exact hp) hc (List.mem_append_left _ he)
  | cancelled p ms hp hc hb =>
    exact .cancelled p ms (by rw [hpairs]; exact hp) hc (hcancelled hb)
  | abandoned p ms hp hc hb =>
    exact .abandoned p ms (by rw [hpairs]; exact hp) hc (habandoned hb)

/-- A result that arrives in its slot was on its way there. -/
theorem known_of_take {slot s : Nat} {result r : FieldResult}
    {rest : List (Nat × FieldResult)} (hm : b.messages = (slot, result) :: rest)
    (h : (b.slots.set slot (some result))[s]? = some (some r) ∨ (s, r) ∈ b.reporting ∨
      (s, r) ∈ rest) : b.Known s r := by
  rcases h with h | h | h
  · rcases Rows.getElem?_of_set h with ⟨-, h⟩ | ⟨hs, hr⟩
    · exact .inl h
    · rw [hs, Option.some.inj hr]
      exact .inr (.inr (by rw [hm]; exact List.mem_cons_self ..))
  · exact .inr (.inl h)
  · exact .inr (.inr (by rw [hm]; exact List.mem_cons_of_mem _ h))

/-- A result that a task takes up is new, with an origin; the others were known. -/
theorem known_of_report {slot s : Nat} {result r : FieldResult}
    (hnew : Origin events b' slot result)
    (h : b.slots[s]? = some (some r) ∨ (s, r) ∈ b.reporting ++ [(slot, result)] ∨
      (s, r) ∈ b.messages) : b.Known s r ∨ Origin events b' s r := by
  rcases h with h | h | h
  · exact .inl (.inl h)
  · rcases List.mem_append.1 h with h | h
    · exact .inl (.inr (.inl h))
    · obtain ⟨rfl, rfl⟩ := Prod.mk.inj (List.mem_singleton.1 h)
      exact .inr hnew
  · exact .inl (.inr (.inr h))

/-- A result known after a step was known before, or has just come about. -/
theorem step_known (ht : b.Tracked) (hstep : Step b e b') {s : Nat} {r : FieldResult}
    (h : b'.Known s r) : b.Known s r ∨ Origin (events ++ [e]) b' s r := by
  cases hstep with
  | visitSkip p hs hp hc =>
    rcases h with h | h
    · rcases slot_of_concat h with h | ⟨heq, hr⟩
      · exact .inl (.inl h)
      · rw [heq, Option.some.inj hr]
        exact .inr (.skipped p hp hc)
    · exact .inl (.inr h)
  | visitPass p hs hp hc | visitOpen p hs hp hc =>
    rcases h with h | h
    · rcases slot_of_concat h with h | ⟨-, hr⟩
      · exact .inl (.inl h)
      · exact absurd hr (by simp)
    · exact .inl (.inr h)
  | receive slot result rest hs hm => exact .inl (known_of_take hm h)
  | drain slot result rest hs hm => exact .inl (known_of_take hm h)
  | receiveStray slot result rest hs hm =>
    rcases h with h | h | h
    · exact .inl (.inl h)
    · exact .inl (.inr (.inl h))
    · exact .inl (.inr (.inr (by rw [hm]; exact List.mem_cons_of_mem _ h)))
  | startCancelled slot durationMs p hp hq hc =>
    have htext := ht.hasText hp (List.mem_append_left _ hq)
    exact known_of_report (.cancelled p durationMs hp htext hc) h
  | startAbandoned slot durationMs p hp hq hc ha =>
    have htext := ht.hasText hp (List.mem_append_left _ hq)
    exact known_of_report (.abandoned p durationMs hp htext ha) h
  | reply slot p reply durationMs hp hq =>
    have hmem : slot ∈ b.outstanding := List.mem_append_right _ (List.mem_append_left _ hq)
    have hlast : Event.reply slot reply durationMs ∈ events ++ [.reply slot reply durationMs] :=
      List.mem_append_right _ (List.mem_singleton.2 rfl)
    exact known_of_report (.replied p reply durationMs hp (ht.hasText hp hmem) hlast) h
  | report slot result hf =>
    -- the message is the result that the task had
    rcases h with h | h | h
    · exact .inl (.inl h)
    · exact .inl (.inr (.inl (List.mem_of_mem_erase h)))
    · rcases List.mem_append.1 h with h | h
      · exact .inl (.inr (.inr h))
      · have heq : (s, r) = (slot, result) := List.mem_singleton.1 h
        have hmem : (s, r) ∈ b.reporting := by
          rw [heq]
          exact List.mem_of_find?_eq_some hf
        exact .inl (.inr (.inl hmem))
  | _ => exact .inl h

/-- A task that is lost was lost before, or its step loses it. -/
theorem Step.lost_cases (h : Step b e b') {slot : Nat} (hlost : slot ∈ b'.lost) :
    slot ∈ b.lost ∨ e = .lose slot := by
  cases h with
  | lose slot' hq =>
    rcases List.mem_append.1 hlost with hbefore | hnew
    · exact .inl hbefore
    · rw [List.mem_singleton.1 hnew]
      exact .inr rfl
  | _ => exact .inl hlost

/-! ## Every row of steps -/

/-- What every row of steps keeps. -/
structure Invariant (pairs : List Pair) (b : Batch) : Prop where
  pairs_eq : b.pairs = pairs
  placed : b.Placed
  tracked : b.Tracked
  covered : b.Covered
  told : b.Told

theorem begin_invariant (hits : List HitData) (configs : List FieldConfig) (cancelled : Bool) :
    Invariant (Pair.all hits configs) (begin hits configs cancelled) :=
  ⟨rfl, begin_placed hits configs cancelled, begin_tracked hits configs cancelled,
    begin_covered hits configs cancelled, begin_told hits configs cancelled⟩

/-- One step keeps all of it. -/
theorem step_invariant {pairs : List Pair} (h : Invariant pairs b) (hstep : Step b e b') :
    Invariant pairs b' :=
  ⟨hstep.keeps.1.trans h.pairs_eq, step_placed h.placed hstep, step_tracked h.tracked hstep,
    step_covered h.tracked h.covered hstep, step_told h.told hstep⟩

section Runs

variable {hits : List HitData} {configs : List FieldConfig} {cancelled : Bool}

/-- So it holds in every reachable state. -/
theorem run_invariant (hrun : (begin hits configs cancelled).run? events = some b) :
    Invariant (Pair.all hits configs) b :=
  run_induction (I := fun _ b => Invariant (Pair.all hits configs) b)
    (begin_invariant hits configs cancelled)
    (fun _ _ _ _ _ h hstep => step_invariant h hstep) events b hrun

/-- In every row of steps, a known result has one of the four origins. -/
theorem run_origin (hrun : (begin hits configs cancelled).run? events = some b) {slot : Nat}
    {r : FieldResult} (h : b.Known slot r) : Origin events b slot r := by
  refine run_induction (I := fun events b => ∀ slot r, b.Known slot r → Origin events b slot r)
    ?_ ?_ events b hrun slot r h
  · intro slot r h
    rcases h with h | h | h <;> simp [begin] at h
  · intro events b e b' hrun ih hstep slot r h
    rcases step_known (run_invariant hrun).tracked hstep h with h | h
    · exact (ih slot r h).step hstep
    · exact h

/-- A batch is refused for what a submission failed with, and never because it was late. -/
theorem run_refusal (hrun : (begin hits configs cancelled).run? events = some b)
    {reason : Refusal} (hs : b.stage.refusal? = some reason) :
    Event.submit (.error reason) ∈ events ∧ ∀ n, reason ≠ .late n := by
  refine run_induction (I := fun events b => ∀ reason, b.stage.refusal? = some reason →
    Event.submit (.error reason) ∈ events ∧ ∀ n, reason ≠ .late n) ?_ ?_ events b hrun reason hs
  · intro reason hs
    unfold begin at hs
    dsimp only at hs
    split at hs <;> cases hs
  · intro events b e b' _ ih hstep reason hs
    -- only a failed submission brings a refusal about, and the steps after it keep it
    have hkept : b.stage.refusal? = some reason →
        Event.submit (.error reason) ∈ events ++ [e] ∧ ∀ n, reason ≠ .late n := by
      intro hold
      obtain ⟨hmem, hnot⟩ := ih reason hold
      exact ⟨List.mem_append_left _ hmem, hnot⟩
    cases hstep with
    | refuse slot reason' _ hnot =>
      cases hs
      exact ⟨List.mem_append_right _ (List.mem_singleton.2 rfl), hnot⟩
    | fail reason' hfailing =>
      cases hs
      apply hkept
      rw [hfailing]
      rfl
    | visitEnd | visitOpen | accept | late | lookEnd | lookOn | expire | receive | receiveStray
    | idle | disconnect | settle | conclude => cases hs
    | visitSkip | visitPass | drain | startCancelled | startAbandoned | startCall | reply
    | lose | report | cancel => exact hkept hs

/-- A task is lost only in a step that loses it. -/
theorem run_lost (hrun : (begin hits configs cancelled).run? events = some b) {slot : Nat}
    (h : slot ∈ b.lost) : Event.lose slot ∈ events := by
  refine run_induction (I := fun events b => ∀ slot ∈ b.lost, Event.lose slot ∈ events)
    (fun slot h => absurd h List.not_mem_nil) ?_ events b hrun slot h
  intro events b e b' _ ih hstep slot h
  rcases hstep.lost_cases h with hbefore | rfl
  · exact List.mem_append_left _ (ih slot hbefore)
  · exact List.mem_append_right _ (List.mem_singleton.2 rfl)

end Runs

end Batch

end SemanticHighlight
