import SemanticHighlight.Handling
import SemanticHighlight.Proofs.Batch.Step

/-!
# How a request stands after a row of steps

`Standing` lists what is known of a request at each of its stages: what the engine was asked,
whether there is a batch, and if so which steps of it (`Works`) are among those taken. An
answer comes about in one of two ways, which are two of its cases. `run_standing` says that
every row of steps leads to one of them.
-/

namespace SemanticHighlight.Handling

variable {i : Interceptor} {r : Request} {engine : Request → Except Failure Response}
  {began : Bool} {metrics : Metrics} {base : Response} {configs : List FieldConfig}
  {h h' : Handling} {e : Event} {events : List Event} {b b' : Batch}

/-- Whether an event is a cancellation. -/
def Event.isCancel : Event → Bool
  | .cancel => true
  | _ => false

/-- The step that the batch takes in an event, if there is a batch. -/
def Event.work? : Event → Option Batch.Event
  | .work event => some event
  | .cancel => some .cancel
  | _ => none

/-- A batch was begun after some of the events, and has taken its steps in the others. -/
def Works (began : Bool) (base : Response) (configs : List FieldConfig) (events : List Event)
    (b : Batch) : Prop :=
  ∃ before after, events = before ++ after ∧
    (Batch.begin (Interceptor.batchHits base) configs (began || before.any Event.isCancel)).run?
      (after.filterMap Event.work?) = some b

/-- How a request stands: its stage, what the engine was asked, its batch and the counters. -/
inductive Standing (i : Interceptor) (r : Request)
    (engine : Request → Except Failure Response) (began : Bool) (metrics : Metrics)
    (events : List Event) : Stage → List Request → Option Batch → Metrics → Prop
  | asking : Standing i r engine began metrics events .asking [] none metrics
  | weighing :
      Standing i r engine began metrics events (.weighing (engine (i.asked r))) [i.asked r] none
        metrics
  /-- The answer followed without a batch. -/
  | finished (cancelled : Bool) (outcome : Except Failure Response)
      (hc : cancelled = true → (began || events.any Event.isCancel) = true)
      (hp : i.afterSearch r cancelled (engine (i.asked r)) = .finished outcome) :
      Standing i r engine began metrics events (.answered outcome) [i.asked r] none metrics
  | highlighting (cancelled : Bool) (base : Response) (configs : List FieldConfig) (b : Batch)
      (hp : i.afterSearch r cancelled (engine (i.asked r)) = .highlighting base configs)
      (hw : Works began base configs events b) :
      Standing i r engine began metrics events (.highlighting base) [i.asked r] (some b) metrics
  /-- The answer followed from the end of the batch. -/
  | merged (cancelled cancelled' : Bool) (base : Response) (configs : List FieldConfig)
      (b : Batch) (ending : Ending) (elapsedMs : UInt64)
      (hp : i.afterSearch r cancelled (engine (i.asked r)) = .highlighting base configs)
      (hw : Works began base configs events b) (hret : b.stage = .returned ending)
      (hc : cancelled' = true → (began || events.any Event.isCancel) = true) :
      Standing i r engine began metrics events
        (.answered (Interceptor.afterBatch base cancelled' elapsedMs ending.outcome))
        [i.asked r] (some b) (ending.record (Interceptor.batchHits base).length metrics)

/-- There is a batch exactly if a request with semantic directives has a response with hits,
configurations to highlight them with, and is not cancelled. -/
theorem highlighting_iff {cancelled : Bool} {found : Except Failure Response} :
    i.afterSearch r cancelled found = .highlighting base configs ↔
      i.concerns r = true ∧ found = .ok base ∧ (i.resolver.resolve r).1 = some configs ∧
        base.hits ≠ [] ∧ cancelled = false := by
  unfold Interceptor.afterSearch
  constructor
  · intro hp
    split at hp
    · next hc =>
      split at hp
      · next base' configs' hconfigs =>
        split at hp
        · cases hp
        · next hhits =>
          split at hp
          · cases hp
          · next hgo =>
            cases hp
            exact ⟨hc, rfl, hconfigs, fun h => hhits (List.isEmpty_iff.2 h),
              Bool.eq_false_iff.2 hgo⟩
      · cases hp
    · cases hp
  · -- and under these conditions each check is passed
    rintro ⟨hc, rfl, hconfigs, hhits, rfl⟩
    rw [if_pos hc, hconfigs]
    dsimp only
    rw [if_neg fun h => hhits (List.isEmpty_iff.1 h)]
    rfl

/-! ## Batches of requests -/

theorem Works.start (began : Bool) (base : Response) (configs : List FieldConfig)
    (events : List Event) :
    Works began base configs events
      (.begin (Interceptor.batchHits base) configs (began || events.any Event.isCancel)) :=
  ⟨events, [], by rw [List.append_nil], rfl⟩

/-- The batch takes the step that is its own in an event. -/
theorem Works.concat (hw : Works began base configs events b)
    (hstep : b.run? e.work?.toList = some b') : Works began base configs (events ++ [e]) b' := by
  obtain ⟨before, after, rfl, hrun⟩ := hw
  refine ⟨before, after ++ [e], by rw [List.append_assoc], ?_⟩
  have hlast : [e].filterMap Event.work? = e.work?.toList := by
    cases he : e.work? <;> simp [he]
  rw [List.filterMap_append, hlast, Batch.run?_append, hrun]
  exact hstep

/-- The batch has nothing to do with an event. -/
theorem Works.wait (hw : Works began base configs events b) (he : e.work? = none) :
    Works began base configs (events ++ [e]) b :=
  hw.concat (by rw [he]; rfl)

/-- A step that the batch takes is added to those that it has taken. -/
theorem Works.step {event : Batch.Event} (hw : Works began base configs events b)
    (he : e.work? = some event) (hstep : b.step? event = some b') :
    Works began base configs (events ++ [e]) b' := by
  refine hw.concat ?_
  rw [he]
  show (b.step? event).bind some = some b'
  rw [hstep]
  rfl

/-! ## One step -/

/-- A cancellation is seen in a longer row if it was seen before, or if it is the last event. -/
theorem any_isCancel_concat (events : List Event) (e : Event) :
    (began || (events ++ [e]).any Event.isCancel) =
      ((began || events.any Event.isCancel) || e.isCancel) := by
  rw [List.any_append, Bool.or_assoc]
  simp

/-- A cancellation seen before a step is still there after it. -/
theorem seen_concat {cancelled : Bool} (e : Event)
    (hc : cancelled = true → (began || events.any Event.isCancel) = true) :
    cancelled = true → (began || (events ++ [e]).any Event.isCancel) = true := by
  intro h
  rw [any_isCancel_concat, hc h]
  rfl

/-- What a step can do to a request. -/
inductive Step (i : Interceptor) (r : Request) (engine : Request → Except Failure Response)
    (h : Handling) : Event → Handling → Prop
  | search (hs : h.stage = .asking) :
      Step i r engine h .search
        { h with
          stage := .weighing (engine (i.asked r)), searched := h.searched ++ [i.asked r] }
  /-- Nothing is to be highlighted. -/
  | finish (found : Except Failure Response) (outcome : Except Failure Response)
      (hs : h.stage = .weighing found)
      (hp : i.afterSearch r h.cancelled found = .finished outcome) :
      Step i r engine h .weigh { h with stage := .answered outcome }
  /-- A batch begins. -/
  | highlight (found : Except Failure Response) (base : Response) (configs : List FieldConfig)
      (hs : h.stage = .weighing found)
      (hp : i.afterSearch r h.cancelled found = .highlighting base configs) :
      Step i r engine h .weigh
        { h with
          stage := .highlighting base
          batch := some (.begin (Interceptor.batchHits base) configs h.cancelled) }
  /-- The batch takes a step, and nothing else changes. -/
  | work (event : Batch.Event) (b b' : Batch) (hb : h.batch = some b) (hne : event ≠ .cancel)
      (hstep : b.step? event = some b') :
      Step i r engine h (.work event) { h with batch := some b' }
  | merge (elapsedMs : UInt64) (base : Response) (b : Batch) (ending : Ending)
      (hs : h.stage = .highlighting base) (hb : h.batch = some b)
      (hret : b.stage = .returned ending) :
      Step i r engine h (.merge elapsedMs) (h.merged base ending elapsedMs)
  | cancel :
      Step i r engine h .cancel
        { h with
          cancelled := true, batch := h.batch.map fun b => { b with cancelled := true } }

/-- What a step comes to, by its kind. The cases follow the stage and the event; in all others no
step is possible. -/
theorem Step.of_step? (hstep : h.step? i r engine e = some h') : Step i r engine h e h' := by
  cases e with
  | search =>
    simp only [step?] at hstep
    split at hstep
    · next hs =>
      cases hstep
      exact .search hs
    · cases hstep
  | weigh =>
    simp only [step?] at hstep
    split at hstep
    · next found hs =>
      cases hstep
      unfold weighed
      split
      · next outcome hp => exact .finish found outcome hs hp
      · next base configs hp => exact .highlight found base configs hs hp
    · cases hstep
  -- a cancellation reaches the batch through the request, never as a step of its own
  | work event =>
    by_cases hne : event = .cancel
    · subst hne
      cases hstep
    · cases hb : h.batch with
      | none =>
        cases event with
        | cancel => exact absurd rfl hne
        | _ => simp [step?, hb] at hstep
      | some b =>
        have hwork : (b.step? event).map (fun b' => { h with batch := some b' }) = some h' := by
          cases event with
          | cancel => exact absurd rfl hne
          | _ => simpa only [step?, hb] using hstep
        obtain ⟨b', hb', rfl⟩ := Option.map_eq_some_iff.1 hwork
        exact .work event b b' hb hne hb'
  | merge elapsedMs =>
    simp only [step?] at hstep
    split at hstep
    · next base b hs hb =>
      split at hstep
      · next ending hret =>
        cases hstep
        exact .merge elapsedMs base b ending hs hb hret
      · cases hstep
    · cases hstep
  | cancel =>
    cases hstep
    exact .cancel

/-- A request is cancelled by a cancellation only, and stays so. -/
theorem step_cancelled (hstep : h.step? i r engine e = some h') :
    h'.cancelled = (h.cancelled || e.isCancel) := by
  cases Step.of_step? hstep with
  | cancel => exact (Bool.or_true _).symm
  | _ => exact (Bool.or_false _).symm

/-- Where a request stands when its answer is weighed. -/
theorem standing_of_weighed (cancelled : Bool)
    (hc : cancelled = (began || events.any Event.isCancel)) :
    let h' := weighed { cancelled, metrics, searched := [i.asked r] }
      (i.afterSearch r cancelled (engine (i.asked r)))
    Standing i r engine began metrics events h'.stage h'.searched h'.batch h'.metrics := by
  unfold weighed
  cases hp : i.afterSearch r cancelled (engine (i.asked r)) with
  | finished outcome => exact .finished cancelled outcome (fun h => hc ▸ h) hp
  | highlighting base configs =>
    refine .highlighting cancelled base configs _ hp ?_
    rw [hc]
    exact Works.start began base configs events

/-- What is known of a request goes on to be known when another event only concerns others. -/
theorem Standing.wait {stage : Stage} {searched : List Request} {batch : Option Batch}
    {metrics' : Metrics}
    (hst : Standing i r engine began metrics events stage searched batch metrics')
    (he : e.work? = none) :
    Standing i r engine began metrics (events ++ [e]) stage searched batch metrics' := by
  cases hst with
  | asking => exact .asking
  | weighing => exact .weighing
  | finished cancelled outcome hc hp => exact .finished cancelled outcome (seen_concat e hc) hp
  | highlighting cancelled base configs b hp hw =>
    exact .highlighting cancelled base configs b hp (hw.wait he)
  | merged cancelled cancelled' base configs b ending elapsedMs hp hw hret hc =>
    exact .merged cancelled cancelled' base configs b ending elapsedMs hp (hw.wait he) hret
      (seen_concat e hc)

/-- The batch, if there is one, takes its step in an event. -/
theorem Standing.step {stage : Stage} {searched : List Request} {batch batch' : Option Batch}
    {metrics' : Metrics} {event : Batch.Event}
    (hst : Standing i r engine began metrics events stage searched batch metrics')
    (he : e.work? = some event)
    (hbatch : ∀ b, batch = some b → ∃ b', b.step? event = some b' ∧ batch' = some b')
    (hnone : batch = none → batch' = none) :
    Standing i r engine began metrics (events ++ [e]) stage searched batch' metrics' := by
  -- without a batch nothing changes but the row of events
  cases hst with
  | asking => rw [hnone rfl]; exact .asking
  | weighing => rw [hnone rfl]; exact .weighing
  | finished cancelled outcome hc hp =>
    rw [hnone rfl]
    exact .finished cancelled outcome (seen_concat e hc) hp
  | highlighting cancelled base configs b hp hw =>
    obtain ⟨b', hstep, rfl⟩ := hbatch b rfl
    exact .highlighting cancelled base configs b' hp (hw.step he hstep)
  | merged cancelled cancelled' base configs b ending elapsedMs hp hw hret hc =>
    obtain ⟨b', hstep, rfl⟩ := hbatch b rfl
    exact .merged cancelled cancelled' base configs b' ending elapsedMs hp (hw.step he hstep)
      ((Batch.Step.of_step? hstep).stage_of_returned hret) (seen_concat e hc)

/-- Every step keeps how a request stands. The cases are those of `Step`, and where the batch takes
a step its own events grow with those of the request. -/
theorem step_standing (hc : h.cancelled = (began || events.any Event.isCancel))
    (hst : Standing i r engine began metrics events h.stage h.searched h.batch h.metrics)
    (hstep : h.step? i r engine e = some h') :
    Standing i r engine began metrics (events ++ [e]) h'.stage h'.searched h'.batch
      h'.metrics := by
  obtain ⟨stage, cancelled, searched, batch, metrics'⟩ := h
  dsimp only at hc hst
  cases e with
  | search =>
    cases hst with
    | asking =>
      cases hstep
      exact .weighing
    | _ => cases hstep
  | weigh =>
    cases hst with
    | weighing =>
      cases hstep
      exact (standing_of_weighed cancelled hc).wait rfl
    | _ => cases hstep
  | work event =>
    cases Step.of_step? hstep with
    | work _ b b' hb _ hb' =>
      refine hst.step rfl (fun b₁ hb₁ => ?_) (fun hnone => ?_)
      · cases hb.symm.trans hb₁
        exact ⟨b', hb', rfl⟩
      · cases hb.symm.trans hnone
  | merge elapsedMs =>
    cases hst with
    | highlighting cancelled₁ base configs b hp hw =>
      -- the results are merged once the batch has returned
      cases hs : b.stage with
      | returned ending =>
        simp only [step?, hs] at hstep
        cases hstep
        exact .merged cancelled₁ cancelled base configs b ending elapsedMs hp (hw.wait rfl) hs
          (seen_concat _ fun h => hc ▸ h)
      | _ => simp [step?, hs] at hstep
    | _ => cases hstep
  | cancel =>
    cases hstep
    refine hst.step rfl (fun b hb => ⟨{ b with cancelled := true }, rfl, ?_⟩) (fun hnone => ?_)
    · show batch.map _ = _
      rw [hb]
      rfl
    · show batch.map _ = none
      rw [hnone]
      rfl

/-! ## Rows of steps -/

/-- A row of events may be cut in two. -/
theorem run?_append (h : Handling) (first second : List Event) :
    h.run? i r engine (first ++ second) =
      (h.run? i r engine first).bind (·.run? i r engine second) := by
  unfold run?
  rw [List.foldlM_append]
  rfl

theorem run?_singleton (h : Handling) (e : Event) :
    h.run? i r engine [e] = h.step? i r engine e := by
  unfold run?
  rw [List.foldlM_cons]
  exact Option.bind_fun_some _

theorem run?_concat {h₀ : Handling} (hrun : h₀.run? i r engine events = some h)
    (hstep : h.step? i r engine e = some h') :
    h₀.run? i r engine (events ++ [e]) = some h' := by
  rw [run?_append, hrun]
  exact (run?_singleton h e).trans hstep

/-- The event of a request in which its batch takes a step. -/
def Event.ofWork : Batch.Event → Event
  | .cancel => .cancel
  | event => .work event

/-- Only a cancellation cancels. -/
theorem cancelled_of_step {event : Batch.Event} (hstep : b.step? event = some b') :
    event = .cancel ∨ b'.cancelled = b.cancelled := by
  cases Batch.Step.of_step? hstep with
  | cancel => exact .inl rfl
  | _ => exact .inr rfl

/-- What the batch of a request can do, the request can do with it. -/
theorem run?_ofWork {more : List Batch.Event} (hb : h.batch = some b)
    (hc : h.cancelled = b.cancelled) (hrun : b.run? more = some b') :
    h.run? i r engine (more.map .ofWork) =
      some { h with batch := some b', cancelled := b'.cancelled } := by
  -- by induction on the steps of the batch, the request doing each of them with it
  induction more generalizing h b with
  | nil =>
    cases hrun
    rw [← hb, ← hc]
    rfl
  | cons event more ih =>
    obtain ⟨b₁, hstep, hrest⟩ := Option.bind_eq_some_iff.1 hrun
    have hwork : h.step? i r engine (.ofWork event) =
        some { h with batch := some b₁, cancelled := b₁.cancelled } := by
      rcases cancelled_of_step hstep with rfl | hsame
      · cases hstep
        simp only [Event.ofWork, step?, hb, Option.map_some]
      · rw [hsame, ← hc]
        cases event with
        | cancel =>
          -- the request was cancelled already, as its batch was
          cases hstep
          have hgone : h.cancelled = true := hc.trans hsame.symm
          simp only [Event.ofWork, step?, hb, hgone, Option.map_some]
        | _ => simp only [Event.ofWork, step?, hb, hstep, Option.map_some]
    have hdone := ih (h := { h with batch := some b₁, cancelled := b₁.cancelled }) rfl rfl hrest
    show h.run? i r engine ([.ofWork event] ++ more.map .ofWork) = _
    rw [run?_append, run?_singleton, hwork]
    exact hdone

/-- Once its batch has returned, a request can be answered. -/
theorem run?_merge {ending : Ending} (hs : h.stage = .highlighting base) (hb : h.batch = some b)
    (hret : b.stage = .returned ending) (elapsedMs : UInt64) :
    h.run? i r engine [.merge elapsedMs] = some (h.merged base ending elapsedMs) := by
  rw [run?_singleton]
  simp only [step?, hs, hb, hret]

/-- Every row of steps leads to where something is known of the request. -/
theorem run_standing (hrun : (begin began metrics).run? i r engine events = some h) :
    h.cancelled = (began || events.any Event.isCancel) ∧
      Standing i r engine began metrics events h.stage h.searched h.batch h.metrics := by
  refine Rows.induction (I := fun events h => h.cancelled = (began || events.any Event.isCancel) ∧
    Standing i r engine began metrics events h.stage h.searched h.batch h.metrics)
    ⟨(Bool.or_false began).symm, .asking⟩ ?_ hrun
  rintro events h e h' - ⟨hc, hst⟩ hstep
  refine ⟨?_, step_standing hc hst hstep⟩
  rw [step_cancelled hstep, hc, any_isCancel_concat]

/-- The batch of a request is cancelled when the request is. -/
theorem run_batch_cancelled (hrun : (begin began metrics).run? i r engine events = some h)
    (hb : h.batch = some b) : b.cancelled = h.cancelled := by
  refine Rows.induction (I := fun _ (h : Handling) => ∀ b, h.batch = some b →
    b.cancelled = h.cancelled) (fun _ hnone => by cases hnone) ?_ hrun b hb
  intro events h e h' _ hbefore hstep b hb
  cases Step.of_step? hstep with
  | search | finish | merge => exact hbefore b hb
  | highlight =>
    -- the batch begins as the request stands
    cases hb
    rfl
  | work event b₁ b₂ hb₁ hne hb₂ =>
    cases hb
    rcases cancelled_of_step hb₂ with hcancel | hsame
    · exact absurd hcancel hne
    · exact hsame.trans (hbefore b₁ hb₁)
  | cancel =>
    obtain ⟨b₁, -, rfl⟩ := Option.map_eq_some_iff.1 hb
    rfl

end SemanticHighlight.Handling
