import SemanticHighlight.Proofs.Handling.Answer

/-!
# How a request can end

A request is answered by one step of its own (`Answers`): the interceptor weighs what the engine
found, or it merges the results of the batch. `answer_cases` says what the answer is in either
case; the errors of a batch come from failed submissions alone (`Works.refusal`), since a call
that fails and a deadline that comes leave results behind.

Main statement: `run_outcomes` lists the answers that there can be, with what each tells about
the steps before it.
-/

namespace SemanticHighlight.Handling

variable {i : Interceptor} {r : Request} {engine : Request → Except Failure Response}
  {began : Bool} {metrics : Metrics} {base : Response} {configs : List FieldConfig}
  {h h' : Handling} {e last : Event} {events before : List Event} {b : Batch}
  {outcome : Except Failure Response}

/-! ## The step that answers -/

/-- Some steps leave a request without an answer, and the next one gives it. -/
def Answers (i : Interceptor) (r : Request) (engine : Request → Except Failure Response)
    (began : Bool) (metrics : Metrics) (before : List Event) (last : Event)
    (outcome : Except Failure Response) : Prop :=
  ∃ h h', (begin began metrics).run? i r engine before = some h ∧
    (∀ other, h.stage ≠ .answered other) ∧ h.step? i r engine last = some h' ∧
    h'.stage = .answered outcome

/-- An answer stands. -/
theorem answered_of_step (hs : h.stage = .answered outcome)
    (hstep : h.step? i r engine e = some h') : h'.stage = .answered outcome := by
  cases Step.of_step? hstep with
  | work | cancel => exact hs
  | search hs' | finish _ _ hs' | highlight _ _ _ hs' | merge _ _ _ _ hs' =>
    rw [hs] at hs'
    cases hs'

/-- Where there is an answer, one of the steps gave it. -/
theorem exists_answers (hrun : (begin began metrics).run? i r engine events = some h)
    (hs : h.stage = .answered outcome) :
    ∃ before last after, events = before ++ last :: after ∧
      Answers i r engine began metrics before last outcome := by
  refine Rows.induction (I := fun events (h : Handling) => h.stage = .answered outcome →
    ∃ before last after, events = before ++ last :: after ∧
      Answers i r engine began metrics before last outcome) (fun hnone => by cases hnone) ?_ hrun hs
  intro events h₁ e h hrun₁ ih hstep hs
  by_cases hopen : ∀ other, h₁.stage ≠ .answered other
  · exact ⟨events, e, [], rfl, h₁, h, hrun₁, hopen, hstep, hs⟩
  · -- the answer was there before the last step, which did not change it
    obtain ⟨other, hs₁⟩ : ∃ other, h₁.stage = .answered other := by
      simpa only [ne_eq, not_forall, not_not] using hopen
    have hsame := answered_of_step hs₁ hstep
    rw [hs] at hsame
    cases hsame
    obtain ⟨before, last, after, rfl, hanswers⟩ := ih hs₁
    exact ⟨before, last, after ++ [e], by simp, hanswers⟩

/-! ## Requests without a batch -/

/-- A request without a batch after a step had none before, and the step was none of a batch. -/
theorem batch_of_step (hstep : h.step? i r engine e = some h') (hb : h'.batch = none) :
    h.batch = none ∧ ∀ event, e ≠ .work event := by
  cases Step.of_step? hstep with
  | search | finish => exact ⟨hb, fun _ => Event.noConfusion⟩
  | highlight => cases hb
  | work => cases hb
  | merge elapsedMs base b ending hs hb' =>
    have hnone : h.batch = none := hb
    rw [hnone] at hb'
    cases hb'
  | cancel => exact ⟨Option.map_eq_none_iff.1 hb, fun _ => Event.noConfusion⟩

/-- A request without a batch has had no work done for it. -/
theorem run_without_batch (hrun : (begin began metrics).run? i r engine events = some h)
    (hb : h.batch = none) : ∀ event, Event.work event ∉ events := by
  refine Rows.induction (I := fun events (h : Handling) => h.batch = none →
    ∀ event, Event.work event ∉ events) (fun _ _ => List.not_mem_nil) ?_ hrun hb
  intro events h e h' _ ih hstep hb event hmem
  obtain ⟨hb₁, hne⟩ := batch_of_step hstep hb
  rcases List.mem_append.1 hmem with hmem | hmem
  · exact ih hb₁ event hmem
  · exact hne event (List.mem_singleton.1 hmem).symm

/-! ## What the answer is -/

/-- A cancellation is seen exactly if there was one. -/
theorem any_isCancel_iff : events.any Event.isCancel = true ↔ .cancel ∈ events := by
  rw [List.any_eq_true]
  constructor
  · rintro ⟨e, he, hcancel⟩
    cases e with
    | cancel => exact he
    | _ => cases hcancel
  · intro he
    exact ⟨.cancel, he, rfl⟩

theorem cancelled_iff (hrun : (begin began metrics).run? i r engine events = some h) :
    h.cancelled = true ↔ began = true ∨ .cancel ∈ events := by
  rw [(run_standing hrun).1, Bool.or_eq_true, any_isCancel_iff]

/-- A batch of a request is refused for what one of its submissions failed with. -/
theorem Works.refusal (hw : Works began base configs events b) {reason : Refusal}
    (hret : b.stage = .returned (.refused reason)) :
    Event.work (.submit (.error reason)) ∈ events ∧ ∀ n, reason ≠ .late n := by
  obtain ⟨before, after, rfl, hrun⟩ := hw
  have hrefusal : b.stage.refusal? = some reason := by rw [hret]; rfl
  obtain ⟨hmem, hnot⟩ := Batch.run_refusal hrun hrefusal
  obtain ⟨e, he, hwork⟩ := List.mem_filterMap.1 hmem
  refine ⟨List.mem_append_right _ ?_, hnot⟩
  cases e with
  | work event =>
    cases hwork
    exact he
  | _ => cases hwork

/-- What an answer without a batch is. -/
theorem finished_cases {cancelled : Bool} {found : Except Failure Response}
    (hc : i.concerns r = true) (hp : i.afterSearch r cancelled found = .finished outcome) :
    outcome = found ∨
      (∃ base, found = .ok base) ∧ cancelled = true ∧
        outcome = .error Interceptor.cancelledBefore := by
  unfold Interceptor.afterSearch at hp
  rw [if_pos hc] at hp
  split at hp
  · next base configs hconfigs =>
    -- three checks in a row: hits to highlight, a cancellation by then, and else a batch
    split at hp
    · cases hp
      exact .inl rfl
    · split at hp
      · next hgone =>
        cases hp
        exact .inr ⟨⟨base, rfl⟩, hgone, rfl⟩
      · cases hp
  · cases hp
    exact .inl rfl

/-- How an answer comes about: from weighing what the engine found, without a batch, or from
the end of a batch. -/
theorem answer_cases (ha : Answers i r engine began metrics before last outcome) :
    ∃ h h', (begin began metrics).run? i r engine before = some h ∧
      (begin began metrics).run? i r engine (before ++ [last]) = some h' ∧
      h'.stage = .answered outcome ∧
      ((last = .weigh ∧ h'.batch = none ∧
          i.afterSearch r h.cancelled (engine (i.asked r)) = .finished outcome) ∨
        ∃ base configs b ending elapsedMs, last = .merge elapsedMs ∧
          i.afterSearch r false (engine (i.asked r)) = .highlighting base configs ∧
          Works began base configs before b ∧ b.stage = .returned ending ∧
          outcome = Interceptor.afterBatch base h.cancelled elapsedMs ending.outcome) := by
  obtain ⟨h, h', hrun, hopen, hstep, hs'⟩ := ha
  refine ⟨h, h', hrun, run?_concat hrun hstep, hs', ?_⟩
  obtain ⟨-, hst⟩ := run_standing hrun
  -- only two steps give an answer: weighing the response, and merging the results
  cases Step.of_step? hstep with
  | search | highlight => cases hs'
  | work | cancel => exact absurd hs' (hopen outcome)
  | finish found outcome' hs hp =>
    cases hs'
    rw [hs] at hst
    generalize h.searched = searched, h.batch = batch, h.metrics = metrics' at hst ⊢
    cases hst
    exact .inl ⟨rfl, rfl, hp⟩
  | merge elapsedMs base b ending hs hb hret =>
    cases hs'
    rw [hs, hb] at hst
    generalize h.searched = searched, h.metrics = metrics' at hst
    cases hst with
    | highlighting cancelled base configs b hp hw =>
      obtain ⟨-, -, -, -, rfl⟩ := highlighting_iff.1 hp
      exact .inr ⟨base, configs, b, ending, elapsedMs, rfl, hp, hw, hret, rfl⟩

/-- By the time a request is answered the engine has been asked once. -/
theorem searched_of_answered (hrun : (begin began metrics).run? i r engine events = some h)
    (hs : h.stage = .answered outcome) : h.searched = [i.asked r] := by
  obtain ⟨-, hst⟩ := run_standing hrun
  rw [hs] at hst
  generalize h.searched = searched, h.batch = batch, h.metrics = metrics' at hst ⊢
  cases hst <;> rfl

/-- Where nothing can be highlighted, the answer follows from what the engine found, without
any work and without a trace in the counters. -/
theorem answered_without_batch
    (hrun : (begin began metrics).run? i r engine events = some h)
    (hs : h.stage = .answered outcome)
    (hnothing : ∀ cancelled base configs,
      i.afterSearch r cancelled (engine (i.asked r)) ≠ .highlighting base configs) :
    (∃ cancelled, i.afterSearch r cancelled (engine (i.asked r)) = .finished outcome) ∧
      h.metrics = metrics ∧ ∀ event, Event.work event ∉ events := by
  have hwork := run_without_batch hrun
  obtain ⟨-, hst⟩ := run_standing hrun
  rw [hs] at hst
  generalize h.searched = searched, h.batch = batch, h.metrics = metrics' at hst hwork ⊢
  cases hst with
  | finished cancelled _ _ hp => exact ⟨⟨cancelled, hp⟩, rfl, hwork rfl⟩
  | merged cancelled _ base configs _ _ _ hp => exact absurd hp (hnothing cancelled base configs)

/-- A request that passes through is answered as the engine answers it. -/
theorem passed_through (hrun : (begin began metrics).run? i r engine events = some h)
    (hs : h.stage = .answered outcome) (hc : i.concerns r = false) :
    outcome = engine r ∧ h.searched = [r] ∧ h.metrics = metrics ∧
      ∀ event, Event.work event ∉ events := by
  have hasked : i.asked r = r := by
    unfold Interceptor.asked
    rw [hc]
    rfl
  -- a request that is not concerned is asked as it is, and its response is passed on
  have hpass : ∀ cancelled, i.afterSearch r cancelled (engine (i.asked r)) =
      .finished (engine (i.asked r)) := by
    intro cancelled
    unfold Interceptor.afterSearch
    rw [hc]
    rfl
  obtain ⟨⟨cancelled, hp⟩, hmetrics, hwork⟩ := answered_without_batch hrun hs
    fun cancelled _ _ hp => by rw [hpass cancelled] at hp; cases hp
  have hsearched := searched_of_answered hrun hs
  rw [hpass cancelled] at hp
  cases hp
  rw [hasked] at hsearched ⊢
  exact ⟨rfl, hsearched, hmetrics, hwork⟩

/-- An error of the engine is the answer. -/
theorem search_failed (hrun : (begin began metrics).run? i r engine events = some h)
    (hs : h.stage = .answered outcome) (hc : i.concerns r = true) {failure : Failure}
    (hfound : engine (i.asked r) = .error failure) :
    outcome = .error failure ∧ h.metrics = metrics ∧ ∀ event, Event.work event ∉ events := by
  have hnothing : ∀ cancelled base configs,
      i.afterSearch r cancelled (engine (i.asked r)) ≠ .highlighting base configs := by
    intro cancelled base configs hp
    obtain ⟨-, hok, -⟩ := highlighting_iff.1 hp
    rw [hfound] at hok
    cases hok
  obtain ⟨⟨cancelled, hp⟩, hmetrics, hwork⟩ := answered_without_batch hrun hs hnothing
  refine ⟨?_, hmetrics, hwork⟩
  rcases finished_cases hc hp with rfl | ⟨⟨base, hok⟩, -⟩
  · exact hfound
  · rw [hfound] at hok
    cases hok

/-- How a request can fail for which the engine has found a response: it is cancelled by then,
or a task of its batch was turned away from a pool that is shut down or saturated. -/
inductive Justified (began : Bool) (before : List Event) : Failure → Prop
  | cancelled (message : String) (hc : began = true ∨ .cancel ∈ before) :
      Justified began before (.cancelled message)
  | refused (message : String) (reason : Refusal)
      (hr : (∃ text, reason.failure = .invalid text) ∨ ∃ text, reason.failure = .exhausted text)
      (he : .work (.submit (.error reason)) ∈ before) :
      Justified began before (.batch message reason.failure)

/-- What a request can be answered for which the engine has found a response: the response
itself, nothing having been done for it, or the response with the results of a batch merged
into it, if the request is not cancelled by then. -/
inductive Fitting (began : Bool) (base : Response) (before : List Event) (last : Event) :
    Response → Prop
  | found (hw : ∀ event, .work event ∉ before) : Fitting began base before last base
  | merged (results : List FieldResult) (elapsedMs : UInt64) (hl : last = .merge elapsedMs)
      (hb : began = false) (hc : .cancel ∉ before) :
      Fitting began base before last (base.merge results elapsedMs)

/-- An answer after a response of the engine is one of those that there can be. -/
theorem Answers.response (ha : Answers i r engine began metrics before last outcome)
    (hc : i.concerns r = true) (hfound : engine (i.asked r) = .ok base) :
    (∀ failure, outcome = .error failure → Justified began before failure) ∧
      ∀ response, outcome = .ok response → Fitting began base before last response := by
  obtain ⟨h, h', hrun, hrun', hs', hcases⟩ := answer_cases ha
  have hcancelled := cancelled_iff hrun
  rw [hfound] at hcases
  rcases hcases with ⟨rfl, hbatch, hp⟩ |
    ⟨base', configs, b, ending, elapsedMs, rfl, hp, hw, hret, rfl⟩
  · have hwork : ∀ event, Event.work event ∉ before := fun event hmem =>
      run_without_batch hrun' hbatch event (List.mem_append_left _ hmem)
    rcases finished_cases hc hp with rfl | ⟨-, hgone, rfl⟩
    · refine ⟨fun failure hfailure => ?_, fun response hresponse => ?_⟩
      · cases hfailure
      · cases hresponse
        exact .found hwork
    · refine ⟨fun failure hfailure => ?_, fun response hresponse => ?_⟩
      · cases hfailure
        exact .cancelled _ (hcancelled.1 hgone)
      · cases hresponse
  · obtain ⟨-, hsame, -, -, -⟩ := highlighting_iff.1 hp
    cases hsame
    unfold Interceptor.afterBatch
    cases hok : ending.outcome with
    | error reason =>
      -- only a batch that was refused ends in an error
      have hrefused : ending = .refused reason := by
        cases ending with
        | refused reason' =>
          cases hok
          rfl
        | _ => cases hok
      obtain ⟨hmem, hnot⟩ := hw.refusal (hrefused ▸ hret)
      refine ⟨fun failure hfailure => ?_, fun response hresponse => ?_⟩
      · cases hfailure
        refine .refused _ reason ?_ hmem
        cases reason with
        | shutDown => exact .inl ⟨_, rfl⟩
        | saturated n => exact .inr ⟨_, rfl⟩
        | late n => exact absurd rfl (hnot n)
      · cases hresponse
    | ok results =>
      dsimp only
      by_cases hgone : h.cancelled = true
      · rw [if_pos hgone]
        refine ⟨fun failure hfailure => ?_, fun response hresponse => ?_⟩
        · cases hfailure
          exact .cancelled _ (hcancelled.1 hgone)
        · cases hresponse
      · rw [if_neg hgone]
        have hkept := fun hbefore => hgone (hcancelled.2 hbefore)
        refine ⟨fun failure hfailure => ?_, fun response hresponse => ?_⟩
        · cases hfailure
        · cases hresponse
          exact .merged results elapsedMs rfl (Bool.eq_false_iff.2 fun hb => hkept (.inl hb))
            fun hmem => hkept (.inr hmem)

/-- **How a request can end.** A request that passes through is answered as the engine answers
it, with no work done and no counter changed. For any other the engine is asked once, without
the semantic directives, and its error is the answer, again with no work done. If the engine
finds a response, then an error of the answer is justified by a cancellation before the step
that answers or by a task turned away from the pool, and a response that has results merged
into it was answered without such a cancellation; so the calls of the backend and the deadline
never make an error. From wherever a request stands it can be answered. -/
theorem run_outcomes (hrun : (begin began metrics).run? i r engine events = some h) :
    (∀ outcome, h.stage = .answered outcome →
      (i.enabled = false ∨ r.hasSemantic = false →
        outcome = engine r ∧ h.searched = [r] ∧ h.metrics = metrics ∧
          ∀ event, .work event ∉ events) ∧
      (i.enabled = true → r.hasSemantic = true →
        h.searched = [r.plain] ∧
        (∀ failure, engine r.plain = .error failure →
          outcome = .error failure ∧ h.metrics = metrics ∧ ∀ event, .work event ∉ events) ∧
        ∀ base, engine r.plain = .ok base →
          ∃ before last after, events = before ++ last :: after ∧
            Answers i r engine began metrics before last outcome ∧
            (∀ failure, outcome = .error failure → Justified began before failure) ∧
            (∀ response, outcome = .ok response → Fitting began base before last response) ∧
            (began = false → .cancel ∉ before →
              (∀ reason, .work (.submit (.error reason)) ∈ before → ∃ n, reason = .late n) →
              ∃ response, outcome = .ok response))) ∧
    ∃ more h' outcome, h.run? i r engine more = some h' ∧ h'.stage = .answered outcome := by
  refine ⟨fun outcome hs => ⟨fun hpass => ?_, fun henabled hsemantic => ?_⟩, ?_⟩
  · apply passed_through hrun hs
    unfold Interceptor.concerns
    rcases hpass with hoff | hlexical
    · rw [hoff, Bool.false_and]
    · rw [hlexical, Bool.and_false]
  · have hc : i.concerns r = true := by
      unfold Interceptor.concerns
      rw [henabled, hsemantic]
      rfl
    have hasked : i.asked r = r.plain := by
      unfold Interceptor.asked
      rw [if_pos hc]
    rw [← hasked]
    refine ⟨searched_of_answered hrun hs, fun failure => search_failed hrun hs hc,
      fun base hfound => ?_⟩
    obtain ⟨before, last, after, hevents, ha⟩ := exists_answers hrun hs
    obtain ⟨herror, hok⟩ := ha.response hc hfound
    refine ⟨before, last, after, hevents, ha, herror, hok, fun hbegan hcancel hlate => ?_⟩
    cases houtcome : outcome with
    | ok response => exact ⟨response, rfl⟩
    | error failure =>
      cases herror failure houtcome with
      | cancelled message hgone =>
        rcases hgone with hgone | hgone
        · rw [hbegan] at hgone
          cases hgone
        · exact absurd hgone hcancel
      | refused message reason hr he =>
        -- being late is neither of the two
        obtain ⟨n, rfl⟩ := hlate reason he
        rcases hr with ⟨text, hr⟩ | ⟨text, hr⟩ <;> cases hr
  · obtain ⟨more, h', outcome, hmore, hs, -⟩ := run_finish hrun fun _ _ => .broken
    exact ⟨more, h', outcome, hmore, hs⟩

/-- A call breaks off, and then a task finds the pool saturated. -/
def turnedAway : List Event :=
  [.search, .weigh] ++
  ([.visit, .submit (.ok ()), .start 0 0, .reply 0 .broken 2, .visit,
    .submit (.error (.saturated 1)), .report 0, .fail] : List Batch.Event).map .work ++
  [.merge 9]

/-- A call breaks off and a task is turned away from a saturated pool, which is what the request
fails with. -/
theorem run_outcomes_turnedAway :
    ∃ h, (begin false {}).run? markingInterceptor markedRequest (fun _ => .ok foundResponse)
        turnedAway = some h ∧
      h.stage = .answered (.error (Interceptor.batchRefused (.saturated 1))) ∧
      h.searched = [markedRequest.plain] ∧
      ∃ before last after, turnedAway = before ++ last :: after ∧
        Justified false before (Interceptor.batchRefused (.saturated 1)) := by
  have hrun : ((begin false {}).run? markingInterceptor markedRequest
      (fun _ => .ok foundResponse) turnedAway).map (·.stage) =
        some (.answered (.error (Interceptor.batchRefused (.saturated 1)))) := by
    rfl
  obtain ⟨h, hrun, hstage⟩ := Option.map_eq_some_iff.1 hrun
  have henabled : markingInterceptor.enabled = true := rfl
  have hsemantic : markedRequest.hasSemantic = true := by decide
  -- the request is concerned and the engine had a response, so the third case applies
  obtain ⟨hsearched, -, hfound⟩ :=
    ((run_outcomes hrun).1 _ hstage).2 henabled hsemantic
  obtain ⟨before, last, after, hevents, -, herror, -⟩ := hfound foundResponse rfl
  exact ⟨h, hrun, hstage, hsearched, before, last, after, hevents, herror _ rfl⟩

end SemanticHighlight.Handling
