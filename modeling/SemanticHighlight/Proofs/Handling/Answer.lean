import SemanticHighlight.Proofs.Batch.Calm
import SemanticHighlight.Proofs.Handling.Standing
import SemanticHighlight.Proofs.Merge.Texts

/-!
# What a request is answered when nothing goes wrong

`textsOf` is what a hit is to get: for each configuration, in order, the text with which the
backend ends the call about the hit's own text. Main statement (`calm_answer`): a request with
semantic directives that is handled in calm is answered with the engine's response, in which
each hit has these texts, and the engine was asked once. The order in which the tasks of the
batch end does not come into it. `run_finish` shows that an answer can always be reached, and
`Calm.finish` that it can be reached in calm.
-/

namespace SemanticHighlight

namespace Handling

/-- What a configuration brings a hit: its field and the text of the reply to its call. -/
def textAlone (hit : HitData) (c : FieldConfig) (reply : InferenceRequest → Inference.Reply) :
    Option (String × String) :=
  match Batch.requestAlone? hit c with
  | none => none
  | some q =>
    match reply q with
    | .text text => if text = "" then none else some (c.field, text)
    | _ => none

/-- What the configurations bring the hit at a position, in order. -/
def textsOf (replies : Batch.Replies) (configs : List FieldConfig) (k : Nat) (hit : HitData) :
    List (String × String) :=
  configs.zipIdx.filterMap fun (c, j) => textAlone hit c (replies (k * configs.length + j))

/-- A response with each hit given its texts, and the given time. -/
def withTexts (replies : Batch.Replies) (configs : List FieldConfig) (base : Response)
    (took : UInt64) : Response :=
  { base with
    took
    page := { base.page with
      hits := base.hits.mapIdx fun k hit =>
        Merge.withTexts hit (textsOf replies configs k hit.data) } }

/-! ## The entries of a batch -/

/-- What a result brings a hit does not depend on its duration. -/
theorem entry_timeless (r : FieldResult) :
    r.timeless.isApplicable = r.isApplicable ∧ r.timeless.hitIndex = r.hitIndex ∧
      r.timeless.entry = r.entry :=
  ⟨rfl, rfl, rfl⟩

/-- The result for a hit alone carries its position, however it came out. -/
theorem hitIndex_resultAlone (k : Nat) (hit : HitData) (c : FieldConfig)
    (reply : InferenceRequest → Inference.Reply) :
    (Batch.resultAlone k hit c reply).hitIndex = k := by
  unfold Batch.resultAlone
  cases Batch.requestAlone? hit c with
  | none => rfl
  | some q =>
    dsimp only
    split
    · split <;> rfl
    · rfl
    · rfl

/-- The result of a hit and a configuration by themselves has the text they come to. -/
theorem entry_resultAlone (k : Nat) (hit : HitData) (c : FieldConfig)
    (reply : InferenceRequest → Inference.Reply) :
    ((Option.guard FieldResult.isApplicable (Batch.resultAlone k hit c reply)).map
      FieldResult.entry) = textAlone hit c reply := by
  unfold Batch.resultAlone textAlone
  cases Batch.requestAlone? hit c with
  | none => rfl
  | some q =>
    dsimp only
    cases reply q with
    | text text =>
      dsimp only
      -- an empty text is a failure, and brings the hit nothing
      by_cases ht : text = ""
      · rw [if_pos ht, if_pos ht]
        rfl
      · rw [if_neg ht, if_neg ht]
        simp [Option.guard, FieldResult.isApplicable, FieldResult.succeeded, FieldResult.entry, ht]
    | fault fault => rfl
    | broken => rfl

/-- The applicable results of a hit, visited by itself, have its texts. -/
theorem entries_row (replies : Batch.Replies) (configs : List FieldConfig) (k : Nat)
    (hit : HitData) :
    ((configs.mapIdx fun j c => Batch.resultAlone k hit c
      (replies (k * configs.length + j))).filter FieldResult.isApplicable).map FieldResult.entry =
      textsOf replies configs k hit := by
  unfold textsOf
  rw [List.mapIdx_eq_zipIdx_map, ← List.filterMap_eq_filter, List.map_filterMap,
    List.filterMap_map]
  congr 1
  funext ⟨c, j⟩
  exact entry_resultAlone k hit c _

/-- The entries of an undisturbed batch are the texts of the hits. -/
theorem entries_of_undisturbed {hits : List HitData} {configs : List FieldConfig}
    {replies : Batch.Replies} {events : List Batch.Event} {b : Batch}
    {results : List FieldResult}
    (hu : Batch.Undisturbed hits configs replies events b results) {k : Nat} {hit : HitData}
    (hk : hits[k]? = some hit) : Merge.entries results k = textsOf replies configs k hit := by
  rw [← Merge.entries_map entry_timeless, hu.map_timeless]
  unfold Merge.entries Batch.oneByOne
  rw [Merge.applied_flatten ?_ hits hk]
  · exact entries_row replies configs k hit
  · intro k hit r hr
    obtain ⟨j, hj, rfl⟩ := List.mem_mapIdx.1 hr
    exact hitIndex_resultAlone ..

/-- The batch is over the data of the hits, at their positions. -/
theorem getElem?_batchHits {base : Response} {k : Nat} {hit : Hit}
    (hk : base.hits[k]? = some hit) :
    (Interceptor.batchHits base)[k]? = some hit.data := by
  unfold Interceptor.batchHits
  rw [List.getElem?_map, hk]
  rfl

section Merged

variable {base : Response} {configs : List FieldConfig} {replies : Batch.Replies}
  {events : List Batch.Event} {b : Batch} {results : List FieldResult}

/-- Merging the results of an undisturbed batch gives each hit the texts that its own pairs bring.
-/
theorem merge_of_undisturbed
    (hu : Batch.Undisturbed (Interceptor.batchHits base) configs replies events b results)
    (took : UInt64) : base.merge results took = withTexts replies configs base took := by
  rw [Response.merge_eq]
  unfold withTexts
  have hhits : (base.hits.mapIdx fun k hit => Merge.withTexts hit (Merge.entries results k)) =
      base.hits.mapIdx fun k hit => Merge.withTexts hit (textsOf replies configs k hit.data) := by
    refine List.mapIdx_eq_mapIdx_iff.2 fun k hk => ?_
    rw [entries_of_undisturbed hu (getElem?_batchHits (List.getElem?_eq_getElem hk))]
  rw [hhits]

/-- The hits that are left as they are: those that no configuration brings a text. -/
theorem untouched_of_undisturbed
    (hu : Batch.Undisturbed (Interceptor.batchHits base) configs replies events b results) :
    base.untouched results =
      base.hits.mapIdx fun k hit => (textsOf replies configs k hit.data).isEmpty := by
  rw [Response.untouched_eq]
  refine List.mapIdx_eq_mapIdx_iff.2 fun k hk => ?_
  rw [← entries_of_undisturbed hu (getElem?_batchHits (List.getElem?_eq_getElem hk))]
  unfold Merge.entries
  rw [List.isEmpty_map]

end Merged

/-! ## Calm requests -/

/-- Whether an event is neither a cancellation nor a deadline nor a failed submission. -/
def Event.IsCalm : Event → Prop
  | .cancel => False
  | .work event => event.IsCalm
  | _ => True

/-- Whether an event that ends a call of the backend ends it as given. -/
def Event.Heeds (replies : Batch.Replies) (pairs : List Pair) : Event → Prop
  | .work event => event.Heeds replies pairs
  | _ => True

instance : DecidablePred Event.IsCalm
  | .cancel => .isFalse id
  | .work event => inferInstanceAs (Decidable event.IsCalm)
  | .search | .weigh | .merge _ => .isTrue trivial

instance (replies : Batch.Replies) (pairs : List Pair) :
    DecidablePred (Event.Heeds replies pairs)
  | .work event => inferInstanceAs (Decidable (event.Heeds replies pairs))
  | .search | .weigh | .merge _ | .cancel => .isTrue trivial

/-- The pairs of a batch over a response, if there is one. -/
def pairs (i : Interceptor) (r : Request) (base : Response) : List Pair :=
  Pair.all (Interceptor.batchHits base) ((i.resolver.resolve r).1.getD [])

/-- A row of steps for a request with semantic directives, for which the engine has a
response, in which nothing goes wrong and the backend ends its calls as given. -/
structure Calm (i : Interceptor) (r : Request) (engine : Request → Except Failure Response)
    (base : Response) (replies : Batch.Replies) (metrics : Metrics) (events : List Event)
    (h : Handling) : Prop where
  enabled : i.enabled = true
  semantic : r.hasSemantic = true
  found : engine r.plain = .ok base
  run : (begin false metrics).run? i r engine events = some h
  calm : ∀ e ∈ events, e.IsCalm
  heeds : ∀ e ∈ events, e.Heeds replies (pairs i r base)

variable {i : Interceptor} {r : Request} {engine : Request → Except Failure Response}
  {base : Response} {configs : List FieldConfig} {replies : Batch.Replies} {metrics : Metrics}
  {began : Bool} {h h' : Handling} {e : Event} {events : List Event} {b : Batch}

/-- Without a batch, a response is answered as it is. -/
theorem finished_of_afterSearch {found : Response} {outcome : Except Failure Response}
    (hc : i.concerns r = true)
    (hp : i.afterSearch r false (.ok found) = .finished outcome) :
    outcome = .ok found ∧ ((i.resolver.resolve r).1 = none ∨ found.hits = []) := by
  unfold Interceptor.afterSearch at hp
  rw [if_pos hc] at hp
  -- nothing is cancelled, so there were no configurations or no hits
  cases hconfigs : (i.resolver.resolve r).1 with
  | none =>
    rw [hconfigs] at hp
    cases hp
    exact ⟨rfl, .inl rfl⟩
  | some configs =>
    rw [hconfigs] at hp
    dsimp only at hp
    split at hp
    · next hhits =>
      cases hp
      exact ⟨rfl, .inr (List.isEmpty_iff.1 hhits)⟩
    · cases hp

theorem pairs_eq (hconfigs : (i.resolver.resolve r).1 = some configs) :
    pairs i r base = Pair.all (Interceptor.batchHits base) configs := by
  unfold pairs
  rw [hconfigs]
  rfl

theorem isCalm_ofWork {event : Batch.Event} : (Event.ofWork event).IsCalm ↔ event.IsCalm := by
  cases event <;> exact Iff.rfl

theorem heeds_ofWork {event : Batch.Event} {pairs : List Pair} :
    (Event.ofWork event).Heeds replies pairs ↔ event.Heeds replies pairs := by
  cases event <;> exact Iff.rfl

/-! ## Requests can be answered -/

/-- Whether calm steps can lead a request to an answer, in which the backend ends its calls as
given. -/
def CanFinish (i : Interceptor) (r : Request) (engine : Request → Except Failure Response)
    (replies : Batch.Replies) (h : Handling) : Prop :=
  ∃ more h' outcome, h.run? i r engine more = some h' ∧ h'.stage = .answered outcome ∧
    ∀ e ∈ more, e.IsCalm ∧ ∀ base, engine (i.asked r) = .ok base →
      e.Heeds replies (pairs i r base)

/-- A calm step of the interceptor leads to where a request can be answered from. -/
theorem CanFinish.after (hnext : CanFinish i r engine replies h')
    (hstep : h.step? i r engine e = some h') (hcalm : e.IsCalm)
    (hheeds : ∀ pairs, e.Heeds replies pairs) : CanFinish i r engine replies h := by
  obtain ⟨more, h'', outcome, hrun, hs, hall⟩ := hnext
  refine ⟨e :: more, h'', outcome, ?_, hs, ?_⟩
  · show (h.step? i r engine e).bind (·.run? i r engine more) = some h''
    rw [hstep]
    exact hrun
  · exact List.forall_mem_cons.2 ⟨⟨hcalm, fun _ _ => hheeds _⟩, hall⟩

/-- A request whose batch is at work can be answered: the batch goes on to its end, and then
its results are merged. -/
theorem finish_highlighting (hrun : (begin began metrics).run? i r engine events = some h)
    {base' : Response} (hs : h.stage = .highlighting base') (replies : Batch.Replies) :
    CanFinish i r engine replies h := by
  obtain ⟨-, hst⟩ := run_standing hrun
  have hcancelled := fun b => run_batch_cancelled hrun (b := b)
  obtain ⟨stage, cancelled, searched, batch, metrics'⟩ := h
  dsimp only at hs hst hcancelled
  subst hs
  cases hst with
  | highlighting c base' configs b hp hw =>
    obtain ⟨-, hfound, hconfigs, -, -⟩ := highlighting_iff.1 hp
    obtain ⟨before, after, -, hbatch⟩ := hw
    obtain ⟨more, b', ending, hmore, hret, hall⟩ := Batch.run_finish hbatch replies
    -- the batch takes its remaining steps inside the request, which is still highlighting
    let worked : Handling :=
      ⟨.highlighting base', b'.cancelled, [i.asked r], some b', metrics⟩
    have hwork : Handling.run? i r engine ⟨.highlighting base', cancelled, [i.asked r], some b,
        metrics⟩ (more.map .ofWork) = some worked :=
      run?_ofWork rfl (hcancelled b rfl).symm hmore
    have hmerge : worked.run? i r engine [.merge 0] = some (worked.merged base' ending 0) :=
      run?_merge rfl rfl hret 0
    refine ⟨more.map .ofWork ++ [.merge 0], worked.merged base' ending 0, _, ?_, rfl, ?_⟩
    · rw [run?_append, hwork]
      exact hmerge
    · refine List.forall_mem_append.2 ⟨fun e he => ?_, ?_⟩
      · obtain ⟨event, hevent, rfl⟩ := List.mem_map.1 he
        obtain ⟨hcalm, hheeds⟩ := hall event hevent
        refine ⟨isCalm_ofWork.2 hcalm, fun base hbase => ?_⟩
        cases hfound.symm.trans hbase
        rw [heeds_ofWork, pairs_eq hconfigs]
        exact hheeds
      · exact List.forall_mem_singleton.2 ⟨trivial, fun _ _ => trivial⟩

/-- Every row of steps can be continued, by calm ones, until the request is answered. -/
theorem run_finish (hrun : (begin began metrics).run? i r engine events = some h)
    (replies : Batch.Replies) : CanFinish i r engine replies h := by
  -- from the response of the engine on, whichever way it is weighed
  have hweighing : ∀ {events : List Event} {h : Handling} {found : Except Failure Response},
      (begin began metrics).run? i r engine events = some h → h.stage = .weighing found →
        CanFinish i r engine replies h := by
    intro events h found hrun hs
    have hstep : h.step? i r engine .weigh =
        some (h.weighed (i.afterSearch r h.cancelled found)) := by
      simp only [step?, hs]
    have hnext : CanFinish i r engine replies
        (h.weighed (i.afterSearch r h.cancelled found)) := by
      have hrun' := run?_concat hrun hstep
      cases hp : i.afterSearch r h.cancelled found with
      | finished outcome =>
        exact ⟨[], _, outcome, rfl, rfl, fun _ he => absurd he List.not_mem_nil⟩
      | highlighting base configs =>
        rw [hp] at hrun'
        exact finish_highlighting hrun' rfl replies
    exact hnext.after hstep trivial fun _ => trivial
  cases hs : h.stage with
  | asking =>
    have hstep : h.step? i r engine .search = some { h with
        stage := .weighing (engine (i.asked r)), searched := h.searched ++ [i.asked r] } := by
      simp only [step?, hs]
    exact (hweighing (run?_concat hrun hstep) rfl).after hstep trivial fun _ => trivial
  | weighing found => exact hweighing hrun hs
  | highlighting base => exact finish_highlighting hrun hs replies
  | answered outcome => exact ⟨[], h, outcome, rfl, hs, fun _ he => absurd he List.not_mem_nil⟩

namespace Calm

theorem concerns (hcalm : Calm i r engine base replies metrics events h) :
    i.concerns r = true := by
  unfold Interceptor.concerns
  rw [hcalm.enabled, hcalm.semantic]
  rfl

theorem asked (hcalm : Calm i r engine base replies metrics events h) : i.asked r = r.plain := by
  unfold Interceptor.asked
  rw [if_pos hcalm.concerns]

/-- Nothing in a calm row of steps is a cancellation. -/
theorem not_cancelled (hcalm : Calm i r engine base replies metrics events h) :
    ∀ e ∈ events, e.isCancel = false := by
  intro e he
  cases hc : e with
  | cancel =>
    have hcalm := hcalm.calm e he
    rw [hc] at hcalm
    exact hcalm.elim
  | _ => rfl

/-- So none is seen in it. -/
theorem any_isCancel (hcalm : Calm i r engine base replies metrics events h) :
    events.any Event.isCancel = false := by
  rw [List.any_eq_false]
  intro e he
  rw [hcalm.not_cancelled e he]
  simp

/-- What would only be so if there had been a cancellation is not so. -/
theorem not_seen (hcalm : Calm i r engine base replies metrics events h) {cancelled : Bool}
    (hc : cancelled = true → (false || events.any Event.isCancel) = true) :
    cancelled = false := by
  rw [hcalm.any_isCancel] at hc
  cases cancelled with
  | false => rfl
  | true => exact (hc rfl).symm

/-- A request in calm stands where nothing is cancelled. -/
theorem standing (hcalm : Calm i r engine base replies metrics events h) :
    h.cancelled = false ∧
      Standing i r engine false metrics events h.stage h.searched h.batch h.metrics := by
  obtain ⟨hc, hst⟩ := run_standing hcalm.run
  rw [hcalm.any_isCancel] at hc
  exact ⟨hc, hst⟩

/-- A calm row that goes on calmly is calm. -/
theorem concat (hcalm : Calm i r engine base replies metrics events h)
    (more : List Event) (hmore : ∀ e ∈ more, e.IsCalm)
    (hheeds : ∀ e ∈ more, e.Heeds replies (pairs i r base))
    (hrun : h.run? i r engine more = some h') :
    Calm i r engine base replies metrics (events ++ more) h' := by
  refine ⟨hcalm.enabled, hcalm.semantic, hcalm.found, ?_, ?_, ?_⟩
  · rw [run?_append]
    exact Option.bind_eq_some_iff.2 ⟨h, hcalm.run, hrun⟩
  · exact List.forall_mem_append.2 ⟨hcalm.calm, hmore⟩
  · exact List.forall_mem_append.2 ⟨hcalm.heeds, hheeds⟩

/-- The batch of a calm request is calm. -/
theorem batch_calm (hcalm : Calm i r engine base replies metrics events h)
    (hconfigs : (i.resolver.resolve r).1 = some configs)
    (hw : Works false base configs events b) :
    ∃ worked, Batch.Calm (Interceptor.batchHits base) configs replies worked b := by
  obtain ⟨before, after, rfl, hrun⟩ := hw
  have hbefore : before.any Event.isCancel = false := by
    rw [List.any_eq_false]
    intro e he
    rw [hcalm.not_cancelled e (List.mem_append_left _ he)]
    simp
  rw [hbefore, Bool.false_or] at hrun
  -- a step of the batch is a step of the request that is no cancellation
  have hstep : ∀ event ∈ after.filterMap Event.work?, Event.work event ∈ before ++ after := by
    intro event hevent
    obtain ⟨e, he, hwork⟩ := List.mem_filterMap.1 hevent
    cases e with
    | work event' =>
      cases hwork
      exact List.mem_append_right _ he
    | cancel =>
      have hnot := hcalm.not_cancelled .cancel (List.mem_append_right _ he)
      exact absurd hnot (by simp [Event.isCancel])
    | _ => cases hwork
  refine ⟨after.filterMap Event.work?, hrun, fun event hevent => ?_, fun event hevent => ?_⟩
  · exact hcalm.calm _ (hstep event hevent)
  · have hheeds := hcalm.heeds _ (hstep event hevent)
    rw [pairs_eq hconfigs] at hheeds
    exact hheeds

/-- How a calm request is answered: as it is, or from an undisturbed batch. -/
theorem answered (hcalm : Calm i r engine base replies metrics events h)
    {outcome : Except Failure Response} (hs : h.stage = .answered outcome) :
    h.searched = [r.plain] ∧
      ((outcome = .ok base ∧ ((i.resolver.resolve r).1 = none ∨ base.hits = [])) ∨
        ∃ configs b worked results took, (i.resolver.resolve r).1 = some configs ∧
          base.hits ≠ [] ∧ h.batch = some b ∧
          Batch.Undisturbed (Interceptor.batchHits base) configs replies worked b results ∧
          outcome = .ok (base.merge results took)) := by
  obtain ⟨-, hst⟩ := hcalm.standing
  obtain ⟨stage, cancelled, searched, batch, metrics'⟩ := h
  dsimp only at hs hst ⊢
  subst hs
  cases hst with
  | finished c _ hc hp =>
    rw [hcalm.asked, hcalm.found] at hp
    cases hcalm.not_seen hc
    exact ⟨by rw [hcalm.asked], .inl (finished_of_afterSearch hcalm.concerns hp)⟩
  | merged c c' base' configs b ending elapsedMs hp hw hret hc =>
    -- the batch was calm as the request was, and so it is undisturbed
    rw [hcalm.asked, hcalm.found] at hp
    obtain ⟨-, hfound, hconfigs, hhits, -⟩ := highlighting_iff.1 hp
    cases hfound
    obtain ⟨worked, hbatch⟩ := hcalm.batch_calm hconfigs hw
    obtain ⟨results, hok, hu⟩ := hbatch.undisturbed hret
    cases hcalm.not_seen hc
    refine ⟨by rw [hcalm.asked], .inr ⟨configs, b, worked, results, elapsedMs, hconfigs, hhits,
      rfl, hu, ?_⟩⟩
    rw [hok]
    rfl

/-- A calm row of steps can be continued until the request is answered. -/
theorem finish (hcalm : Calm i r engine base replies metrics events h) :
    ∃ more h' outcome, Calm i r engine base replies metrics (events ++ more) h' ∧
      h'.stage = .answered outcome := by
  obtain ⟨more, h', outcome, hmore, hs, hall⟩ := run_finish hcalm.run replies
  have hfound : engine (i.asked r) = .ok base := by rw [hcalm.asked]; exact hcalm.found
  exact ⟨more, h', outcome, hcalm.concat more (fun e he => (hall e he).1)
    (fun e he => (hall e he).2 base hfound) hmore, hs⟩

end Calm

/-- **What a request is answered when nothing goes wrong.** In whatever order the tasks of
its batch are started, answered and reported, the engine is asked once, for the request
without its semantic directives. Its response is the answer if there is nothing to highlight;
else the answer is the response with each hit given the texts that the configurations bring
it, and the given time. Hits that none brings a text are left as they are, and the backend
was asked what visiting the hits one by one would ask. Such an answer can always be
reached. -/
theorem calm_answer (hcalm : Calm i r engine base replies metrics events h) :
    (∀ outcome, h.stage = .answered outcome →
      h.searched = [r.plain] ∧
      ((i.resolver.resolve r).1 = none ∨ base.hits = [] → outcome = .ok base) ∧
      ∀ configs, (i.resolver.resolve r).1 = some configs → base.hits ≠ [] →
        ∃ results took b, outcome = .ok (base.merge results took) ∧
          base.merge results took = withTexts replies configs base took ∧
          base.untouched results =
            base.hits.mapIdx (fun k hit => (textsOf replies configs k hit.data).isEmpty) ∧
          (∀ (k : Nat) (hit : Hit), base.hits[k]? = some hit →
            textsOf replies configs k hit.data = [] →
            (base.merge results took).hits[k]? = some hit) ∧
          h.batch = some b ∧
          b.asked.Perm (Batch.askedOneByOne (Interceptor.batchHits base) configs)) ∧
    ∃ more h' outcome, Calm i r engine base replies metrics (events ++ more) h' ∧
      h'.stage = .answered outcome := by
  refine ⟨fun outcome hs => ?_, hcalm.finish⟩
  obtain ⟨hsearched, hanswer⟩ := hcalm.answered hs
  refine ⟨hsearched, fun hnothing => ?_, fun configs hconfigs hhits => ?_⟩
  · rcases hanswer with ⟨hok, -⟩ | ⟨configs, b, worked, results, took, hconfigs, hhits, -⟩
    · exact hok
    · -- there would be configurations and hits
      rcases hnothing with hnone | hempty
      · rw [hnone] at hconfigs
        cases hconfigs
      · exact absurd hempty hhits
  · rcases hanswer with ⟨-, hnone | hempty⟩ |
      ⟨configs', b, worked, results, took, hconfigs', -, hbatch, hu, hok⟩
    · rw [hnone] at hconfigs
      cases hconfigs
    · exact absurd hempty hhits
    · cases hconfigs.symm.trans hconfigs'
      -- what the batch returned is merged, whatever the order of its calls was
      have hmerge := merge_of_undisturbed hu took
      refine ⟨results, took, b, hok, hmerge, untouched_of_undisturbed hu, ?_, hbatch, ?_⟩
      · intro k hit hk hnone
        rw [hmerge]
        show (base.hits.mapIdx _)[k]? = some hit
        rw [List.getElem?_mapIdx, hk]
        show some (Merge.withTexts hit _) = some hit
        rw [hnone, Merge.withTexts_nil]
      · rw [← Batch.filterMap_request?_all]
        exact hu.asked_perm

/-- A field that two models are to highlight, and one that the engine is to. -/
def markedRequest : Request :=
  let model (id : String) : Directive :=
    { Directive.plain "t" with options := .ofEntries [("model_id", .string id)] }
  { source := some {
      query := some (.term "t" "q" (.one .single))
      highlight := some { Block.empty with
        directives := [model "first", .plain "u", model "second"] } } }

/-- An interceptor with the extractors that there are. -/
def markingInterceptor : Interceptor := ⟨true, .builtin, "<em>", "</em>"⟩

/-- Three hits, of which the second has a blank text and the third a fragment already. -/
def foundResponse : Response :=
  { took := 3
    page := ⟨none, none, ["x", " ", "y"].map fun text =>
      ⟨{ source := some [("t", .string text)], highlight := .ofEntries [("t", ["old"])] }, []⟩⟩ }

/-- The second model finds something in both texts, the first in neither. -/
def secondReplies : Batch.Replies := fun _ q =>
  if q.modelId = "second" then .text (q.preTag ++ q.context ++ q.postTag) else .broken

/-- The task of the last hit ends first. -/
def lastFirst : List Event :=
  [.search, .weigh] ++
  ([.visit, .submit (.ok ()), .visit, .submit (.ok ()), .visit, .visit, .visit,
    .submit (.ok ()), .visit, .submit (.ok ()), .start 5 0, .visit, .look,
    .reply 5 (.text "<em>y</em>") 4, .report 5, .start 1 0, .receive, .look, .start 0 0,
    .start 4 0, .reply 4 .broken 1, .reply 1 (.text "<em>x</em>") 6, .report 1, .report 4,
    .receive, .look, .receive, .look, .idle, .reply 0 .broken 9, .report 0, .look, .receive,
    .look, .settle, .conclude 10 10000000] : List Batch.Event).map .work ++
  [.merge 14]

/-- The response with what the second model finds. -/
def markedResponse : Response :=
  { foundResponse with
    took := 14
    page := ⟨none, none, [("x", ["<em>x</em>"]), (" ", ["old"]), ("y", ["<em>y</em>"])].map
      fun (text, fragments) =>
        ⟨{ source := some [("t", .string text)], highlight := .ofEntries [("t", fragments)] }, []⟩⟩ }

/-- The task of the last hit ends first, one hit has a blank text, and another keeps the fragment
that it had. -/
theorem calm_answer_lastFirst :
    ∃ h, Calm markingInterceptor markedRequest (fun _ => .ok foundResponse) foundResponse
        secondReplies {} lastFirst h ∧
      h.stage = .answered (.ok markedResponse) ∧ h.searched = [markedRequest.plain] := by
  have hrun : ((begin false {}).run? markingInterceptor markedRequest
      (fun _ => .ok foundResponse) lastFirst).map (·.stage) =
        some (.answered (.ok markedResponse)) := by
    rfl
  obtain ⟨h, hrun, hstage⟩ := Option.map_eq_some_iff.1 hrun
  have hcalm : Calm markingInterceptor markedRequest (fun _ => .ok foundResponse) foundResponse
      secondReplies {} lastFirst h :=
    ⟨rfl, by decide, rfl, hrun, by decide, by decide⟩
  exact ⟨h, hcalm, hstage, ((calm_answer hcalm).1 _ hstage).1⟩

end Handling

end SemanticHighlight
