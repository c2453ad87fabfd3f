import SemanticHighlight.Proofs.Batch.Calls
import SemanticHighlight.Proofs.Batch.Positions

/-!
# A batch is what one visit after another would be

Many tasks of a batch run at once, and their results arrive in any order. `oneByOne` is the
plain version: it visits the hits, and for each the configurations, and makes each result
from its own pair alone. Main statement (`undisturbed_eq_oneByOne`): a batch that neither
the deadline nor a cancellation disturbs returns these very results, up to how long each
took, and asks the backend exactly once for each pair with a text.
-/

namespace SemanticHighlight

/-- The result but for how long it took. -/
def FieldResult.timeless (r : FieldResult) : FieldResult := { r with durationMs := 0 }

namespace Batch

/-- How the backend ends the call of each slot. -/
abbrev Replies := Nat → InferenceRequest → Inference.Reply

/-- Whether a step that ends a call ends it as given. One that is lost has no reply. -/
def Event.Heeds (replies : Replies) (pairs : List Pair) : Event → Prop
  | .reply slot answer _ =>
    ∀ p q, pairs[slot]? = some p → p.request? = some q → answer = replies slot q
  | .lose _ => False
  | _ => True

instance (replies : Replies) (pairs : List Pair) : DecidablePred (Event.Heeds replies pairs)
  | .reply slot answer _ =>
    decidable_of_iff (∀ q ∈ pairs[slot]?.bind Pair.request?, answer = replies slot q) <| by
      show _ ↔ ∀ p q, _
      constructor
      · intro h p q hp hq
        exact h q (Option.bind_eq_some_iff.2 ⟨p, hp, hq⟩)
      · intro h q hq
        obtain ⟨p, hp, hq⟩ := Option.bind_eq_some_iff.1 hq
        exact h p q hp hq
  | .lose _ => .isFalse id
  | .visit | .submit _ | .fail | .look | .expire | .receive | .idle | .disconnect | .drain
  | .settle | .conclude _ _ | .start _ _ | .report _ | .cancel => .isTrue trivial

/-! ## The plain version -/

/-- What is asked for a hit and a configuration: the model, the query text and the tags of
the configuration, about the text of the hit. Nothing is asked without a text, or about a
blank one. -/
def requestAlone? (hit : HitData) (c : FieldConfig) : Option InferenceRequest :=
  match hit.sourceText? c.field with
  | none => none
  | some context =>
    if Text.allBlank context then none
    else some ⟨c.modelId, c.queryText, context, c.preTag, c.postTag⟩

/-- The result of a hit and a configuration by themselves. -/
def resultAlone (i : Nat) (hit : HitData) (c : FieldConfig)
    (reply : InferenceRequest → Inference.Reply) : FieldResult :=
  match requestAlone? hit c with
  | none => .failed i c.field "field text missing or empty" 0
  | some q =>
    match reply q with
    | .text text =>
      if text = "" then .failed i c.field "model returned no highlighted text" 0
      else .succeeded i c.field text 0
    | .fault fault => .failed i c.field fault.full 0
    | .broken => .failed i c.field "inference panicked" 0

/-- The results of visiting the hits, and for each the configurations, one by one. -/
def oneByOne (replies : Replies) (hits : List HitData) (configs : List FieldConfig) :
    List FieldResult :=
  (hits.mapIdx fun i hit => configs.mapIdx fun j c =>
    resultAlone i hit c (replies (i * configs.length + j))).flatten

/-- What is asked when visiting them one by one. -/
def askedOneByOne (hits : List HitData) (configs : List FieldConfig) : List InferenceRequest :=
  (hits.map fun hit => configs.filterMap (requestAlone? hit)).flatten

/-- What a pair asks the backend is what is asked for its hit and configuration alone. -/
theorem request?_ofHit (i : Nat) (hit : HitData) (c : FieldConfig) :
    (Pair.ofHit i hit c).request? = requestAlone? hit c := by
  unfold Pair.request? Pair.ofHit requestAlone?
  cases hit.sourceText? c.field with
  | none => rfl
  | some context =>
    cases hb : Text.allBlank context with
    | true => simp [Option.filter, hb]
    | false => simp [Option.filter, hb]

/-- Something is asked for a pair exactly if it has a text. -/
theorem request?_eq_none_iff {p : Pair} : p.request? = none ↔ p.context = none := by
  unfold Pair.request?
  exact Option.map_eq_none_iff

theorem exists_request {p : Pair} (hc : p.context ≠ none) : ∃ q, p.request? = some q :=
  Option.ne_none_iff_exists'.1 fun hq => hc (request?_eq_none_iff.1 hq)

/-- But for its duration, a result is what it would be at no time. -/
theorem timeless_result (p : Pair) (reply : Inference.Reply) (durationMs : UInt64) :
    (p.result reply durationMs).timeless = p.result reply 0 := by
  unfold Pair.result
  cases reply with
  | text text =>
    dsimp only
    split <;> rfl
  | fault fault => rfl
  | broken => rfl

/-- The result of a pair, by itself, in terms of what its task would do. -/
theorem resultAlone_eq (i : Nat) (hit : HitData) (c : FieldConfig)
    (reply : InferenceRequest → Inference.Reply) :
    resultAlone i hit c reply = match (Pair.ofHit i hit c).request? with
      | none => (Pair.ofHit i hit c).skipped
      | some q => (Pair.ofHit i hit c).result (reply q) 0 := by
  unfold resultAlone
  rw [request?_ofHit]
  cases requestAlone? hit c with
  | none => rfl
  | some q => rfl

/-- Every hit has a result for each configuration. -/
theorem oneByOne_rows (replies : Replies) (hits : List HitData) (configs : List FieldConfig) :
    ∀ row ∈ hits.mapIdx fun i hit => configs.mapIdx fun j c =>
      resultAlone i hit c (replies (i * configs.length + j)), row.length = configs.length := by
  intro row hrow
  obtain ⟨i, hi, rfl⟩ := List.mem_mapIdx.1 hrow
  exact List.length_mapIdx

theorem length_oneByOne (replies : Replies) (hits : List HitData) (configs : List FieldConfig) :
    (oneByOne replies hits configs).length = hits.length * configs.length := by
  unfold oneByOne
  rw [length_flatten_rows (oneByOne_rows replies hits configs), List.length_mapIdx]

/-- The result for a hit and a configuration stands at the position of their pair. -/
theorem getElem?_oneByOne (replies : Replies) {hits : List HitData}
    {configs : List FieldConfig} {i j : Nat} (hi : i < hits.length) (hj : j < configs.length) :
    (oneByOne replies hits configs)[i * configs.length + j]? =
      some (resultAlone i hits[i] configs[j] (replies (i * configs.length + j))) := by
  unfold oneByOne
  rw [getElem?_flatten_rows hj (oneByOne_rows replies hits configs) i, List.getElem?_mapIdx,
    List.getElem?_eq_getElem hi]
  show (configs.mapIdx _)[j]? = _
  rw [List.getElem?_mapIdx, List.getElem?_eq_getElem hj]
  rfl

/-- What is asked for all pairs is what visiting them one by one would ask. -/
theorem filterMap_request?_all (hits : List HitData) (configs : List FieldConfig) :
    (Pair.all hits configs).filterMap Pair.request? = askedOneByOne hits configs := by
  unfold Pair.all askedOneByOne
  rw [List.filterMap_flatten]
  congr 1
  refine List.ext_getElem? fun i => ?_
  rw [List.getElem?_map, List.getElem?_mapIdx, List.getElem?_map, Option.map_map]
  congr 1
  funext hit
  show (configs.map (Pair.ofHit i hit)).filterMap Pair.request? = _
  rw [List.filterMap_map]
  congr 1
  funext c
  exact request?_ofHit i hit c

/-- Going through the positions of a list is going through the list. -/
theorem filterMap_range_getElem? {α β : Type} (xs : List α) (f : α → Option β) :
    ((List.range xs.length).filter fun k => (xs[k]?.bind f).isSome).filterMap
      (fun k => xs[k]?.bind f) = xs.filterMap f := by
  -- the positions stand for the entries, one each
  have hmap : (List.range xs.length).map (xs[·]?) = xs.map some := by
    refine List.ext_getElem? fun k => ?_
    rw [List.getElem?_map, List.getElem?_map]
    rcases Nat.lt_or_ge k xs.length with hk | hk
    · rw [List.getElem?_range hk]
      show some xs[k]? = xs[k]?.map some
      rw [List.getElem?_eq_getElem hk]
      rfl
    · rw [List.getElem?_eq_none_iff.2 (by rw [List.length_range]; exact hk),
        List.getElem?_eq_none_iff.2 hk]
      rfl
  have hite : (fun k : Nat => if (xs[k]?.bind f).isSome = true then xs[k]?.bind f else none) =
      fun k => xs[k]?.bind f := by
    funext k
    cases xs[k]?.bind f <;> rfl
  rw [List.filterMap_filter, hite]
  calc (List.range xs.length).filterMap (fun k => xs[k]?.bind f)
      = ((List.range xs.length).map (xs[·]?)).filterMap (·.bind f) := by
        rw [List.filterMap_map]
        rfl
    _ = (xs.map some).filterMap (·.bind f) := by rw [hmap]
    _ = xs.filterMap f := by
        rw [List.filterMap_map]
        rfl

/-! ## Undisturbed batches -/

/-- A row of steps in which a batch returns results, undisturbed: the caller does not see the
deadline come, the request is not cancelled, and the backend ends its calls as given, so that
no task is lost. -/
structure Undisturbed (hits : List HitData) (configs : List FieldConfig) (replies : Replies)
    (events : List Event) (b : Batch) (results : List FieldResult) : Prop where
  run : (begin hits configs false).run? events = some b
  heeds : ∀ e ∈ events, e.Heeds replies (Pair.all hits configs)
  returned : ∃ ending, b.stage = .returned ending ∧ ending.outcome = .ok results
  inTime : b.expired = false
  goesOn : b.cancelled = false

namespace Undisturbed

variable {hits : List HitData} {configs : List FieldConfig} {replies : Replies}
  {events : List Event} {b : Batch} {results : List FieldResult}

theorem pairs_eq (h : Undisturbed hits configs replies events b results) :
    b.pairs = Pair.all hits configs :=
  (run_invariant h.run).pairs_eq

/-- In an undisturbed run no submission has failed. -/
theorem notRefused (h : Undisturbed hits configs replies events b results) :
    b.stage.isRefused = false := by
  obtain ⟨ending, hret, hok⟩ := h.returned
  rw [hret]
  cases ending with
  | vacant | completed => rfl
  | refused reason => cases hok

/-- No task broke off. -/
theorem not_mem_lost (h : Undisturbed hits configs replies events b results) (slot : Nat) :
    slot ∉ b.lost :=
  fun hlost => h.heeds _ (run_lost h.run hlost)

/-- There is a slot for each pair, and the results are what the slots hold. -/
theorem results_eq (h : Undisturbed hits configs replies events b results) :
    b.slots.length = b.pairs.length ∧ ∃ waitedMs, results = b.results waitedMs := by
  obtain ⟨ending, hret, hok⟩ := h.returned
  exact results_of_outcome (run_invariant h.run) hret hok

theorem length_eq (h : Undisturbed hits configs replies events b results) :
    results.length = hits.length * configs.length := by
  obtain ⟨ending, hret, hok⟩ := h.returned
  exact length_of_outcome (run_invariant h.run) hret hok

/-- The slot of a pair has been made. -/
theorem lt_slots (h : Undisturbed hits configs replies events b results) {k : Nat} {p : Pair}
    (hp : (Pair.all hits configs)[k]? = some p) : k < b.slots.length := by
  rw [h.results_eq.1, h.pairs_eq]
  exact (List.getElem?_eq_some_iff.1 hp).1

/-- Every slot is filled, and no task is left. -/
theorem filled (h : Undisturbed hits configs replies events b results) {k : Nat}
    (hk : k < b.slots.length) : ∃ r, b.slots[k]? = some (some r) := by
  have hinv := run_invariant h.run
  obtain ⟨ending, hret, hok⟩ := h.returned
  have hs := List.getElem?_eq_getElem hk
  cases hslot : b.slots[k] with
  | some r => exact ⟨r, by rw [hs, hslot]⟩
  | none =>
    -- an open slot would still wait for a task, but the caller has stopped receiving
    rw [hslot] at hs
    have hmem := hinv.covered.outstanding (by rw [hret]; rfl) h.notRefused h.inTime h.goesOn hs
    cases ending with
    | vacant =>
      rw [h.results_eq.1, hinv.told.vacant hret] at hk
      exact absurd hk (Nat.not_lt_zero k)
    | completed results' elapsedNs =>
      have hlost := hinv.covered.stopped h.inTime h.goesOn (by rw [hret]; rfl) k hmem
      exact absurd hlost (h.not_mem_lost k)
    | refused reason => cases hok

/-- The batch is not given up. -/
theorem notAbandoned (h : Undisturbed hits configs replies events b results) :
    b.abandoned = false := by
  have hall : b.isFull = true := by
    unfold isFull
    rw [List.all_eq_true]
    intro slot hmem
    obtain ⟨k, hk, rfl⟩ := List.getElem_of_mem hmem
    obtain ⟨r, hr⟩ := h.filled hk
    rw [List.getElem?_eq_getElem hk] at hr
    rw [Option.some.inj hr]
    rfl
  cases ha : b.abandoned with
  | false => rfl
  | true =>
    have hmissing := (run_invariant h.run).told.missing ha h.notRefused
    rw [hall] at hmissing
    exact absurd hmissing (by simp)

/-- Each result is that of its own pair. -/
theorem entry (h : Undisturbed hits configs replies events b results) {k : Nat} {p : Pair}
    (hp : (Pair.all hits configs)[k]? = some p) :
    ∃ r, results[k]? = some r ∧ r.timeless = match p.request? with
      | none => p.skipped
      | some q => p.result (replies k q) 0 := by
  obtain ⟨-, waitedMs, rfl⟩ := h.results_eq
  have hp' : b.pairs[k]? = some p := by
    rw [h.pairs_eq]
    exact hp
  obtain ⟨r, hr⟩ := h.filled (h.lt_slots hp)
  refine ⟨r, ?_, ?_⟩
  · rw [getElem?_results hp' hr waitedMs]
    rfl
  · -- the result was made by skipping or by a reply, because nothing was cancelled or given up
    cases run_origin h.run (.inl hr) with
    | skipped p' hpk hc =>
      cases hp'.symm.trans hpk
      rw [request?_eq_none_iff.2 hc]
      rfl
    | replied p' reply durationMs hpk hc he =>
      cases hp'.symm.trans hpk
      obtain ⟨q, hq⟩ := exists_request hc
      rw [timeless_result, hq, h.heeds _ he p q hp hq]
    | cancelled p' ms hpk hc hb => exact absurd (hb.symm.trans h.goesOn) (by simp)
    | abandoned p' ms hpk hc hb => exact absurd (hb.symm.trans h.notAbandoned) (by simp)

/-- Exactly the slots of pairs with a text have called the backend. -/
theorem mem_calls_iff (h : Undisturbed hits configs replies events b results) {slot : Nat} :
    slot ∈ b.calls ↔
      ∃ p q, (Pair.all hits configs)[slot]? = some p ∧ p.request? = some q := by
  have hcalled := run_called h.run
  constructor
  · intro hmem
    obtain ⟨-, p, hp, hc⟩ := hcalled.hasText slot hmem
    obtain ⟨q, hq⟩ := exists_request hc
    rw [h.pairs_eq] at hp
    exact ⟨p, q, hp, hq⟩
  · rintro ⟨p, q, hp, hq⟩
    have hc : p.context ≠ none := by
      intro hc
      rw [request?_eq_none_iff.2 hc] at hq
      cases hq
    -- the slot is filled at the end, and without a call it could not be
    have hfilled := h.filled (h.lt_slots hp)
    rw [← h.pairs_eq] at hp
    exact hcalled.every h.goesOn h.notAbandoned slot p hp hc (.inr hfilled)

/-- What the backend is asked is what visiting the pairs one by one would ask. -/
theorem asked_perm (h : Undisturbed hits configs replies events b results) :
    b.asked.Perm ((Pair.all hits configs).filterMap Pair.request?) := by
  have hnodup := (run_called h.run).nodup
  -- the slots that called are those of pairs with a text, in some order
  have hperm : b.calls.Perm ((List.range (Pair.all hits configs).length).filter fun slot =>
      ((Pair.all hits configs)[slot]?.bind Pair.request?).isSome) := by
    refine (List.perm_ext_iff_of_nodup hnodup (List.nodup_range.filter _)).2 fun slot => ?_
    rw [h.mem_calls_iff, List.mem_filter, List.mem_range, Option.isSome_iff_exists]
    constructor
    · rintro ⟨p, q, hp, hq⟩
      exact ⟨(List.getElem?_eq_some_iff.1 hp).1, q, Option.bind_eq_some_iff.2 ⟨p, hp, hq⟩⟩
    · rintro ⟨-, q, hq⟩
      obtain ⟨p, hp, hpq⟩ := Option.bind_eq_some_iff.1 hq
      exact ⟨p, q, hp, hpq⟩
  unfold asked
  rw [h.pairs_eq, ← filterMap_range_getElem? (Pair.all hits configs) Pair.request?]
  exact hperm.filterMap _

/-- The results, up to how long each took. -/
theorem map_timeless (h : Undisturbed hits configs replies events b results) :
    results.map FieldResult.timeless = oneByOne replies hits configs := by
  refine List.ext_getElem? fun k => ?_
  rw [List.getElem?_map]
  rcases Nat.lt_or_ge k (hits.length * configs.length) with hk | hk
  · obtain ⟨i, hi, j, hj, rfl⟩ := position_cases hk
    obtain ⟨r, hr, htimeless⟩ := h.entry (Pair.getElem?_all hi hj)
    rw [getElem?_oneByOne replies hi hj, hr, resultAlone_eq]
    exact congrArg some htimeless
  · rw [List.getElem?_eq_none_iff.2 (by rw [h.length_eq]; exact hk),
      List.getElem?_eq_none_iff.2 (by rw [length_oneByOne]; exact hk)]
    rfl

/-- The calls of a pair: one if it has a text, else none. -/
theorem count_calls (h : Undisturbed hits configs replies events b results) {i j : Nat}
    (hi : i < hits.length) (hj : j < configs.length) :
    b.calls.count (i * configs.length + j) =
      if (requestAlone? hits[i] configs[j]).isSome then 1 else 0 := by
  have hmem : i * configs.length + j ∈ b.calls ↔
      (requestAlone? hits[i] configs[j]).isSome = true := by
    rw [h.mem_calls_iff, ← request?_ofHit i, Option.isSome_iff_exists]
    constructor
    · rintro ⟨p, q, hp, hq⟩
      rw [Pair.getElem?_all hi hj] at hp
      cases hp
      exact ⟨q, hq⟩
    · rintro ⟨q, hq⟩
      exact ⟨_, q, Pair.getElem?_all hi hj, hq⟩
  rw [(run_called h.run).nodup.count]
  simp only [hmem]

/-- The result of a slot depends on its pair and the reply to its call alone. -/
theorem entry_congr (h : Undisturbed hits configs replies events b results)
    {hits' : List HitData} {configs' : List FieldConfig} {replies' : Replies}
    {events' : List Event} {b' : Batch} {results' : List FieldResult}
    (h' : Undisturbed hits' configs' replies' events' b' results') {k : Nat}
    (hpair : (Pair.all hits configs)[k]? = (Pair.all hits' configs')[k]?)
    (hreply : replies k = replies' k) :
    results[k]?.map FieldResult.timeless = results'[k]?.map FieldResult.timeless := by
  cases hp : (Pair.all hits configs)[k]? with
  | some p =>
    obtain ⟨r, hr, ht⟩ := h.entry hp
    obtain ⟨r', hr', ht'⟩ := h'.entry (hpair.symm.trans hp)
    rw [hr, hr']
    show some r.timeless = some r'.timeless
    rw [ht, ht', hreply]
  | none =>
    -- past the pairs, neither batch has a result
    have hk := List.getElem?_eq_none_iff.1 hp
    have hk' := List.getElem?_eq_none_iff.1 (hpair.symm.trans hp)
    rw [Pair.length_all] at hk hk'
    rw [List.getElem?_eq_none_iff.2 (by rw [h.length_eq]; exact hk),
      List.getElem?_eq_none_iff.2 (by rw [h'.length_eq]; exact hk')]

end Undisturbed

/-- **An undisturbed batch is what one visit after another would be.** In whatever order its
tasks are started, answered and reported, and whatever the backend's replies, its results are
those of visiting the pairs one by one, up to how long each took. The backend is called once
for each pair with a text, for no other, and is asked what one visit after another would ask.
So no pair has a say in the result of another: two undisturbed batches that have the same
pair at a position, and the same reply to its call, have the same result there. -/
theorem undisturbed_eq_oneByOne {hits : List HitData} {configs : List FieldConfig}
    {replies : Replies} {events : List Event} {b : Batch} {results : List FieldResult}
    (h : Undisturbed hits configs replies events b results) :
    results.map FieldResult.timeless = oneByOne replies hits configs ∧
      (∀ (i j : Nat) (hi : i < hits.length) (hj : j < configs.length),
        b.calls.count (i * configs.length + j) =
          if (requestAlone? hits[i] configs[j]).isSome then 1 else 0) ∧
      (∀ slot ∈ b.calls, slot < hits.length * configs.length) ∧
      b.asked.Perm (askedOneByOne hits configs) ∧
      ∀ (hits' : List HitData) (configs' : List FieldConfig) (replies' : Replies)
        (events' : List Event) (b' : Batch) (results' : List FieldResult),
        Undisturbed hits' configs' replies' events' b' results' →
        ∀ k : Nat, (Pair.all hits configs)[k]? = (Pair.all hits' configs')[k]? →
          replies k = replies' k →
          results[k]?.map FieldResult.timeless = results'[k]?.map FieldResult.timeless := by
  refine ⟨h.map_timeless, fun i j hi hj => h.count_calls hi hj, fun slot hmem => ?_, ?_,
    fun hits' configs' replies' events' b' results' h' k hpair hreply =>
      h.entry_congr h' hpair hreply⟩
  · obtain ⟨p, -, hp, -⟩ := h.mem_calls_iff.1 hmem
    rw [← Pair.length_all]
    exact (List.getElem?_eq_some_iff.1 hp).1
  · rw [← filterMap_request?_all]
    exact h.asked_perm

/-- Two calls break down, one finds nothing, and the last has a text. -/
def mixedReplies : Replies
  | 0, _ => .broken
  | 1, _ => .fault (.plain "no such model")
  | 4, _ => .text ""
  | _, q => .text (q.preTag ++ q.context ++ q.postTag)

/-- The tasks end in the opposite order of their start, one of them before the submissions
are over. -/
def backwards : List Event :=
  [.visit, .submit (.ok ()), .start 0 0, .visit, .submit (.ok ()), .visit, .visit, .visit,
   .submit (.ok ()), .visit, .submit (.ok ()), .start 5 0, .reply 5 (.text "<em>y</em>") 9,
   .report 5, .visit, .start 4 0, .start 1 0, .look, .receive,
   .reply 1 (.fault (.plain "no such model")) 2, .reply 4 (.text "") 3, .look, .idle,
   .report 4, .report 1, .look, .receive, .look, .receive, .reply 0 .broken 11, .report 0,
   .look, .receive, .look, .settle, .conclude 12 12000000]

/-- What it returns. -/
def backwardsResults : List FieldResult :=
  [.failed 0 "t" "inference panicked" 11, .failed 0 "t" "no such model" 2,
   .skipped 1 "t" "field text missing or empty", .skipped 1 "t" "field text missing or empty",
   .failed 2 "t" "model returned no highlighted text" 3, .succeeded 2 "t" "<em>y</em>" 9]

/-- The tasks end in the opposite order, with a skipped pair between them; the results are those of
one after the other. -/
theorem undisturbed_eq_oneByOne_backwards :
    ∃ b, Undisturbed spoiledHits rivalConfigs mixedReplies backwards b backwardsResults ∧
      b.calls = [0, 5, 4, 1] ∧
      backwardsResults.map FieldResult.timeless =
        oneByOne mixedReplies spoiledHits rivalConfigs ∧
      b.asked.Perm (askedOneByOne spoiledHits rivalConfigs) := by
  have h : ((begin spoiledHits rivalConfigs false).run? backwards).map
      (fun b => (b.stage, b.expired, b.cancelled, b.calls)) =
        some (.returned (.completed backwardsResults 12000000), false, false, [0, 5, 4, 1]) := by
    decide
  obtain ⟨b, hrun, heq⟩ := Option.map_eq_some_iff.1 h
  obtain ⟨hstage, hexpired, hcancelled, hcalls⟩ : b.stage = _ ∧ b.expired = _ ∧
      b.cancelled = _ ∧ b.calls = _ := by simpa only [Prod.mk.injEq] using heq
  -- the replies are the same ones, whenever they come
  have hheeds : ∀ e ∈ backwards, e.Heeds mixedReplies (Pair.all spoiledHits rivalConfigs) := by
    decide
  have hund : Undisturbed spoiledHits rivalConfigs mixedReplies backwards b backwardsResults :=
    ⟨hrun, hheeds, ⟨_, hstage, rfl⟩, hexpired, hcancelled⟩
  obtain ⟨hresults, -, -, hasked, -⟩ := undisturbed_eq_oneByOne hund
  exact ⟨b, hund, hcalls, hresults, hasked⟩

end Batch

end SemanticHighlight
