import SemanticHighlight.Proofs.Handling.Standing
import SemanticHighlight.Rehearsal.Clock

/-!
# Requests on a clock are requests under way

`Service.handle` plays a request out on a clock. What it plays is a row of steps that the
request can take (`handle_run`), with the same answer, the same question to the engine, the
same calls of the backend and the same counters; so whatever holds of all such rows holds of
what is played.
-/

namespace SemanticHighlight.Rehearsal.Service

open Handling

variable {s : Service} {i : Interceptor} {backend : Backend} {r : Request}
  {engine : Request → Except Failure Response} {began : Bool}

/-- **What is played is a row of steps of the request**, if the batch has returned. -/
theorem handle_run
    (hret : ∀ base configs,
      i.afterSearch r began (engine (i.asked r)) = .highlighting base configs →
        ∃ ending, (s.play backend (Interceptor.batchHits base) configs began).2.1.stage =
          .returned ending) :
    ∃ events h, (Handling.begin began s.metrics).run? i r engine events = some h ∧
      h.stage = .answered (s.handle i backend r (engine (i.asked r)) began).2.outcome ∧
      h.searched = (s.handle i backend r (engine (i.asked r)) began).2.searched ∧
      (h.batch.map Batch.asked).getD [] =
        (s.handle i backend r (engine (i.asked r)) began).2.calls ∧
      h.metrics = (s.handle i backend r (engine (i.asked r)) began).1.metrics := by
  have hstart : (Handling.begin began s.metrics).run? i r engine [.search, .weigh] =
      some (weighed ⟨.weighing (engine (i.asked r)), began, [i.asked r], none, s.metrics⟩
        (i.afterSearch r began (engine (i.asked r)))) := rfl
  unfold handle
  cases hp : i.afterSearch r began (engine (i.asked r)) with
  | finished outcome =>
    rw [hp] at hstart
    exact ⟨_, _, hstart, rfl, rfl, rfl, rfl⟩
  | highlighting base configs =>
    rw [hp] at hstart
    obtain ⟨ending, hret⟩ := hret base configs hp
    unfold play at hret ⊢
    dsimp only at hret ⊢
    obtain ⟨events, hrun⟩ := Clock.follows_run
      { deadline := s.timeoutMs.toNat, pool := s.pool,
        batch := .begin (Interceptor.batchHits base) configs began } backend
    generalize Clock.run _ backend = c at hret hrun ⊢
    have hending : c.ending = ending := by
      unfold Clock.ending
      rw [hret]
    -- the batch takes the steps that the clock plays, and then its results are merged
    have hwork : Handling.run? i r engine
        (weighed ⟨.weighing (engine (i.asked r)), began, [i.asked r], none, s.metrics⟩
          (.highlighting base configs)) (events.map .ofWork) =
        some ⟨.highlighting base, c.batch.cancelled, [i.asked r], some c.batch, s.metrics⟩ :=
      run?_ofWork rfl rfl hrun
    refine ⟨[.search, .weigh] ++ (events.map .ofWork ++ [.merge (UInt64.ofNat c.now)]),
      merged ⟨.highlighting base, c.batch.cancelled, [i.asked r], some c.batch, s.metrics⟩
        base ending (UInt64.ofNat c.now), ?_, ?_, rfl, rfl, ?_⟩
    · rw [run?_append, hstart]
      show Handling.run? i r engine _ (events.map .ofWork ++ _) = _
      rw [run?_append, hwork]
      exact run?_merge rfl rfl hret (UInt64.ofNat c.now)
    · rw [hending]
      rfl
    · rw [hending]
      rfl

end SemanticHighlight.Rehearsal.Service
