import SemanticHighlight.Proofs.Pool.Crowd

/-!
# A pool that has been closed

Closing sets the flag, and then retires the generation that is active. If at that moment no
change of size is under way, every generation is retired from then on and none is installed
any more (`Crowd.Final`). No job is admitted after that, and each submission that has not
ended yet fails, whatever the callers do (`Crowd.final_of_closing`).

A change of size that has passed its check, and has not ended, can undo the closing:
`Crowd.reopened` is a run in which a job is admitted after the pool was closed.
-/

namespace SemanticHighlight

namespace Caller

variable {ι : Type}

/-- Whether the caller has passed the check of a change of size, and has not ended it. -/
def isResizing : Caller ι → Bool
  | installing _ | retiring _ => true
  | _ => false

/-- The job that the caller submits, while there is no answer yet. -/
def pending? : Caller ι → Option ι
  | submitting job | choosing job | asking job _ => some job
  | _ => none

end Caller

namespace Crowd

variable {ι : Type} {c c' c'' : Crowd ι}

/-- A pool that is closed for good. -/
structure Final (c : Crowd ι) : Prop where
  shutDown : c.pool.shutDown = true
  retired : ∀ g ∈ c.pool.generations, g.retired = true
  /-- Nobody is about to install another generation. -/
  settled : ∀ workers, .installing workers ∉ c.callers

theorem Final.ask (hf : c.Final) {n : Nat} {g : Generation ι} {policy : Backpressure} {job : ι}
    (hg : c.pool.generation? n = some g) : g.ask policy job = .retired :=
  Generation.ask_eq_retired_iff.2 (hf.retired g (Pool.mem_of_generation? hg))

/-- A pool stays closed for good if its terms stay, and nobody new has passed the check of a change
of size. -/
theorem Final.of_terms {pool : Pool ι} {callers : List (Caller ι)} (hf : c.Final)
    (hterms : pool.terms = c.pool.terms)
    (hshut : pool.shutDown = c.pool.shutDown)
    (hcallers : ∀ workers, .installing workers ∈ callers → .installing workers ∈ c.callers) :
    Final { pool, callers } where
  shutDown := hshut.trans hf.shutDown
  retired := Generation.forall_of_map_eq (P := fun terms => terms.2.2 = true) hterms hf.retired
  settled := fun workers hin => hf.settled workers (hcallers workers hin)

/-- What can still happen to a pool that is closed for good. -/
structure Fades (c c' : Crowd ι) : Prop where
  /-- An answer that a submission has got since is that the pool is shut down. -/
  answers : ∀ (i : Nat) (job : ι) (answer : Except Refusal Unit),
    c'.callers[i]? = some (.submitted job answer) →
      c.callers[i]? = some (.submitted job answer) ∨ answer = .error .shutDown
  /-- No generation has been given a job: the jobs it held have ended, or it holds them. -/
  held : ∃ ended, c.pool.held.Perm (c'.pool.held ++ ended)

theorem Fades.refl (c : Crowd ι) : Fades c c where
  answers := fun _ _ _ h => .inl h
  held := ⟨[], by rw [List.append_nil]⟩

/-- What can still happen in two rows of moves can happen in both together. -/
theorem Fades.trans (h : Fades c c') (h' : Fades c' c'') : Fades c c'' where
  answers := by
    intro i job answer hanswer
    rcases h'.answers i job answer hanswer with hbefore | hshut
    · exact h.answers i job answer hbefore
    · exact .inr hshut
  held := by
    obtain ⟨first, hfirst⟩ := h.held
    obtain ⟨rest, hrest⟩ := h'.held
    refine ⟨rest ++ first, hfirst.trans ?_⟩
    rw [← List.append_assoc]
    exact hrest.append_right first

/-- Whichever step a caller takes, a pool that is closed for good stays so, admits nothing and has
no more jobs waiting. The cases are the steps; those that would admit or install find the generation
retired or the flag set. -/
theorem Final.act {i : Nat} {caller caller' : Caller ι} {pool : Pool ι} (hf : c.Final)
    (hcaller : c.callers[i]? = some caller) (hadvance : c.pool.Advance caller pool caller') :
    Final { pool, callers := c.callers.set i caller' } ∧
      Fades c { pool, callers := c.callers.set i caller' } := by
  have hcallers : (∀ workers, caller' ≠ .installing workers) → ∀ workers,
      .installing workers ∈ c.callers.set i caller' → .installing workers ∈ c.callers := by
    intro hne workers hin
    exact (List.mem_or_eq_of_mem_set hin).resolve_right (Ne.symm (hne workers))
  have hanswers : (∀ job answer, caller' = .submitted job answer → answer = .error .shutDown) →
      ∀ (j : Nat) (job : ι) (answer : Except Refusal Unit),
        (c.callers.set i caller')[j]? = some (.submitted job answer) →
          c.callers[j]? = some (.submitted job answer) ∨ answer = .error .shutDown := by
    intro hnew j job answer hanswer
    by_cases hij : i = j
    · subst hij
      obtain ⟨hlt, -⟩ := List.getElem?_eq_some_iff.1 hcaller
      rw [List.getElem?_set_self hlt] at hanswer
      exact .inr (hnew job answer (Option.some.inj hanswer))
    · rw [List.getElem?_set_ne hij] at hanswer
      exact .inl hanswer
  cases hadvance with
  | turnAway _ =>
    refine ⟨hf.of_terms rfl rfl (hcallers (by simp)), hanswers ?_, (Fades.refl c).held⟩
    rintro _ _ ⟨⟩
    rfl
  | choose | retry _ _ | noWorkers | tooLate _ _ | sameSize _ | closeAgain _ =>
    exact ⟨hf.of_terms rfl rfl (hcallers (by simp)), hanswers (by simp), (Fades.refl c).held⟩
  | retire | retireActive =>
    refine ⟨⟨hf.shutDown, Pool.retired_retire hf.retired, fun workers hin => ?_⟩,
      hanswers (by simp), [], ?_⟩
    · exact hf.settled workers (hcallers (by simp) workers hin)
    · rw [List.append_nil, Pool.held_retire]
  -- the steps that are left would need an open flag or a generation that admits
  | install _ _ | unbuilt _ _ => exact absurd (List.mem_of_getElem? hcaller) (hf.settled _)
  | pass hopen | resizePass _ hopen | flag hopen =>
    rw [hf.shutDown] at hopen
    cases hopen
  | enter hg hask | saturated hg hask =>
    rw [hf.ask hg] at hask
    cases hask

/-- Retiring the active generation closes the pool for good, if no change of size is under
way. -/
theorem final_of_retireActive {i : Nat} (hs : c.Sound) (hshut : c.pool.shutDown = true)
    (hquiet : ∀ caller ∈ c.callers, caller.isResizing = false) :
    Final { pool := c.pool.retire c.pool.active.number, callers := c.callers.set i .closed } where
  shutDown := hshut
  retired := by
    intro g hg
    unfold Pool.retire at hg
    rw [Pool.modify_active hs.ordered] at hg
    rcases List.mem_cons.1 hg with rfl | hformer
    · rfl
    · -- a generation that is still open has a caller that is about to retire it
      by_contra hopen
      have hretiring := hs.lingering g hformer (by simpa using hopen)
      cases hquiet _ hretiring
  settled := by
    intro workers hin
    rcases List.mem_or_eq_of_mem_set hin with hbefore | hnew
    · cases hquiet _ hbefore
    · cases hnew

variable [DecidableEq ι]

/-- The same for any move. A worker can only bring a job on. -/
theorem Final.step (hs : c.Sound) (hf : c.Final) (hstep : Step c c') :
    c'.Final ∧ Fades c c' := by
  cases hstep with
  | arrive hfirst =>
    exact ⟨hf.of_terms rfl rfl fun workers hin => mem_of_arrived hfirst nofun hin,
      fun i job answer hanswer => .inl (getElem?_of_arrived hfirst nofun hanswer),
      (Fades.refl c).held⟩
  | act hcaller hadvance => exact hf.act hcaller hadvance
  | giveUp _ hg hask =>
    rw [hf.ask hg] at hask
    cases hask
  -- nobody is left who could install, so nothing can fail to be built either
  | noThreads hcaller _ => exact absurd (List.mem_of_getElem? hcaller) (hf.settled _)
  | start hg hstart =>
    have hterms := Pool.terms_of_start? hs.ordered hg hstart
    obtain ⟨hheld, -⟩ := Pool.held_of_start? hs.ordered hg hstart
    refine ⟨hf.of_terms hterms rfl fun _ hin => hin, fun _ _ _ h => .inl h, [], ?_⟩
    rw [List.append_nil]
    exact hheld.symm
  | @finish n job g hg hrunning =>
    have hterms := Pool.terms_of_finish hs.ordered hg job
    obtain ⟨hheld, -⟩ := Pool.held_of_finish hs.ordered hg hrunning
    exact ⟨hf.of_terms hterms rfl fun _ hin => hin, fun _ _ _ h => .inl h, _, hheld⟩

/-- The same for a row of moves, by induction on it. -/
theorem Final.run {moves : List (Move ι)} (hs : c.Sound) (hf : c.Final)
    (hrun : c.run? moves = some c') : c'.Final ∧ Fades c c' := by
  have hkept : c'.Sound ∧ c'.Final ∧ Fades c c' := by
    refine run_induction (P := fun c' => c'.Sound ∧ c'.Final ∧ Fades c c') ⟨hs, hf, .refl c⟩ ?_ hrun
    rintro between last ⟨hs, hf, hfades⟩ hstep
    obtain ⟨hlast, hfades'⟩ := hf.step hs hstep
    exact ⟨hs.step hstep, hlast, hfades.trans hfades'⟩
  exact hkept.2

/-- How a caller comes by its answer once the pool is closed for good: it takes its next
steps, three at most. -/
def Ends (c : Crowd ι) (i n : Nat) (job : ι) : Prop :=
  ∃ k ≤ n, ∃ last, c.run? (List.replicate k (.act i)) = some last ∧
    last.callers[i]? = some (.submitted job (.error .shutDown))

/-- If a caller comes by its answer after its next step, it does so one step later before it. -/
theorem Ends.after {i n : Nat} {job : ι} (hmove : c.move? (.act i) = some c')
    (h : Ends c' i n job) : Ends c i (n + 1) job := by
  obtain ⟨k, hk, last, hrun, hanswer⟩ := h
  refine ⟨k + 1, Nat.succ_le_succ hk, last, ?_, hanswer⟩
  rw [List.replicate_succ]
  exact Option.bind_eq_some_iff.2 ⟨c', hmove, hrun⟩

/-- A caller that can go on can take its step in the crowd. -/
theorem move?_act {i : Nat} {caller caller' : Caller ι} {pool : Pool ι}
    (hcaller : c.callers[i]? = some caller)
    (hadvance : c.pool.advance? caller = some (pool, caller')) :
    c.move? (.act i) = some { pool, callers := c.callers.set i caller' } ∧
      (c.callers.set i caller')[i]? = some caller' := by
  obtain ⟨hlt, -⟩ := List.getElem?_eq_some_iff.1 hcaller
  exact ⟨by simp [move?, hcaller, hadvance], List.getElem?_set_self hlt⟩

/-- While the flag is set, a submission that looks at it fails. -/
theorem turned_away (hshut : c.pool.shutDown = true) {i : Nat} {job : ι}
    (hcaller : c.callers[i]? = some (.submitting job)) :
    ∃ last, c.move? (.act i) = some last ∧
      last.callers[i]? = some (.submitted job (.error .shutDown)) := by
  have hadvance : c.pool.advance? (.submitting job) =
      some (c.pool, .submitted job (.error .shutDown)) := by
    simp [Pool.advance?, hshut]
  exact ⟨_, move?_act hcaller hadvance⟩

/-- A caller that has only begun to submit is told at its next step that the pool is shut down. -/
theorem Final.ends_submitting (hf : c.Final) {i : Nat} {job : ι}
    (hcaller : c.callers[i]? = some (.submitting job)) : Ends c i 1 job := by
  obtain ⟨last, hmove, hanswer⟩ := turned_away hf.shutDown hcaller
  exact Ends.after hmove ⟨0, Nat.le_refl 0, last, rfl, hanswer⟩

/-- A caller that has a generation in hand finds it retired, and is told one step later. -/
theorem Final.ends_asking (hs : c.Sound) (hf : c.Final) {i n : Nat} {job : ι}
    (hcaller : c.callers[i]? = some (.asking job n)) : Ends c i 2 job := by
  obtain ⟨g, hg, rfl⟩ := List.mem_map.1 (hs.asked (List.mem_of_getElem? hcaller))
  have hfound := Pool.generation?_of_mem hs.ordered hg
  have hadvance : c.pool.advance? (.asking job g.number) = some (c.pool, .submitting job) := by
    simp [Pool.advance?, Pool.ask?, hfound, hf.ask hfound]
  obtain ⟨hmove, hnext⟩ := move?_act hcaller hadvance
  have hstep := Step.of_move? hmove
  exact Ends.after hmove ((hf.step hs hstep).1.ends_submitting hnext)

/-- Wherever a submission stands, its caller is answered within three steps. -/
theorem Final.ends (hs : c.Sound) (hf : c.Final) {i : Nat} {caller : Caller ι} {job : ι}
    (hcaller : c.callers[i]? = some caller) (hpending : caller.pending? = some job) :
    Ends c i 3 job := by
  -- by what the caller has still to do: choose a generation, ask it, or be turned away
  cases caller with
  | submitting _ =>
    cases hpending
    obtain ⟨k, hk, hends⟩ := hf.ends_submitting hcaller
    exact ⟨k, by omega, hends⟩
  | asking _ _ =>
    cases hpending
    obtain ⟨k, hk, hends⟩ := hf.ends_asking hs hcaller
    exact ⟨k, by omega, hends⟩
  | choosing _ =>
    cases hpending
    obtain ⟨hmove, hnext⟩ := move?_act hcaller rfl
    have hstep := Step.of_move? hmove
    exact Ends.after hmove ((hf.step hs hstep).1.ends_asking (hs.step hstep) hnext)
  | submitted _ _ | resizing _ | installing _ | retiring _ | resized _ | closing | sealing
  | closed => cases hpending

/-- A crowd in which the flag is set as soon as a caller is about to retire the active
generation. -/
theorem Step.sealing (hstep : Step c c') (h : .sealing ∈ c.callers → c.pool.shutDown = true) :
    .sealing ∈ c'.callers → c'.pool.shutDown = true := by
  intro hsealing
  rcases hstep.passed_of_mem hsealing nofun nofun with hbefore | ⟨_, _, -, hadvance, hpool⟩
  · exact hstep.shutDown (h hbefore)
  · cases hadvance with
    | flag _ => rw [hpool]

/-- **Closing is final while no change of size is under way.** When a call retires the
active generation, and no caller is between the check and the end of a change of size, that
call has closed the pool for good. No job is admitted after it, by whichever caller and
whenever; a submission that has no answer yet can only be told that the pool is shut down,
and needs three steps of its own at most to be told so. -/
theorem final_of_closing {workers queueSize : UInt64} {policy : Backpressure}
    {threads : Except String Unit} {p : Pool ι} {before after : List (Move ι)} {i : Nat}
    (hp : Pool.create workers queueSize policy threads = .ok p)
    (hbefore : (alone p).run? before = some c) (hcaller : c.callers[i]? = some .sealing)
    (hquiet : ∀ caller ∈ c.callers, caller.isResizing = false)
    (hmove : c.move? (.act i) = some c') (hafter : c'.run? after = some c'') :
    c'.callers[i]? = some .closed ∧ Fades c' c'' ∧
      ∀ (j : Nat) (caller : Caller ι) (job : ι), c''.callers[j]? = some caller →
        caller.pending? = some job → Ends c'' j 3 job := by
  have hs : c.Sound := (sound_of_create hp).run hbefore
  -- whoever is about to retire the active generation has set the flag
  have hshut : c.pool.shutDown = true := by
    refine run_induction (P := fun c => .sealing ∈ c.callers → c.pool.shutDown = true) ?_
      (fun h hstep => hstep.sealing h) hbefore (List.mem_of_getElem? hcaller)
    simp [alone]
  obtain ⟨hact, hclosed⟩ := move?_act hcaller rfl
  rw [hact] at hmove
  cases hmove
  have hs' := hs.step (.of_move? hact)
  have hf' := final_of_retireActive (i := i) hs hshut hquiet
  obtain ⟨hf'', hfades⟩ := hf'.run hs' hafter
  exact ⟨hclosed, hfades, fun j caller job hj hpending =>
    hf''.ends (hs'.run hafter) hj hpending⟩

/-- The pool is closed while a submission is about to ask the active generation. -/
theorem final_of_closing_asking :
    ∃ (before after : List (Move Nat)) (p : Pool Nat) (c c' c'' : Crowd Nat),
      Pool.create 1 1 .block = .ok p ∧ (alone p).run? before = some c ∧
        c.callers = [.asking 7 0, .sealing] ∧ c.move? (.act 1) = some c' ∧
        c'.run? after = some c'' ∧ c''.callers = [.submitting 7, .closed] ∧
        Fades c' c'' ∧ Ends c'' 0 3 7 := by
  let p : Pool Nat := { active := .fresh 0 1 1, queueSize := 1, policy := .block }
  let c : Crowd Nat := { pool := { p with shutDown := true }, callers := [.asking 7 0, .sealing] }
  let c' : Crowd Nat := { pool := p.close, callers := [.asking 7 0, .closed] }
  let c'' : Crowd Nat := { pool := p.close, callers := [.submitting 7, .closed] }
  -- a submission has chosen its generation before the flag was set
  let before : List (Move Nat) :=
    [.arrive (.submitting 7), .act 0, .act 0, .arrive .closing, .act 1]
  have hp : Pool.create 1 1 .block = .ok p := rfl
  have hbefore : (alone p).run? before = some c := rfl
  have hquiet : ∀ caller ∈ c.callers, caller.isResizing = false := by
    intro caller hcaller
    rcases List.mem_pair.1 hcaller with rfl | rfl <;> rfl
  have hmove : c.move? (.act 1) = some c' := rfl
  have hafter : c'.run? [.act 0] = some c'' := rfl
  obtain ⟨-, hfades, hends⟩ := final_of_closing hp hbefore rfl hquiet hmove hafter
  exact ⟨before, [.act 0], p, c, c', c'', hp, hbefore, rfl, hmove, hafter, rfl, hfades,
    hends 0 _ 7 rfl rfl⟩

/-- A change of size passes its check, a submission passes its own, and a call closes the
pool and returns. Then the change installs another generation, and that admits the job. -/
theorem reopened :
    ∃ (before after : List (Move Nat)) (p : Pool Nat) (c c' : Crowd Nat),
      Pool.create 1 1 .block = .ok p ∧ (alone p).run? before = some c ∧
        c.callers = [.choosing 7, .installing 2, .closed] ∧ c.run? after = some c' ∧
        c'.callers = [.submitted 7 (.ok ()), .retiring 0, .closed] ∧ c'.pool.held = [(1, 7)] ∧
        ¬Fades c c' := by
  let before : List (Move Nat) :=
    [.arrive (.submitting 7), .act 0, .arrive (.resizing 2), .act 1, .arrive .closing, .act 2,
      .act 2]
  refine ⟨before, [.act 1, .act 0, .act 0], _, _, _, rfl, rfl, rfl, rfl, rfl, rfl, ?_⟩
  intro hfades
  rcases hfades.answers 0 7 (.ok ()) rfl with hbefore | hshut
  · cases hbefore
  · cases hshut

-- A second call that closes the pool returns before the first has retired any generation, and
-- a job is admitted after it has returned.
example :
    ∃ c c' : Crowd Nat,
      (alone { active := .fresh 0 1 1, queueSize := 1, policy := .block }).run?
          [.arrive (.submitting 7), .act 0, .arrive .closing, .arrive .closing, .act 1, .act 2] =
        some c ∧ c.callers = [.choosing 7, .sealing, .closed] ∧
      c.run? [.act 0, .act 0] = some c' ∧
        c'.callers = [.submitted 7 (.ok ()), .sealing, .closed] :=
  ⟨_, _, rfl, rfl, rfl, rfl⟩

end Crowd

end SemanticHighlight
