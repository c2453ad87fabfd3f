import SemanticHighlight.Proofs.Pool.Admitting

/-!
# Submissions that begin again

A submission that finds the generation it has read to be retired begins again, and nothing in its
own steps says that this comes to an end. What says so is the order in which the others take
theirs: a change of size first puts another generation in front and retires the old one after,
and closing first sets the flag. So a retired generation is active no more, or the flag is set
and the next look at it ends the submission.

`Crowd.retries` and `Crowd.replacements` are read off the moves. `Crowd.Trying` is what carries
the bound: the generations that a submission has found retired go up in number, for it reads each
one after it has found the one before replaced. Main statement (`Crowd.steady_of_submitting`).
-/

namespace SemanticHighlight

namespace Crowd

variable {ι : Type} {c c' first : Crowd ι} {move : Move ι} {i n : Nat} {job : ι}

/-- Which caller takes a step in a move, and where it stands before and after. -/
def passage? (c : Crowd ι) : Move ι → Option (Nat × Caller ι × Caller ι)
  | .act position => do
    let caller ← c.callers[position]?
    let (_, caller') ← c.pool.advance? caller
    some (position, caller, caller')
  | _ => none

/-- The generation that the submission at a position finds retired in a move, and so begins
again. -/
def restart? (i : Nat) (c : Crowd ι) (move : Move ι) : Option Nat :=
  match c.passage? move with
  | some (position, .asking _ number, .submitting _) =>
    if position = i then some number else none
  | _ => none

/-- The generation that a change of size replaces in a move. -/
def replacement? (c : Crowd ι) (move : Move ι) : Option Nat :=
  match c.passage? move with
  | some (_, .installing _, .retiring number) => some number
  | _ => none

variable [DecidableEq ι]

/-- The generations that the submission at a position finds retired, the first one first. -/
def retries (c : Crowd ι) (i : Nat) (moves : List (Move ι)) : List Nat :=
  Rows.notes move? (restart? i) c moves

/-- The generations that are replaced, the first one first. -/
def replacements (c : Crowd ι) (moves : List (Move ι)) : List Nat :=
  Rows.notes move? replacement? c moves

/-- The step of a caller, together with what is noted of it. -/
theorem exists_passage {position : Nat} (hmove : c.move? (.act position) = some c') :
    ∃ caller pool caller', c.callers[position]? = some caller ∧
      c.pool.Advance caller pool caller' ∧
      c.passage? (.act position) = some (position, caller, caller') ∧
      c' = { pool, callers := c.callers.set position caller' } := by
  obtain ⟨caller, hcaller, hact⟩ := Option.bind_eq_some_iff.1 hmove
  obtain ⟨⟨pool, caller'⟩, hadvance, hend⟩ := Option.bind_eq_some_iff.1 hact
  cases hend
  have hpassage : c.passage? (.act position) = some (position, caller, caller') := by
    simp [passage?, hcaller, hadvance]
  exact ⟨caller, pool, caller', hcaller, .of_advance? hadvance, hpassage, rfl⟩

/-- A submission begins again when it finds the generation that it asks retired. The pool stays as
it is. -/
theorem exists_restart (hmove : c.move? move = some c') (h : c.restart? i move = some n) :
    ∃ job g, c.callers[i]? = some (.asking job n) ∧ c.pool.generation? n = some g ∧
      g.retired = true ∧ c' = { c with callers := c.callers.set i (.submitting job) } := by
  cases move with
  | arrive _ | giveUp _ | noThreads _ _ | start _ _ | finish _ _ => cases h
  | act position =>
    obtain ⟨caller, pool, caller', hcaller, hadvance, hpassage, rfl⟩ := exists_passage hmove
    rw [restart?, hpassage] at h
    cases hadvance with
    | @retry job m g hg hretired =>
      obtain ⟨rfl, hm⟩ := Option.ite_none_right_eq_some.1 h
      cases hm
      exact ⟨job, g, hcaller, hg, hretired, rfl⟩
    | turnAway _ | pass _ | choose | enter _ _ | saturated _ _ | noWorkers | tooLate _ _
    | resizePass _ _ | sameSize _ | install _ _ | unbuilt _ _ | retire | closeAgain _ | flag _
    | retireActive => cases h

/-- The active generation is another one after a move exactly if the move has replaced it. -/
theorem replacement?_cases (ho : c.pool.Ordered) (hmove : c.move? move = some c') :
    c.replacement? move = none ∧ c'.pool.active.number = c.pool.active.number ∨
      c.replacement? move = some c.pool.active.number ∧
        c.pool.active.number < c'.pool.active.number := by
  cases move with
  | arrive _ =>
    obtain ⟨-, h⟩ := Option.ite_none_right_eq_some.1 hmove
    cases h
    exact .inl ⟨rfl, rfl⟩
  | giveUp _ =>
    obtain ⟨-, -, -, -, -, -, -, rfl⟩ := exists_giveUp hmove
    exact .inl ⟨rfl, rfl⟩
  | noThreads _ _ =>
    obtain ⟨-, -, -, rfl⟩ := exists_noThreads hmove
    exact .inl ⟨rfl, rfl⟩
  | start _ _ =>
    obtain ⟨_, _, hg, hstart, rfl⟩ := exists_start hmove
    exact .inl ⟨rfl, Pool.active_number_of_terms hg (Generation.terms_of_start? hstart)⟩
  | finish _ job =>
    obtain ⟨_, _, _, rfl⟩ := exists_finish hmove
    refine .inl ⟨rfl, Pool.active_number_modify fun g hn => ?_⟩
    exact (congrArg Prod.fst (Generation.terms_finish g job)).trans hn
  | act position =>
    obtain ⟨caller, pool, caller', hcaller, hadvance, hpassage, rfl⟩ := exists_passage hmove
    rw [replacement?, hpassage]
    -- only an installation makes another generation active
    cases hadvance with
    | @install _ g _ hbuild =>
      have hnumber : g.number = c.pool.next := Pool.number_of_build hbuild
      exact .inr ⟨rfl, hnumber ▸ ho.next⟩
    | enter hg hask =>
      exact .inl ⟨rfl, Pool.active_number_of_terms hg (Generation.terms_of_ask hask)⟩
    | retire | retireActive => exact .inl ⟨rfl, Pool.active_number_retire ..⟩
    | turnAway _ | pass _ | choose | retry _ _ | saturated _ _ | noWorkers | tooLate _ _
    | resizePass _ _ | sameSize _ | unbuilt _ _ | closeAgain _ | flag _ => exact .inl ⟨rfl, rfl⟩

/-- A caller about to read which generation is active has stood there, or the flag was not set. -/
theorem Step.choosing (hstep : Step c c') (h : c'.callers[i]? = some (.choosing job)) :
    c.callers[i]? = some (.choosing job) ∨ c.pool.shutDown = false := by
  rcases hstep.passed h nofun nofun with hbefore | ⟨_, _, -, hadvance, -⟩
  · exact .inl hbefore
  · cases hadvance with
    | pass hopen => exact .inr hopen

/-- A caller about to ask a generation has stood there, or it has just read which one is active. -/
theorem Step.asking (hstep : Step c c') (h : c'.callers[i]? = some (.asking job n)) :
    c.callers[i]? = some (.asking job n) ∨
      c.callers[i]? = some (.choosing job) ∧ n = c.pool.active.number := by
  rcases hstep.passed h nofun nofun with hbefore | ⟨_, _, hcaller, hadvance, -⟩
  · exact .inl hbefore
  · cases hadvance with
    | choose => exact .inr ⟨hcaller, rfl⟩

variable {queueSize : UInt64} {moves : List (Move ι)}

omit [DecidableEq ι] in
/-- A retired generation is active no more, or the flag is set. -/
theorem Admitting.of_retired (h : Admitting queueSize c) {g : Generation ι}
    (hg : c.pool.generation? n = some g) (hretired : g.retired = true) :
    n < c.pool.active.number ∨ n = c.pool.active.number ∧ c.pool.shutDown = true := by
  have hn := Pool.number_of_generation? hg
  subst hn
  rcases List.mem_cons.1 (Pool.mem_of_generation? hg) with rfl | hformer
  · exact .inr ⟨rfl, h.guarded.active hretired⟩
  · exact .inl (Pool.former_lt_active h.built.sound.ordered hformer)

/-- What holds of a submission since it began, in each crowd that comes up. -/
structure Trying (first : Crowd ι) (i : Nat) (moves : List (Move ι)) (c : Crowd ι) : Prop where
  /-- The generations that have been replaced came one after the other, before the active one. -/
  replaced : (first.replacements moves).Pairwise (· < ·)
  before : ∀ n ∈ first.replacements moves, n < c.pool.active.number
  ascending : (first.retries i moves).Pairwise (· < ·)
  cause : ∀ n ∈ first.retries i moves,
    n ∈ first.replacements moves ∨ n = c.pool.active.number ∧ c.pool.shutDown = true
  /-- Past the flag it knows that what it has found retired has been replaced. -/
  choosing : ∀ {job}, c.callers[i]? = some (.choosing job) →
    ∀ n ∈ first.retries i moves, n ∈ first.replacements moves
  /-- What it asks was active when it read so, and is younger than all that it has found retired. -/
  asking : ∀ {job m}, c.callers[i]? = some (.asking job m) →
    (m ∈ first.replacements moves ∨ m = c.pool.active.number) ∧
      ∀ n ∈ first.retries i moves, n < m

/-- A submission that has just begun has found nothing retired yet. -/
theorem trying_of_submitting (hcaller : c.callers[i]? = some (.submitting job)) :
    Trying c i [] c where
  replaced := .nil
  before := nofun
  ascending := .nil
  cause := nofun
  choosing := fun h => by
    rw [hcaller] at h
    cases h
  asking := fun h => by
    rw [hcaller] at h
    cases h

/-- What a move does to the row of generations that have been replaced. -/
structure Replacing (first c c' : Crowd ι) (moves : List (Move ι)) (move : Move ι) : Prop where
  ascending : (first.replacements (moves ++ [move])).Pairwise (· < ·)
  before : ∀ n ∈ first.replacements (moves ++ [move]), n < c'.pool.active.number
  kept : ∀ n ∈ first.replacements moves, n ∈ first.replacements (moves ++ [move])
  /-- The generation that was active is so still, or it has been replaced. -/
  active : c.pool.active.number = c'.pool.active.number ∨
    c.pool.active.number ∈ first.replacements (moves ++ [move])

/-- A move that replaces a generation puts it at the end of the row, behind older ones. -/
theorem Trying.replacing (h : Trying first i moves c) (ho : c.pool.Ordered)
    (hrun : first.run? moves = some c) (hmove : c.move? move = some c') :
    Replacing first c c' moves move := by
  have hnotes : first.replacements (moves ++ [move]) =
      first.replacements moves ++ (c.replacement? move).toList := Rows.notes_concat hrun move
  -- the row stays, or the active generation comes to its end
  rcases replacement?_cases ho hmove with ⟨hnone, hsame⟩ | ⟨hsome, hlarger⟩
  · rw [hnone, Option.toList_none, List.append_nil] at hnotes
    exact ⟨hnotes ▸ h.replaced, hnotes ▸ hsame ▸ h.before, fun n hn => hnotes ▸ hn,
      .inl hsame.symm⟩
  · rw [hsome, Option.toList_some] at hnotes
    refine ⟨?_, ?_, fun n hn => ?_, .inr ?_⟩ <;> rw [hnotes]
    · refine List.pairwise_append.2 ⟨h.replaced, List.pairwise_singleton _ _, ?_⟩
      intro n hn m hm
      rw [List.mem_singleton.1 hm]
      exact h.before n hn
    · intro n hn
      rcases List.mem_append.1 hn with hold | hnew
      · exact Nat.lt_trans (h.before n hold) hlarger
      · rw [List.mem_singleton.1 hnew]
        exact hlarger
    · exact List.mem_append_left _ hn
    · exact List.mem_append_right _ (List.mem_singleton_self _)

/-- What has been found retired has still been replaced, or the flag is set. -/
theorem Trying.cause_step (h : Trying first i moves c)
    (hreplacing : Replacing first c c' moves move) (hstep : Step c c') : ∀ n ∈ first.retries i moves,
      n ∈ first.replacements (moves ++ [move]) ∨
        n = c'.pool.active.number ∧ c'.pool.shutDown = true := by
  intro n hn
  rcases h.cause n hn with hreplaced | ⟨rfl, hshut⟩
  · exact .inl (hreplacing.kept n hreplaced)
  · -- the flag was set while this one was active, and it may be replaced in this very move
    rcases hreplacing.active with hsame | hreplaced
    · exact .inr ⟨hsame, hstep.shutDown hshut⟩
    · exact .inl hreplaced

/-- A move in which the submission does not begin again. -/
theorem Trying.go_on (h : Trying first i moves c) (ho : c.pool.Ordered)
    (hrun : first.run? moves = some c) (hmove : c.move? move = some c')
    (hnone : c.restart? i move = none) : Trying first i (moves ++ [move]) c' := by
  have hstep := Step.of_move? hmove
  have hreplacing := h.replacing ho hrun hmove
  have hnotes : first.retries i (moves ++ [move]) = first.retries i moves := by
    refine (Rows.notes_concat hrun move).trans ?_
    rw [hnone]
    exact List.append_nil _
  refine
    { replaced := hreplacing.ascending
      before := hreplacing.before
      ascending := hnotes ▸ h.ascending
      cause := hnotes ▸ h.cause_step hreplacing hstep
      choosing := ?_
      asking := ?_ }
  · intro job hchoosing
    rw [hnotes]
    intro n hn
    rcases hstep.choosing hchoosing with hbefore | hopen
    · exact hreplacing.kept n (h.choosing hbefore n hn)
    · -- the flag was not set, so this generation has been replaced
      rcases h.cause n hn with hreplaced | ⟨-, hshut⟩
      · exact hreplacing.kept n hreplaced
      · rw [hopen] at hshut
        cases hshut
  · intro job m hasking
    rw [hnotes]
    rcases hstep.asking hasking with hbefore | ⟨hchoosing, rfl⟩
    · obtain ⟨hread, hyounger⟩ := h.asking hbefore
      refine ⟨?_, hyounger⟩
      rcases hread with hreplaced | rfl
      · exact .inl (hreplacing.kept m hreplaced)
      · exact hreplacing.active.symm
    · -- it has just read which one is active
      exact ⟨hreplacing.active.symm, fun n hn => h.before n (h.choosing hchoosing n hn)⟩

/-- A move in which the submission begins again. -/
theorem Trying.begin_again (h : Trying first i moves c) (hadmitting : Admitting queueSize c)
    (hrun : first.run? moves = some c) (hmove : c.move? move = some c')
    (hrestart : c.restart? i move = some n) : Trying first i (moves ++ [move]) c' := by
  have hstep := Step.of_move? hmove
  have hreplacing := h.replacing hadmitting.built.sound.ordered hrun hmove
  have hbefore := h.cause_step hreplacing hstep
  obtain ⟨job, g, hasking, hg, hretired, rfl⟩ := exists_restart hmove hrestart
  obtain ⟨hread, hyounger⟩ := h.asking hasking
  have hnotes : first.retries i (moves ++ [move]) = first.retries i moves ++ [n] := by
    refine (Rows.notes_concat hrun move).trans ?_
    rw [hrestart]
    rfl
  -- the submission stands at its beginning now, with nothing chosen and nothing asked
  have hsubmitting : (c.callers.set i (.submitting job))[i]? = some (.submitting job) :=
    List.getElem?_set_self (List.getElem?_eq_some_iff.1 hasking).1
  refine
    { replaced := hreplacing.ascending
      before := hreplacing.before
      ascending := ?_
      cause := ?_
      choosing := fun hchoosing => by
        cases hsubmitting.symm.trans hchoosing
      asking := fun hasking => by
        cases hsubmitting.symm.trans hasking }
  · rw [hnotes, List.pairwise_append]
    refine ⟨h.ascending, List.pairwise_singleton _ _, ?_⟩
    intro m hm k hk
    rw [List.mem_singleton.1 hk]
    exact hyounger m hm
  · rw [hnotes]
    intro m hm
    rcases List.mem_append.1 hm with hold | hnew
    · exact hbefore m hold
    · rw [List.mem_singleton.1 hnew]
      rcases hread with hreplaced | rfl
      · exact .inl (hreplacing.kept n hreplaced)
      · -- the active generation is retired, which only closing does
        rw [Pool.generation?_active] at hg
        cases hg
        exact .inr ⟨rfl, hadmitting.guarded.active hretired⟩

/-- What holds of a submission is kept in every row of moves, of which it is given the whole, since
the replaced generations are read off it. -/
theorem Trying.run (hadmitting : Admitting queueSize first)
    (hcaller : first.callers[i]? = some (.submitting job)) (hrun : first.run? moves = some c) :
    Trying first i moves c := by
  refine Rows.induction (I := Trying first i) (trying_of_submitting hcaller) ?_ hrun
  intro moves between move last hrun h hmove
  cases hrestart : between.restart? i move with
  | none => exact h.go_on (hadmitting.run hrun).built.sound.ordered hrun hmove hrestart
  | some n => exact h.begin_again (hadmitting.run hrun) hrun hmove hrestart

/-- How a submission comes to begin again, and how often. -/
structure Steady (first : Crowd ι) (i : Nat) (moves : List (Move ι)) (c : Crowd ι) : Prop where
  /-- It never finds the same generation retired twice. -/
  ascending : (first.retries i moves).Pairwise (· < ·)
  /-- Each generation that it finds retired has been replaced since it began, or it is the last
  one, and the pool is shut down. -/
  cause : ∀ n ∈ first.retries i moves,
    n ∈ first.replacements moves ∨ n = c.pool.active.number ∧ c.pool.shutDown = true
  replaced_once : (first.replacements moves).Nodup
  bounded : (first.retries i moves).length ≤ (first.replacements moves).length + 1

/-- From what holds of a submission follows how often it begins again: each time a different
generation was replaced, or the pool was shut down. -/
theorem Trying.steady (h : Trying first i moves c) : Steady first i moves c where
  ascending := h.ascending
  cause := h.cause
  replaced_once := h.replaced.imp Nat.ne_of_lt
  bounded := by
    -- one more than were replaced, for the one that is active may be retired as well
    have hsub : first.retries i moves ⊆ first.replacements moves ++ [c.pool.active.number] := by
      intro n hn
      rcases h.cause n hn with hreplaced | ⟨rfl, -⟩
      · exact List.mem_append_left _ hreplaced
      · exact List.mem_append_right _ (List.mem_singleton_self _)
    have hnodup : (first.retries i moves).Nodup := h.ascending.imp Nat.ne_of_lt
    have hle := (hnodup.subperm hsub).length_le
    rwa [List.length_append, List.length_singleton] at hle

/-- Once the flag is set it stays so, and the next look that a submission takes at it is its
last. -/
theorem ends_of_shutDown (hshut : c.pool.shutDown = true) (hrun : c.run? moves = some c')
    (hcaller : c'.callers[i]? = some (.submitting job)) :
    ∃ c'', c'.move? (.act i) = some c'' ∧
      c''.callers[i]? = some (.submitted job (.error .shutDown)) := by
  have hshut' : c'.pool.shutDown = true :=
    run_induction (P := fun c => c.pool.shutDown = true) hshut
      (fun h hstep => hstep.shutDown h) hrun
  exact turned_away hshut' hcaller

/-- **A submission does not begin again for nothing.** Whatever the callers of a pool do, and in
whatever order, the active generation is retired only once the pool is shut down. A submission
that finds the generation it has read to be retired finds one that is active no more, or the pool
is shut down, and then it fails as soon as it looks at the flag. From the beginning of a
submission on, the generations that it finds retired go up in number, each of them has been
replaced in the meantime or is the one that closing has retired, and so it begins again at most
once more than generations are replaced. -/
theorem steady_of_submitting {workers : UInt64} {policy : Backpressure}
    {threads : Except String Unit} {p : Pool ι} {before : List (Move ι)}
    (hp : Pool.create workers queueSize policy threads = .ok p)
    (hbefore : (alone p).run? before = some c) :
    (c.pool.active.retired = true → c.pool.shutDown = true) ∧
    (∀ {i n : Nat} {job : ι} {g : Generation ι}, c.callers[i]? = some (.asking job n) →
      c.pool.generation? n = some g → g.retired = true →
        n < c.pool.active.number ∨ c.pool.shutDown = true ∧
          ∀ {after : List (Move ι)} {c' : Crowd ι}, c.run? after = some c' →
            c'.callers[i]? = some (.submitting job) →
              ∃ c'', c'.move? (.act i) = some c'' ∧
                c''.callers[i]? = some (.submitted job (.error .shutDown))) ∧
    ∀ {i : Nat} {job : ι} {after : List (Move ι)} {c' : Crowd ι},
      c.callers[i]? = some (.submitting job) → c.run? after = some c' →
        Steady c i after c' := by
  have hadmitting : Admitting queueSize c := (admitting_of_create hp).run hbefore
  refine ⟨hadmitting.guarded.active, ?_, ?_⟩
  · -- retired means replaced, or else the pool is shut down and the next step says so
    intro i n job g _ hg hretired
    rcases hadmitting.of_retired hg hretired with hlt | ⟨-, hshut⟩
    · exact .inl hlt
    · exact .inr ⟨hshut, ends_of_shutDown hshut⟩
  · intro i job after c' hcaller hafter
    exact (Trying.run hadmitting hcaller hafter).steady

/-- A submission finds the first generation retired after a change of size, and the second one
after the pool was closed: it begins again twice while one generation is replaced. -/
theorem steady_of_submitting_closing :
    ∃ (before during : List (Move Nat)) (p : Pool Nat) (c c' c'' : Crowd Nat),
      Pool.create 1 1 .block = .ok p ∧ (alone p).run? before = some c ∧
        c.callers = [.submitting 7] ∧ c.run? during = some c' ∧
        c'.callers = [.asking 7 1, .resized (.ok ()), .closed] ∧
        c'.pool.active.number = 1 ∧ c'.pool.active.retired = true ∧
        c'.move? (.act 0) = some c'' ∧ c.retries 0 (during ++ [.act 0]) = [0, 1] ∧
        c.replacements (during ++ [.act 0]) = [0] ∧ Steady c 0 (during ++ [.act 0]) c'' ∧
        c'.pool.shutDown = true ∧
        ∃ last, c''.move? (.act 0) = some last ∧
          last.callers[0]? = some (.submitted 7 (.error .shutDown)) := by
  let p : Pool Nat := { active := .fresh 0 1 1, queueSize := 1, policy := .block }
  let c : Crowd Nat := { pool := p, callers := [.submitting 7] }
  let pool : Pool Nat := ((p.install (.fresh 1 2 1)).retire 0).close
  let c' : Crowd Nat := { pool, callers := [.asking 7 1, .resized (.ok ()), .closed] }
  let c'' : Crowd Nat := { pool, callers := [.submitting 7, .resized (.ok ()), .closed] }
  let before : List (Move Nat) := [.arrive (.submitting 7)]
  -- found retired twice, once after a replacement and once after the pool was shut down
  let during : List (Move Nat) :=
    [.act 0, .act 0, .arrive (.resizing 2), .act 1, .act 1, .act 1, .act 0, .act 0, .act 0,
      .arrive .closing, .act 2, .act 2]
  have hp : Pool.create 1 1 .block = .ok p := rfl
  have hbefore : (alone p).run? before = some c := rfl
  have hduring : c.run? during = some c' := rfl
  have hmove : c'.move? (.act 0) = some c'' := rfl
  have hafter : c.run? (during ++ [.act 0]) = some c'' := (run?_append hduring _).trans hmove
  have hboth : (alone p).run? (before ++ during) = some c' :=
    (run?_append hbefore during).trans hduring
  obtain ⟨-, -, hsteady⟩ := steady_of_submitting hp hbefore
  obtain ⟨hflag, hretired, -⟩ := steady_of_submitting hp hboth
  have hactive : c'.pool.active.retired = true := rfl
  have hends : ∃ last, c''.move? (.act 0) = some last ∧
      last.callers[0]? = some (.submitted 7 (.error .shutDown)) := by
    rcases hretired (i := 0) rfl rfl hactive with hlt | ⟨-, hends⟩
    · exact absurd hlt (by decide)
    · have hagain : c'.run? [.act 0] = some c'' := hmove
      exact hends hagain rfl
  have hretries : c.retries 0 (during ++ [.act 0]) = [0, 1] := by decide +kernel
  have hreplacements : c.replacements (during ++ [.act 0]) = [0] := by decide +kernel
  exact ⟨before, during, p, c, c', c'', hp, hbefore, rfl, hduring, rfl, rfl, hactive, hmove,
    hretries, hreplacements, hsteady rfl hafter, hflag hactive, hends⟩

end Crowd

end SemanticHighlight
