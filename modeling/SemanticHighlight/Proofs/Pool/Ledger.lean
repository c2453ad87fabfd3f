import SemanticHighlight.Proofs.Pool.Crowd

/-!
# The jobs of a crowd in its moves

A row of moves says which jobs it has admitted and which have ended, each with the number of its
generation: `Crowd.admissions` and `Crowd.endings`. What was admitted is held or has ended
(`Crowd.admissions_perm`), in each generation (`Crowd.admissions_of_generation`). As a generation
counts the jobs that it holds, its slots in use are those of the jobs that it has admitted and
that have not ended (`Crowd.inFlight_add_endings`).
-/

namespace SemanticHighlight

namespace Pool

variable {ι : Type} {p : Pool ι} {g : Generation ι} {n : Nat}

/-- The entries that carry the number of a generation. -/
def ofNumber (n : Nat) (entries : List (Nat × ι)) : List (Nat × ι) := entries.filter (·.1 = n)

theorem ofNumber_append (n : Nat) (entries entries' : List (Nat × ι)) :
    ofNumber n (entries ++ entries') = ofNumber n entries ++ ofNumber n entries' :=
  List.filter_append ..

/-- The jobs of a generation carry its number. -/
theorem ofNumber_held (g : Generation ι) (n : Nat) :
    ofNumber n g.held = if g.number = n then g.held else [] := by
  unfold ofNumber Generation.held
  split
  · next hn =>
    refine List.filter_eq_self.2 fun entry hentry => ?_
    obtain ⟨_, -, rfl⟩ := List.mem_map.1 hentry
    simpa using hn
  · next hn =>
    refine List.filter_eq_nil_iff.2 fun entry hentry => ?_
    obtain ⟨_, -, rfl⟩ := List.mem_map.1 hentry
    simpa using hn

/-- Generations of other numbers have no job that carries this one. -/
theorem ofNumber_flatMap_other {gs : List (Generation ι)} (h : ∀ g ∈ gs, g.number ≠ n) :
    ofNumber n (gs.flatMap Generation.held) = [] := by
  unfold ofNumber
  rw [List.filter_flatMap, List.flatMap_eq_nil_iff]
  intro g hg
  exact (ofNumber_held g n).trans (if_neg (h g hg))

/-- What a pool holds under a number is what the generation of that number holds. -/
theorem ofNumber_held_of_generation? (ho : p.Ordered) (hg : p.generation? n = some g) :
    ofNumber n p.held = g.held := by
  have hn := number_of_generation? hg
  obtain ⟨later, before, hplace⟩ := List.append_of_mem (mem_of_generation? hg)
  have hnumbers := ho.numbers
  rw [hplace, List.pairwise_append, List.pairwise_cons] at hnumbers
  obtain ⟨-, ⟨hbefore, -⟩, hlater⟩ := hnumbers
  unfold held
  rw [hplace, List.flatMap_append, List.flatMap_cons, ofNumber_append, ofNumber_append,
    ofNumber_held, if_pos hn]
  -- the generations at the other places have other numbers
  rw [ofNumber_flatMap_other fun x hx => ?_, ofNumber_flatMap_other fun x hx => ?_]
  · rw [List.nil_append, List.append_nil]
  · have hlt := hbefore x hx
    omega
  · have hlt := hlater x hx g List.mem_cons_self
    omega

end Pool

namespace Crowd

variable {ι : Type} {c c' : Crowd ι} {move : Move ι} {moves : List (Move ι)}

/-- The job that a move admits, with the number of its generation. -/
def admission? (c : Crowd ι) : Move ι → Option (Nat × ι)
  | .act position =>
    match c.callers[position]? with
    | some (.asking job number) =>
      match c.pool.ask? job number with
      | some (.admitted _) => some (number, job)
      | _ => none
    | _ => none
  | _ => none

/-- The job that a move ends, with the number of its generation. -/
def Move.ending? : Move ι → Option (Nat × ι)
  | .finish number job => some (number, job)
  | _ => none

/-- The jobs that a row of moves ends. -/
def endings (moves : List (Move ι)) : List (Nat × ι) := moves.filterMap Move.ending?

theorem endings_concat (moves : List (Move ι)) (move : Move ι) :
    endings (moves ++ [move]) = endings moves ++ move.ending?.toList := by
  unfold endings
  rw [List.filterMap_append]
  cases h : move.ending? <;> simp [h]

/-- A step that asks no generation for a slot admits no job. -/
theorem admission?_of_ne {i : Nat} {caller : Caller ι} (hcaller : c.callers[i]? = some caller)
    (hne : ∀ job n, caller ≠ .asking job n) : c.admission? (.act i) = none := by
  unfold admission?
  dsimp only
  rw [hcaller]
  cases caller with
  | asking job n => exact absurd rfl (hne job n)
  | submitting _ | choosing _ | submitted _ _ | resizing _ | installing _ | retiring _
  | resized _ | closing | sealing | closed => rfl

/-- A caller that asks for a slot is admitted if the generation has one to give. -/
theorem admission?_of_ask {i n : Nat} {job : ι} {g : Generation ι}
    (hcaller : c.callers[i]? = some (.asking job n)) (hg : c.pool.generation? n = some g) :
    c.admission? (.act i) =
      match g.ask c.pool.policy job with
      | .admitted _ => some (n, job)
      | _ => none := by
  unfold admission? Pool.ask?
  dsimp only
  rw [hcaller]
  dsimp only
  rw [hg, Option.map_some]
  cases g.ask c.pool.policy job <;> rfl

/-- A step of a caller adds to what the pool holds the job that it admits. -/
theorem held_of_act (ho : c.pool.Ordered) {i : Nat} {caller caller' : Caller ι} {pool : Pool ι}
    (hcaller : c.callers[i]? = some caller) (hadvance : c.pool.Advance caller pool caller') :
    pool.held.Perm (c.pool.held ++ (c.admission? (.act i)).toList) := by
  cases hadvance with
  | turnAway _ | pass _ | choose | noWorkers | tooLate _ _ | resizePass _ _ | sameSize _
  | closeAgain _ =>
    rw [admission?_of_ne hcaller (by simp), Option.toList_none, List.append_nil]
  | flag _ | unbuilt _ _ =>
    rw [admission?_of_ne hcaller (by simp), Option.toList_none, List.append_nil]
    exact .refl c.pool.held
  | install _ hbuild =>
    -- the generation that is built has no jobs
    obtain ⟨-, -, rfl⟩ := Pool.build_eq_ok_iff.1 hbuild
    rw [admission?_of_ne hcaller (by simp), Option.toList_none, List.append_nil]
    exact .refl c.pool.held
  | retire | retireActive =>
    rw [admission?_of_ne hcaller (by simp), Option.toList_none, List.append_nil,
      Pool.held_retire]
  | enter hg hask =>
    rw [admission?_of_ask hcaller hg, hask]
    exact (Pool.held_of_ask ho hg hask).1
  | saturated hg hask =>
    rw [admission?_of_ask hcaller hg, hask]
    simp
  | retry hg hretired =>
    rw [admission?_of_ask hcaller hg, Generation.ask_eq_retired_iff.2 hretired]
    simp

variable [DecidableEq ι]

/-- The jobs that a row of moves admits, the first one first. -/
def admissions (c : Crowd ι) : List (Move ι) → List (Nat × ι)
  | [] => []
  | move :: moves =>
    (c.admission? move).toList ++
      match c.move? move with
      | some c' => c'.admissions moves
      | none => []

/-- The admissions are what the moves note down. -/
theorem admissions_eq_notes (c : Crowd ι) (moves : List (Move ι)) :
    c.admissions moves = Rows.notes move? admission? c moves := by
  induction moves generalizing c with
  | nil => rfl
  | cons move moves ih =>
    rw [admissions, Rows.notes]
    cases c.move? move with
    | none => rfl
    | some c' => exact congrArg ((c.admission? move).toList ++ ·) (ih c')

theorem admissions_concat (hrun : c.run? moves = some c') (move : Move ι) :
    c.admissions (moves ++ [move]) = c.admissions moves ++ (c'.admission? move).toList := by
  rw [admissions_eq_notes, admissions_eq_notes]
  exact Rows.notes_concat hrun move

/-- Each move accounts for what the pool gains and loses. -/
theorem held_of_move? (ho : c.pool.Ordered) (hmove : c.move? move = some c') :
    (c.pool.held ++ (c.admission? move).toList).Perm (c'.pool.held ++ move.ending?.toList) := by
  -- the moves that admit or end a job change what is held by that job, and the others by nothing
  cases move with
  | arrive caller =>
    obtain ⟨-, h⟩ := Option.ite_none_right_eq_some.1 hmove
    cases h
    rfl
  | act i =>
    obtain ⟨caller, pool, caller', hcaller, hadvance, rfl⟩ := exists_advance hmove
    refine (held_of_act ho hcaller hadvance).symm.trans ?_
    show pool.held.Perm (pool.held ++ [])
    rw [List.append_nil]
  | giveUp i =>
    obtain ⟨-, -, -, -, -, -, -, rfl⟩ := exists_giveUp hmove
    rfl
  | noThreads i reason =>
    obtain ⟨-, -, -, rfl⟩ := exists_noThreads hmove
    rfl
  | start n job =>
    obtain ⟨g, g', hg, hstart, rfl⟩ := exists_start hmove
    exact (Pool.held_of_start? ho hg hstart).1.symm.append_right []
  | finish n job =>
    obtain ⟨g, hg, hrunning, rfl⟩ := exists_finish hmove
    show (c.pool.held ++ []).Perm _
    rw [List.append_nil]
    exact (Pool.held_of_finish ho hg hrunning).1

/-- **The ledger of a crowd.** What was admitted is held, or has ended. -/
theorem admissions_perm (hs : c.Sound) (hempty : c.pool.held = [])
    (hrun : c.run? moves = some c') :
    (c.admissions moves).Perm (c'.pool.held ++ endings moves) := by
  refine Rows.induction
    (I := fun moves c' => (c.admissions moves).Perm (c'.pool.held ++ endings moves)) ?_ ?_ hrun
  · rw [hempty]
    rfl
  · intro moves between move last hrun hbefore hmove
    have hheld := held_of_move? (hs.run hrun).ordered hmove
    rw [admissions_concat hrun, endings_concat]
    -- what the move adds is set apart from what has ended before
    refine (hbefore.append_right _).trans ?_
    rw [List.append_assoc]
    refine (List.perm_append_comm.append_left _).trans ?_
    rw [← List.append_assoc]
    refine (hheld.append_right _).trans ?_
    rw [List.append_assoc]
    exact List.perm_append_comm.append_left _

/-- What a generation has admitted it holds, or it has ended. -/
theorem admissions_of_generation (hs : c.Sound) (hempty : c.pool.held = [])
    (hrun : c.run? moves = some c') {n : Nat} {g : Generation ι}
    (hg : c'.pool.generation? n = some g) :
    (Pool.ofNumber n (c.admissions moves)).Perm (g.held ++ Pool.ofNumber n (endings moves)) := by
  rw [← Pool.ofNumber_held_of_generation? (hs.run hrun).ordered hg, ← Pool.ofNumber_append]
  exact (admissions_perm hs hempty hrun).filter _

/-- The slots in use are those of the jobs that were admitted and have not ended. -/
theorem inFlight_add_endings (hs : c.Sound) (hempty : c.pool.held = [])
    (hrun : c.run? moves = some c') {n : Nat} {g : Generation ι}
    (hg : c'.pool.generation? n = some g) (hbalanced : g.Balanced) :
    g.inFlight + (Pool.ofNumber n (endings moves)).length =
      (Pool.ofNumber n (c.admissions moves)).length := by
  rw [(admissions_of_generation hs hempty hrun hg).length_eq, List.length_append]
  unfold Generation.held
  rw [List.length_map, hbalanced]

end Crowd

end SemanticHighlight
