import SemanticHighlight.Proofs.Pool.Capacity
import SemanticHighlight.Proofs.Pool.Replacing

/-!
# The slots of a generation

A generation counts the slots in use up when it admits a job and down when a job ends, and the
count is that of its jobs and stays within its capacity (`Generation.Counted`). While a pool is
not shut down its active generation is not retired (`Crowd.Guarded`). `Crowd.Admitting` puts the
two together, and holds of every crowd that comes up.

So a job that ends has a slot to give up (`Crowd.Admitting.released`), and no more slots of a
generation come into use once it is retired (`Crowd.Admitting.retired`).
-/

namespace SemanticHighlight

namespace Generation

variable {ι : Type} {g g' : Generation ι} {policy : Backpressure} {job : ι}

/-- What holds of a generation that counts its jobs. -/
structure Counted (g : Generation ι) : Prop where
  balanced : g.Balanced
  within : g.inFlight ≤ g.capacity.toNat

theorem counted_fresh (n : Nat) (workers queueSize : UInt64) :
    (fresh n workers queueSize : Generation ι).Counted :=
  ⟨balanced_fresh n workers queueSize, Nat.zero_le _⟩

/-- A job that begins stays in flight, be it the oldest or not. -/
theorem inFlight_of_start? [DecidableEq ι] (h : g.start? job = some g') :
    g'.inFlight = g.inFlight := by
  obtain ⟨-, -, rfl⟩ := start?_eq_some_iff.1 h
  rfl

/-- The job that ends has a slot to give up. -/
theorem Balanced.inFlight_finish [DecidableEq ι] (h : g.Balanced) (hrunning : job ∈ g.running) :
    g.inFlight = (g.finish job).inFlight + 1 := by
  have hpos : 0 < g.inFlight := by
    rw [h, jobs, List.length_append]
    have hlength := List.length_pos_of_mem hrunning
    omega
  unfold Generation.finish
  rw [if_pos hrunning]
  dsimp only
  omega

/-- No change of a generation spoils its count. -/
theorem Change.counted [DecidableEq ι] (h : g.Change policy g') (hg : g.Counted) :
    g'.Counted := by
  refine ⟨h.balanced hg.balanced, ?_⟩
  rw [h.capacity_eq]
  have hwithin := hg.within
  cases h with
  | same | retire => exact hwithin
  | enter hask =>
    obtain ⟨hroom, rfl⟩ := ask_eq_admitted_iff.1 hask
    simp only [hasRoom, Bool.and_eq_true, decide_eq_true_iff] at hroom
    exact hroom.2
  | start hstart =>
    rw [inFlight_of_start? hstart]
    exact hwithin
  | finish hrunning =>
    have hpaid := hg.balanced.inFlight_finish hrunning
    omega

/-- A retired generation stays retired, and no more slots come into use. -/
theorem Change.retired [DecidableEq ι] (h : g.Change policy g') (hg : g.Counted)
    (hretired : g.retired = true) : g'.retired = true ∧ g'.inFlight ≤ g.inFlight := by
  cases h with
  | same => exact ⟨hretired, Nat.le_refl _⟩
  | retire => exact ⟨rfl, Nat.le_refl _⟩
  | enter hask =>
    rw [ask_eq_retired_iff.2 hretired] at hask
    cases hask
  | start hstart =>
    have hsame : g'.retired = g.retired :=
      congrArg (fun terms => terms.2.2) (terms_of_start? hstart)
    exact ⟨hsame.trans hretired, Nat.le_of_eq (inFlight_of_start? hstart)⟩
  | @finish job hrunning =>
    have hsame : (g.finish job).retired = g.retired :=
      congrArg (fun terms => terms.2.2) (terms_finish g job)
    have hpaid := hg.balanced.inFlight_finish hrunning
    exact ⟨hsame.trans hretired, by omega⟩

/-- Whether all slots of a generation are in use, and it is not retired. -/
def Full (g : Generation ι) : Prop := g.retired = false ∧ g.inFlight = g.capacity.toNat

/-- A counted generation is full exactly if it is open and has no slot to give. -/
theorem Counted.full_iff (h : g.Counted) :
    g.Full ↔ g.retired = false ∧ ¬g.inFlight < g.capacity.toNat := by
  have hwithin := h.within
  unfold Full
  refine and_congr_right fun _ => ?_
  omega

/-- The answer to a job that finds all slots in use, by what is to happen to it then. -/
def noRoom (policy : Backpressure) (outstanding : Nat) : Admission (Generation ι) :=
  match policy with
  | .reject => .saturated outstanding
  | .block => .full outstanding

/-- A job is told that there is no room exactly if the generation is full. -/
theorem Counted.ask_eq_noRoom_iff (h : g.Counted) (policy' : Backpressure) {outstanding : Nat} :
    g.ask policy job = noRoom policy' outstanding ↔
      policy = policy' ∧ g.Full ∧ g.inFlight = outstanding := by
  rw [h.full_iff]
  unfold ask
  by_cases hretired : g.retired = true
  · cases policy' <;> simp [hretired, noRoom]
  · by_cases hroom : g.inFlight < g.capacity.toNat
    · cases policy' <;> simp [hretired, hroom, noRoom]
    · cases policy <;> cases policy' <;> simp [hretired, hroom, noRoom]

end Generation

namespace Crowd

variable {ι : Type} {c c' : Crowd ι} {policy : Backpressure}

/-- What holds of the active generation, in every crowd that comes up. -/
structure Guarded (c : Crowd ι) : Prop where
  sealing : .sealing ∈ c.callers → c.pool.shutDown = true
  /-- Only generations that are active no more are about to be retired by a change of size. -/
  retiring : ∀ {n}, .retiring n ∈ c.callers → n < c.pool.active.number
  active : c.pool.active.retired = true → c.pool.shutDown = true

/-- A new pool is guarded: it is open, and nobody is at work on it. -/
theorem guarded_of_create {workers queueSize : UInt64} {threads : Except String Unit} {p : Pool ι}
    (hp : Pool.create workers queueSize policy threads = .ok p) : (alone p).Guarded := by
  obtain ⟨-, -, -, rfl⟩ := Pool.create_eq_ok_iff.1 hp
  refine ⟨?_, ?_, fun hretired => by cases hretired⟩
  · simp [alone]
  · simp [alone]

/-- What changes the jobs of generations only does not retire the active one. -/
theorem Guarded.active_of_terms {pool : Pool ι} (h : c.Guarded)
    (hterms : pool.terms = c.pool.terms) (hshut : pool.shutDown = c.pool.shutDown) :
    pool.active.retired = true → pool.shutDown = true := by
  have hsame : pool.active.retired = c.pool.active.retired :=
    congrArg (fun terms => terms.2.2) (Pool.active_of_terms hterms)
  rw [hsame, hshut]
  exact h.active

/-- A step of a caller retires the active generation only if the flag is set. -/
theorem Guarded.active_of_advance (hs : c.Sound) (h : c.Guarded) {caller caller' : Caller ι}
    {pool : Pool ι} (hcaller : caller ∈ c.callers) (hadvance : c.pool.Advance caller pool caller') :
    pool.active.retired = true → pool.shutDown = true := by
  -- most steps leave the active generation as it is; the others either keep its terms or come after
  -- the flag
  cases hadvance with
  | turnAway _ | pass _ | choose | retry _ _ | saturated _ _ | noWorkers | tooLate _ _
  | resizePass _ _ | sameSize _ | unbuilt _ _ | closeAgain _ => exact h.active
  | enter hg hask => exact h.active_of_terms (Pool.terms_of_ask hs.ordered hg hask) rfl
  | install _ hbuild =>
    obtain ⟨-, -, rfl⟩ := Pool.build_eq_ok_iff.1 hbuild
    intro hretired
    cases hretired
  | @retire n =>
    have hother : c.pool.active.number ≠ n := Nat.ne_of_gt (h.retiring hcaller)
    unfold Pool.retire
    rw [Pool.modify_former hother]
    exact h.active
  | flag _ => exact fun _ => rfl
  | retireActive => exact fun _ => h.sealing hcaller

variable [DecidableEq ι]

/-- A caller that is about to retire a generation has replaced it, so that the active one is
younger. -/
theorem Step.retiring (hs : c.Sound) (hstep : Step c c')
    (h : ∀ {n}, .retiring n ∈ c.callers → n < c.pool.active.number) {n : Nat}
    (hin : .retiring n ∈ c'.callers) : n < c'.pool.active.number := by
  rcases hstep.passed_of_mem hin nofun nofun with hbefore | ⟨_, _, -, hadvance, hpool⟩
  · exact Nat.lt_of_lt_of_le (h hbefore) ((Since.refl c).step hs hstep).active
  · -- only a change that has put another generation in front leads there
    cases hadvance with
    | @install _ g _ hbuild =>
      have hnumber : g.number = c.pool.next := Pool.number_of_build hbuild
      rw [hpool]
      exact hnumber ▸ hs.ordered.next

/-- Every move keeps a crowd guarded. The active generation is retired by a caller that shuts the
pool down, and by no other. -/
theorem Guarded.step (hs : c.Sound) (h : c.Guarded) (hstep : Step c c') : c'.Guarded where
  sealing := hstep.sealing h.sealing
  retiring := hstep.retiring hs h.retiring
  active := by
    cases hstep with
    | arrive _ | giveUp _ _ _ | noThreads _ _ => exact h.active
    | start hg hstart => exact h.active_of_terms (Pool.terms_of_start? hs.ordered hg hstart) rfl
    | finish hg _ => exact h.active_of_terms (Pool.terms_of_finish hs.ordered hg _) rfl
    | act hcaller hadvance =>
      exact h.active_of_advance hs (List.mem_of_getElem? hcaller) hadvance

/-- The invariant of bounded admission. -/
structure Admitting (queueSize : UInt64) (c : Crowd ι) : Prop where
  built : Built queueSize c
  guarded : c.Guarded
  counted : ∀ g ∈ c.pool.generations, g.Counted

variable {queueSize : UInt64} {moves : List (Move ι)} {move : Move ι} {g : Generation ι} {n i : Nat}
  {job : ι}

omit [DecidableEq ι] in
/-- A new pool admits within its bound. -/
theorem admitting_of_create {workers : UInt64} {threads : Except String Unit} {p : Pool ι}
    (hp : Pool.create workers queueSize policy threads = .ok p) :
    Admitting queueSize (alone p) where
  built := built_of_create hp
  guarded := guarded_of_create hp
  counted := by
    obtain ⟨-, -, -, rfl⟩ := Pool.create_eq_ok_iff.1 hp
    intro g hg
    rw [List.mem_singleton.1 hg]
    exact Generation.counted_fresh ..

/-- Every move keeps the invariant of admission. -/
theorem Admitting.step (h : Admitting queueSize c) (hstep : Step c c') :
    Admitting queueSize c' where
  built := h.built.step hstep
  guarded := h.guarded.step h.built.sound hstep
  counted := by
    refine hstep.forall_generations h.built.sound.ordered (fun hg hchange => hchange.counted hg)
      (fun _ hbuild => ?_) h.counted
    obtain ⟨-, -, rfl⟩ := Pool.build_eq_ok_iff.1 hbuild
    exact Generation.counted_fresh ..

theorem Admitting.run (h : Admitting queueSize c) (hrun : c.run? moves = some c') :
    Admitting queueSize c' :=
  run_induction h Admitting.step hrun

omit [DecidableEq ι] in
/-- In every generation the jobs in flight keep within the workers and the places beside them. -/
theorem Admitting.within (h : Admitting queueSize c) (hg : g ∈ c.pool.generations) :
    g.capacity.toNat = g.workers.toNat + queueSize.toNat ∧
      g.inFlight ≤ g.workers.toNat + queueSize.toNat := by
  obtain ⟨hsized, -⟩ := h.built.capacity g hg
  exact ⟨hsized, hsized ▸ (h.counted g hg).within⟩

/-- A job that ends gives up one slot, and there is one in use to give up. -/
theorem Admitting.released (h : Admitting queueSize c)
    (hmove : c.move? (.finish n job) = some c') :
    ∃ g g', c.pool.generation? n = some g ∧ c'.pool.generation? n = some g' ∧
      g.inFlight = g'.inFlight + 1 := by
  obtain ⟨g, hg, hrunning, rfl⟩ := exists_finish hmove
  have hcounted := h.counted g (Pool.mem_of_generation? hg)
  refine ⟨g, g.finish job, hg, ?_, hcounted.balanced.inFlight_finish hrunning⟩
  have hterms := Pool.terms_of_finish h.built.sound.ordered hg job
  have hordered := h.built.sound.ordered.of_numbers (Pool.numbers_of_terms hterms)
    (Nat.le_refl _)
  obtain ⟨later, before, -, hmodify⟩ := Pool.exists_place h.built.sound.ordered hg
  have hmem : g.finish job ∈ (c.pool.modify n (·.finish job)).generations := by
    rw [hmodify]
    exact List.mem_append_right _ List.mem_cons_self
  have hnumber : (g.finish job).number = g.number :=
    congrArg Prod.fst (Generation.terms_finish g job)
  -- the generation is found again under its number, which ending a job does not change
  have hfound := Pool.generation?_of_mem hordered hmem
  rwa [hnumber, Pool.number_of_generation? hg] at hfound

/-- A generation that is retired stays so, and never has more slots in use than then. -/
theorem Admitting.retired (h : Admitting queueSize c) (hrun : c.run? moves = some c')
    (hg : c.pool.generation? n = some g) (hretired : g.retired = true) :
    ∃ g', c'.pool.generation? n = some g' ∧ g'.retired = true ∧ g'.inFlight ≤ g.inFlight := by
  have hkept : Admitting queueSize c' ∧
      ∃ g', c'.pool.generation? n = some g' ∧ g'.retired = true ∧ g'.inFlight ≤ g.inFlight := by
    refine run_induction (P := fun c' => Admitting queueSize c' ∧ ∃ g',
      c'.pool.generation? n = some g' ∧ g'.retired = true ∧ g'.inFlight ≤ g.inFlight)
      ⟨h, g, hg, hretired, Nat.le_refl _⟩ ?_ hrun
    rintro between last ⟨hbetween, g', hg', hretired', hle⟩ hstep
    obtain ⟨g'', hg'', hchange⟩ := hstep.generation?_change hbetween.built.sound.ordered hg'
    obtain ⟨hretired'', hle'⟩ :=
      hchange.retired (hbetween.counted g' (Pool.mem_of_generation? hg')) hretired'
    exact ⟨hbetween.step hstep, g'', hg'', hretired'', Nat.le_trans hle' hle⟩
  exact hkept.2

end Crowd

end SemanticHighlight
