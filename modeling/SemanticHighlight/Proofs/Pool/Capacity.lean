import Mathlib.Algebra.Order.Ring.Nat
import SemanticHighlight.Proofs.Pool.Changes
import SemanticHighlight.Proofs.Pool.Closing

/-!
# How many jobs a pool has room for

A generation is built with room for as many jobs as it has workers and as may wait beside them.
Settings are checked for each of the two numbers alone, and their sum may have more than 64 bits.
No generation is built then, neither for a new pool nor for a change of size: both end in a panic
(`capacity_overflowing`). A generation that is built has the sum as its capacity, and admits two
jobs at least while it holds none.

`Crowd.Built` carries this over every run, also for the generations that a change of size installs.
Main statement (`capacity_of_settings`).
-/

namespace SemanticHighlight

/-- Whether the capacity of a generation is the sum of its workers and of the jobs that may wait. -/
def Generation.Sized {ι : Type} (queueSize : UInt64) (g : Generation ι) : Prop :=
  g.capacity.toNat = g.workers.toNat + queueSize.toNat

/-- A sum that has 64 bits is not cut. -/
theorem Generation.sized_fresh {ι : Type} {workers queueSize : UInt64} (n : Nat)
    (hfits : workers.toNat + queueSize.toNat < UInt64.size) :
    (fresh n workers queueSize : Generation ι).Sized queueSize := by
  show (workers + queueSize).toNat = _
  rw [UInt64.toNat_add, Nat.mod_eq_of_lt hfits]
  rfl

namespace Pool

variable {ι : Type} {p : Pool ι}

/-- The pool after it has admitted jobs one after the other, if it admits all of them. -/
def admitAll? (p : Pool ι) (jobs : List ι) : Option (Pool ι) :=
  jobs.foldlM (fun p job =>
    match p.submit job with
    | .admitted p' => some p'
    | _ => none) p

/-- As many jobs are admitted as there are slots that are not in use. -/
theorem admitAll?_isSome_iff {jobs : List ι} (hopen : p.shutDown = false)
    (hactive : p.active.retired = false)
    (hle : p.active.inFlight ≤ p.active.capacity.toNat) :
    (p.admitAll? jobs).isSome ↔
      p.active.inFlight + jobs.length ≤ p.active.capacity.toNat := by
  -- on the jobs: each takes a slot, and there is one for the first exactly if the list is not too
  -- long
  induction jobs generalizing p with
  | nil => exact ⟨fun _ => hle, fun _ => rfl⟩
  | cons job jobs ih =>
    unfold admitAll?
    rw [List.foldlM_cons, List.length_cons]
    by_cases hroom : p.active.inFlight < p.active.capacity.toNat
    · let p' : Pool ι := { p with active := { p.active with
        inFlight := p.active.inFlight + 1, waiting := p.active.waiting ++ [job] } }
      have hsubmit : p.submit job = .admitted p' := by
        simp [p', submit, hopen, Generation.ask, hactive, hroom]
      rw [hsubmit]
      refine (ih (p := p') hopen hactive hroom).trans ?_
      show p.active.inFlight + 1 + jobs.length ≤ p.active.capacity.toNat ↔ _
      omega
    · have hfull : (match p.submit job with
          | .admitted p' => some p'
          | _ => none) = none := by
        cases hpolicy : p.policy <;>
          simp [submit, hopen, Generation.ask, hactive, hroom, hpolicy]
      rw [hfull]
      show (none : Option (Pool ι)).isSome ↔ _
      simp only [Option.isSome_none, Bool.false_eq_true, false_iff]
      omega

/-- What a pool has room for while its active generation holds no job. -/
structure Roomy (p : Pool ι) : Prop where
  /-- It admits so many jobs before one has to wait or is turned away. -/
  admits_iff : ∀ jobs, (p.admitAll? jobs).isSome ↔
    jobs.length ≤ p.active.workers.toNat + p.queueSize.toNat
  admits_two : ∀ job job', (p.admitAll? [job, job']).isSome

/-- An idle generation of the proper size admits as many jobs as it has slots for, one after the
other, and no more. -/
theorem roomy_of_idle (hsized : p.active.Sized p.queueSize) (hworkers : p.active.workers ≠ 0)
    (hqueue : p.queueSize ≠ 0) (hopen : p.shutDown = false) (hactive : p.active.retired = false)
    (hidle : p.active.inFlight = 0) : p.Roomy := by
  have hadmits (jobs : List ι) : (p.admitAll? jobs).isSome ↔
      jobs.length ≤ p.active.workers.toNat + p.queueSize.toNat := by
    rw [admitAll?_isSome_iff hopen hactive (hidle ▸ Nat.zero_le _), hidle, Nat.zero_add, hsized]
  refine ⟨hadmits, fun job job' => (hadmits _).2 ?_⟩
  have hworkers : p.active.workers.toNat ≠ 0 := fun h => hworkers (UInt64.toNat_inj.1 h)
  have hqueue : p.queueSize.toNat ≠ 0 := fun h => hqueue (UInt64.toNat_inj.1 h)
  show 2 ≤ _
  omega

end Pool

namespace Settings

variable {ι : Type} {s : Settings}

/-- Settings can be used if none of their numbers is zero. -/
theorem check_eq_ok_iff : s.check = .ok () ↔
    s.parallelism ≠ some 0 ∧ s.queueSize ≠ 0 ∧ s.batchTimeoutMs ≠ 0 := by
  unfold check validate
  by_cases hworkers : s.parallelism = some 0
  · simp [hworkers]
  · by_cases hqueue : s.queueSize = 0
    · simp [hworkers, hqueue]
    · by_cases htime : s.batchTimeoutMs = 0 <;> simp [hworkers, hqueue, htime]

/-- What becomes of settings that can be used, and that name the number of workers, depends on
what the pool of that size comes to. -/
theorem ofSettings_eq {workers : UInt64} (processors : UInt64) (hs : s.check = .ok ())
    (hw : s.parallelism = some workers) :
    (Pool.ofSettings s processors : Except Abort (Pool ι)) =
      match Pool.create workers s.queueSize s.backpressure with
      | .ok p => .ok p
      | .error e => .error e.abort := by
  have hsame : s.workers processors = workers := by
    unfold Settings.workers
    rw [hw]
    rfl
  cases hmade : (Pool.create workers s.queueSize s.backpressure : Except ResizeError (Pool ι)) with
  | ok p => simp only [Pool.ofSettings, hs, hsame, hmade]
  | error e => simp only [Pool.ofSettings, hs, hsame, hmade]

/-- If the sum of workers and places has too many bits, making the pool panics. -/
theorem ofSettings_eq_panic {workers : UInt64} (processors : UInt64) (hs : s.check = .ok ())
    (hw : s.parallelism = some workers)
    (hexceeds : UInt64.size ≤ workers.toNat + s.queueSize.toNat) :
    (Pool.ofSettings s processors : Except Abort (Pool ι)) = .error .panic := by
  obtain ⟨hworkers, -, -⟩ := check_eq_ok_iff.1 hs
  have hne : workers ≠ 0 := by
    rintro rfl
    exact hworkers hw
  have hbuild : (Generation.build (.ok ()) 0 workers s.queueSize : Except BuildError (Generation ι))
      = .error .overflow :=
    if_neg (Nat.not_lt.2 hexceeds)
  have hcreate : (Pool.create workers s.queueSize s.backpressure : Except ResizeError (Pool ι))
      = .error (.notBuilt .overflow) := by
    simp only [Pool.create, if_neg hne, hbuild]
  simp only [ofSettings_eq processors hs hw, hcreate, ResizeError.abort]

/-- Else there is a pool. -/
theorem ofSettings_eq_ok {workers : UInt64} (processors : UInt64) (hs : s.check = .ok ())
    (hw : s.parallelism = some workers) (hfits : workers.toNat + s.queueSize.toNat < UInt64.size) :
    ∃ p : Pool ι, Pool.ofSettings s processors = .ok p ∧
      Pool.create workers s.queueSize s.backpressure = .ok p := by
  obtain ⟨hworkers, -, -⟩ := check_eq_ok_iff.1 hs
  have hne : workers ≠ 0 := by
    rintro rfl
    exact hworkers hw
  have hcreate : Pool.create (ι := ι) workers s.queueSize s.backpressure = .ok _ :=
    Pool.create_eq_ok_iff.2 ⟨hne, rfl, hfits, rfl⟩
  refine ⟨_, ?_, hcreate⟩
  rw [ofSettings_eq processors hs hw, hcreate]

end Settings

namespace Crowd

variable {ι : Type} {c c' : Crowd ι} {queueSize : UInt64}

/-- What holds of the sizes of generations, in every crowd that comes up. -/
structure Built (queueSize : UInt64) (c : Crowd ι) : Prop where
  sound : c.Sound
  places : c.pool.queueSize = queueSize
  capacity : ∀ g ∈ c.pool.generations, g.Sized queueSize ∧ g.workers ≠ 0
  /-- Nobody is about to install a generation without workers. -/
  installing : .installing 0 ∉ c.callers

/-- A new pool has the size that was asked for. -/
theorem built_of_create {workers : UInt64} {policy : Backpressure} {threads : Except String Unit}
    {p : Pool ι} (hp : Pool.create workers queueSize policy threads = .ok p) :
    Built queueSize (alone p) where
  sound := sound_of_create hp
  places := by
    obtain ⟨-, -, -, rfl⟩ := Pool.create_eq_ok_iff.1 hp
    rfl
  capacity := by
    obtain ⟨hw, -, hfits, rfl⟩ := Pool.create_eq_ok_iff.1 hp
    intro g hg
    rw [List.mem_singleton.1 hg]
    exact ⟨Generation.sized_fresh 0 hfits, hw⟩
  installing := by simp [alone]

/-- A pool of the proper size is roomy while its active generation is idle. -/
theorem Built.roomy_of_idle (h : Built queueSize c) (hqueue : queueSize ≠ 0)
    (hopen : c.pool.shutDown = false) (hactive : c.pool.active.retired = false)
    (hidle : c.pool.active.inFlight = 0) : c.pool.Roomy := by
  obtain ⟨hsized, hworkers⟩ := h.capacity _ List.mem_cons_self
  rw [← h.places] at hsized hqueue
  exact Pool.roomy_of_idle hsized hworkers hqueue hopen hactive hidle

variable [DecidableEq ι]

/-- Nobody comes to install a generation without workers, since the check before refuses it. -/
theorem Step.installing (hstep : Step c c') (h : .installing 0 ∉ c.callers) :
    .installing 0 ∉ c'.callers := by
  intro hin
  rcases hstep.passed_of_mem hin nofun nofun with hbefore | ⟨_, _, -, hadvance, -⟩
  · exact h hbefore
  · -- only a check that has found some workers leads there
    cases hadvance with
    | resizePass hw _ => exact hw rfl

/-- Every move keeps the sizes. A generation is brought in by an installation, with the queue of the
pool and workers that are not none. -/
theorem Built.step (h : Built queueSize c) (hstep : Step c c') : Built queueSize c' where
  sound := h.sound.step hstep
  places := hstep.queueSize_eq.1.trans h.places
  capacity := by
    refine hstep.forall_generations h.sound.ordered ?_ ?_ h.capacity
    · rintro g g' ⟨hsized, hw⟩ hchange
      unfold Generation.Sized
      rw [hchange.capacity_eq, hchange.workers_eq]
      exact ⟨hsized, hw⟩
    · intro workers g hcaller hbuild
      obtain ⟨-, hfits, rfl⟩ := Pool.build_eq_ok_iff.1 hbuild
      rw [h.places] at hfits ⊢
      refine ⟨Generation.sized_fresh _ hfits, ?_⟩
      rintro (rfl : workers = 0)
      exact h.installing hcaller
  installing := hstep.installing h.installing

theorem Built.run {moves : List (Move ι)} (h : Built queueSize c)
    (hrun : c.run? moves = some c') : Built queueSize c' :=
  run_induction h Built.step hrun

/-- What holds of the room of a pool, in every crowd that comes up. -/
structure Roomy (c : Crowd ι) : Prop where
  /-- It is the number of workers and of jobs that may wait, in each generation. -/
  sized : ∀ g ∈ c.pool.generations, g.Sized c.pool.queueSize
  idle : c.pool.shutDown = false → c.pool.active.retired = false →
    c.pool.active.inFlight = 0 → c.pool.Roomy
  /-- A change of size leaves a pool that has room as well, if the sum has 64 bits. -/
  installed : ∀ {i : Nat} {workers : UInt64},
    c.callers[i]? = some (.installing workers) → c.pool.active.workers ≠ workers →
    workers.toNat + c.pool.queueSize.toNat < UInt64.size →
      ∃ c', c.move? (.act i) = some c' ∧ c'.pool.active.workers = workers ∧
        c'.pool.active.inFlight = 0 ∧ (c.pool.shutDown = false → c'.pool.Roomy)
  /-- And else it ends in a panic, with a number used up and nothing else changed. -/
  exceeded : ∀ {i : Nat} {workers : UInt64},
    c.callers[i]? = some (.installing workers) → c.pool.active.workers ≠ workers →
    UInt64.size ≤ workers.toNat + c.pool.queueSize.toNat →
      ∃ c' e, c.move? (.act i) = some c' ∧ c'.pool = c.pool.skip ∧
        c'.callers[i]? = some (.resized (.error e)) ∧ e.abort = .panic

/-- A change of size that fits can take its next step, and the pool has the new size then, with room
for as many jobs. -/
theorem Built.exists_installed (h : Built queueSize c) (hqueue : queueSize ≠ 0) {i : Nat}
    {workers : UInt64} (hcaller : c.callers[i]? = some (.installing workers))
    (hother : c.pool.active.workers ≠ workers)
    (hfits : workers.toNat + c.pool.queueSize.toNat < UInt64.size) :
    ∃ c', c.move? (.act i) = some c' ∧ c'.pool.active.workers = workers ∧
      c'.pool.active.inFlight = 0 ∧ (c.pool.shutDown = false → c'.pool.Roomy) := by
  have hbuild := Pool.build_eq_ok_iff (p := c.pool).2 ⟨rfl, hfits, rfl⟩
  have hadvance : c.pool.advance? (.installing workers) =
      some (c.pool.install (.fresh c.pool.next workers c.pool.queueSize),
        .retiring c.pool.active.number) := by
    simp [Pool.advance?, hother, Pool.replace, hbuild]
  obtain ⟨hact, -⟩ := move?_act hcaller hadvance
  have hbuilt := h.step (.of_move? hact)
  exact ⟨_, hact, rfl, rfl, fun hopen => hbuilt.roomy_of_idle hqueue hopen rfl rfl⟩

/-- A change of size that does not fit takes its next step into a panic. The pool keeps its
generations, one number of which is used up. -/
theorem exists_exceeded {i : Nat} {workers : UInt64}
    (hcaller : c.callers[i]? = some (.installing workers))
    (hother : c.pool.active.workers ≠ workers)
    (hexceeds : UInt64.size ≤ workers.toNat + c.pool.queueSize.toNat) :
    ∃ c' e, c.move? (.act i) = some c' ∧ c'.pool = c.pool.skip ∧
      c'.callers[i]? = some (.resized (.error e)) ∧ e.abort = .panic := by
  have hbuild : c.pool.build (.ok ()) workers = .error .overflow :=
    if_neg (Nat.not_lt.2 hexceeds)
  have hadvance : c.pool.advance? (.installing workers) =
      some (c.pool.skip, .resized (.error (.notBuilt .overflow))) := by
    simp [Pool.advance?, hother, Pool.replace, hbuild]
  obtain ⟨hact, hanswer⟩ := move?_act hcaller hadvance
  exact ⟨_, _, hact, rfl, hanswer, rfl⟩

/-- What holds of the sizes says what there is room for, now and after any change of size. -/
theorem Built.roomy (h : Built queueSize c) (hqueue : queueSize ≠ 0) : c.Roomy where
  sized := fun g hg => by
    rw [h.places]
    exact (h.capacity g hg).1
  idle := h.roomy_of_idle hqueue
  installed := h.exists_installed hqueue
  exceeded := exists_exceeded

/-- **The capacity of a pool.** Settings that can be used, with a number of workers, make a pool
that holds no job, if the sum of the workers and of the jobs that may wait has 64 bits; else
making the pool panics. Whatever the callers of the pool do, each generation has this sum as its
capacity. As long as the active generation holds no job, as one that has just been installed, the
pool admits as many jobs as that before one has to wait or is turned away, and these are two at
least. A change of size for which the sum has too many bits panics as well, and leaves the
generations as they are. -/
theorem capacity_of_settings {s : Settings} {workers : UInt64} (processors : UInt64)
    (hs : s.check = .ok ()) (hw : s.parallelism = some workers) :
    (UInt64.size ≤ workers.toNat + s.queueSize.toNat →
      (Pool.ofSettings s processors : Except Abort (Pool ι)) = .error .panic) ∧
    (workers.toNat + s.queueSize.toNat < UInt64.size →
      ∃ p : Pool ι, Pool.ofSettings s processors = .ok p ∧
        p.active = .fresh 0 workers s.queueSize ∧ p.queueSize = s.queueSize ∧
        ∀ {moves : List (Move ι)} {c : Crowd ι}, (alone p).run? moves = some c →
          c.pool.queueSize = s.queueSize ∧ c.Roomy) := by
  obtain ⟨-, hqueue, -⟩ := Settings.check_eq_ok_iff.1 hs
  refine ⟨Settings.ofSettings_eq_panic processors hs hw, fun hfits => ?_⟩
  obtain ⟨p, hp, hcreate⟩ := Settings.ofSettings_eq_ok (ι := ι) processors hs hw hfits
  refine ⟨p, hp, ?_, (built_of_create hcreate).places, fun {moves c} hrun => ?_⟩
  · obtain ⟨-, -, -, rfl⟩ := Pool.create_eq_ok_iff.1 hcreate
    rfl
  · have hbuilt := (built_of_create hcreate).run hrun
    exact ⟨hbuilt.places, hbuilt.roomy hqueue⟩

/-- A pool of one worker and one place is made larger, and admits four jobs at once then. -/
theorem capacity_of_settings_resized :
    ∃ (s : Settings) (p : Pool Nat) (moves : List (Move Nat)) (c : Crowd Nat),
      s.check = .ok () ∧ s.parallelism = some 1 ∧ Pool.ofSettings s 8 = .ok p ∧
        (alone p).run? moves = some c ∧ c.pool.active = .fresh 1 3 1 ∧ c.Roomy ∧
        (c.pool.admitAll? [1, 2, 3, 4]).isSome ∧ ¬(c.pool.admitAll? [1, 2, 3, 4, 5]).isSome := by
  let s : Settings := { parallelism := some 1, queueSize := 1, backpressure := .reject }
  have hs : s.check = .ok () := rfl
  let p : Pool Nat := { active := .fresh 0 1 1, queueSize := 1, policy := .reject }
  let moves : List (Move Nat) := [.arrive (.resizing 3), .act 0, .act 0]
  let c : Crowd Nat :=
    { pool :=
        { active := .fresh 1 3 1, former := [.fresh 0 1 1], queueSize := 1, policy := .reject
          next := 2 }
      callers := [.retiring 0] }
  have hrun : (alone p).run? moves = some c := rfl
  obtain ⟨-, hpool⟩ := capacity_of_settings (ι := Nat) (s := s) 8 hs rfl
  obtain ⟨_, hp, -, -, hroomy⟩ := hpool (by decide)
  cases hp
  obtain ⟨-, hc⟩ := hroomy hrun
  -- four slots in the new generation, whatever the former one had
  have hadmits := (hc.idle rfl rfl rfl).admits_iff
  exact ⟨s, p, moves, c, hs, rfl, rfl, hrun, rfl, hc, (hadmits _).2 (by decide),
    fun h => absurd ((hadmits _).1 h) (by decide)⟩

/-- One worker and `2 ^ 64 - 1` places make settings that can be used, and making the pool panics:
the sum of the two numbers has 65 bits. With one place less there is a pool that admits jobs, but
it cannot be given a second worker. -/
theorem capacity_overflowing :
    ∃ (s s' : Settings) (p : Pool Nat) (e : ResizeError),
      s = { parallelism := some 1, queueSize := 18446744073709551615, backpressure := .reject } ∧
      s.check = .ok () ∧ (Pool.ofSettings s 8 : Except Abort (Pool Nat)) = .error .panic ∧
      s' = { s with queueSize := 18446744073709551614 } ∧
      s'.check = .ok () ∧ Pool.ofSettings s' 8 = .ok p ∧ (p.admitAll? [7, 8]).isSome ∧
        p.resize 2 = (p.skip, .error e) ∧ e.abort = .panic :=
  ⟨_, _, _, _, rfl, rfl, rfl, rfl, rfl, rfl, rfl, rfl, rfl⟩

end Crowd

end SemanticHighlight
