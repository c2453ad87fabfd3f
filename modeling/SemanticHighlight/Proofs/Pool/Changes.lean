import Mathlib.Data.List.Forall2
import SemanticHighlight.Proofs.Pool.Crowd

/-!
# How a generation changes

One move of a crowd puts a new generation in front of the others, or changes the ones that are
there, each by no more than one admission, one beginning, one ending, or its retirement
(`Crowd.Step.changes`). So what these four keep of a generation, and what an empty one has, holds
of every generation that comes up (`Crowd.Step.forall_generations`), and a generation that is
followed over a run by its number changes step by step (`Crowd.Step.generation?_change`).
-/

namespace SemanticHighlight

namespace Generation

variable {ι : Type} [DecidableEq ι] {policy : Backpressure} {g g' : Generation ι}

/-- What one move can do to a generation. -/
inductive Change (policy : Backpressure) (g : Generation ι) : Generation ι → Prop
  | same : Change policy g g
  | enter {job : ι} {g' : Generation ι} (hask : g.ask policy job = .admitted g') :
      Change policy g g'
  | start {job : ι} {g' : Generation ι} (hstart : g.start? job = some g') :
      Change policy g g'
  | finish {job : ι} (hrunning : job ∈ g.running) : Change policy g (g.finish job)
  | retire : Change policy g g.retire

/-- What a generation is built with: its number, its workers and its capacity. -/
def plan (g : Generation ι) : Nat × UInt64 × UInt64 := (g.number, g.workers, g.capacity)

/-- No move changes what a generation was built with. -/
theorem Change.plan_eq (h : g.Change policy g') : g'.plan = g.plan := by
  cases h with
  | same | retire => rfl
  | enter hask =>
    obtain ⟨-, rfl⟩ := ask_eq_admitted_iff.1 hask
    rfl
  | start hstart =>
    obtain ⟨-, -, rfl⟩ := start?_eq_some_iff.1 hstart
    rfl
  | finish hrunning =>
    unfold Generation.finish
    rw [if_pos hrunning]
    rfl

theorem Change.number_eq (h : g.Change policy g') : g'.number = g.number :=
  congrArg Prod.fst h.plan_eq

theorem Change.workers_eq (h : g.Change policy g') : g'.workers = g.workers :=
  congrArg (fun plan => plan.2.1) h.plan_eq

theorem Change.capacity_eq (h : g.Change policy g') : g'.capacity = g.capacity :=
  congrArg (fun plan => plan.2.2) h.plan_eq

/-- A change keeps the books of a generation. -/
theorem Change.balanced (h : g.Change policy g') (hg : g.Balanced) : g'.Balanced := by
  cases h with
  | same => exact hg
  | enter hask => exact hg.ask hask
  | start hstart => exact hg.start hstart
  | finish _ => exact hg.finish _
  | retire => exact hg.retire

end Generation

namespace Pool

variable {ι : Type} [DecidableEq ι] {p p' : Pool ι} {policy : Backpressure} {g : Generation ι}
  {n : Nat}

/-- Whether the generations are those of another pool, each changed by one move at most. -/
def Changed (policy : Backpressure) (p p' : Pool ι) : Prop :=
  List.Forall₂ (Generation.Change policy) p.generations p'.generations

theorem Changed.refl (policy : Backpressure) (p : Pool ι) : Changed policy p p :=
  List.forall₂_same.2 fun _ _ => .same

/-- Changing one generation changes a pool by one move at most, if that change is one. -/
theorem changed_modify {f : Generation ι → Generation ι}
    (h : ∀ g ∈ p.generations, g.number = n → g.Change policy (f g)) :
    Changed policy p (p.modify n f) := by
  unfold Changed
  rw [generations_modify, List.forall₂_map_right_iff, List.forall₂_same]
  intro g hg
  split
  · next hn => exact h g hg hn
  · exact .same

/-- The number of a generation stands for it alone, so it is the one that is changed. -/
theorem changed_of_generation? {f : Generation ι → Generation ι} (ho : p.Ordered)
    (hg : p.generation? n = some g) (h : g.Change policy (f g)) :
    Changed policy p (p.modify n f) := by
  refine changed_modify fun g' hg' hn => ?_
  have hfound := generation?_of_mem ho hg'
  rw [hn, hg] at hfound
  cases hfound
  exact h

theorem changed_retire (p : Pool ι) (n : Nat) : Changed policy p (p.retire n) :=
  changed_modify fun _ _ _ => .retire

/-- Every generation of the changed pool comes from one of the pool before. -/
theorem Changed.exists_of_mem (h : Changed policy p p') {g' : Generation ι}
    (hg' : g' ∈ p'.generations) : ∃ g ∈ p.generations, g.Change policy g' := by
  unfold Changed at h
  generalize p.generations = gs at h
  generalize p'.generations = gs' at h hg'
  induction h with
  | nil => cases hg'
  | cons hchange _ ih =>
    rcases List.mem_cons.1 hg' with rfl | hg'
    · exact ⟨_, List.mem_cons_self, hchange⟩
    · obtain ⟨g, hg, hchange⟩ := ih hg'
      exact ⟨g, List.mem_cons_of_mem _ hg, hchange⟩

/-- A generation is found under its number as before. -/
theorem Changed.generation? (h : Changed policy p p') (hg : p.generation? n = some g) :
    ∃ g', p'.generation? n = some g' ∧ g.Change policy g' := by
  unfold Changed at h
  unfold Pool.generation? at hg ⊢
  generalize p.generations = gs at h hg
  generalize p'.generations = gs' at h
  induction h with
  | nil => cases hg
  | @cons g₀ g₀' _ _ hchange _ ih =>
    have hnumber := hchange.number_eq
    by_cases hn : g₀.number = n
    · rw [List.find?_cons_of_pos (by simpa using hn)] at hg
      cases hg
      exact ⟨g₀', List.find?_cons_of_pos (by simpa [hnumber] using hn), hchange⟩
    · rw [List.find?_cons_of_neg (by simpa using hn)] at hg
      rw [List.find?_cons_of_neg (by simpa [hnumber] using hn)]
      exact ih hg

end Pool

namespace Crowd

variable {ι : Type} [DecidableEq ι] {c c' : Crowd ι}

/-- What one move does to the generations. -/
inductive Changes (c c' : Crowd ι) : Prop
  | each (h : Pool.Changed c.pool.policy c.pool c'.pool)
  | install {workers : UInt64} {g : Generation ι} (hcaller : .installing workers ∈ c.callers)
      (hbuild : c.pool.build (.ok ()) workers = .ok g) (hpool : c'.pool = c.pool.install g)

/-- A move changes generations in place, or installs one and leaves the others. -/
theorem Step.changes (ho : c.pool.Ordered) (hstep : Step c c') : Changes c c' := by
  cases hstep with
  | arrive _ | giveUp _ _ _ | noThreads _ _ => exact .each (.refl _ _)
  | start hg hstart =>
    exact .each (Pool.changed_of_generation? (f := fun _ => _) ho hg (.start hstart))
  | finish hg hrunning => exact .each (Pool.changed_of_generation? ho hg (.finish hrunning))
  | act hcaller hadvance =>
    cases hadvance with
    | turnAway _ | pass _ | choose | retry _ _ | saturated _ _ | noWorkers | tooLate _ _
    | resizePass _ _ | sameSize _ | unbuilt _ _ | closeAgain _ | flag _ =>
      exact .each (.refl _ _)
    | enter hg hask =>
      exact .each (Pool.changed_of_generation? (f := fun _ => _) ho hg (.enter hask))
    | install _ hbuild => exact .install (List.mem_of_getElem? hcaller) hbuild rfl
    | retire | retireActive => exact .each (Pool.changed_retire _ _)

/-- No move changes what the pool was made with. -/
theorem Step.queueSize_eq (hstep : Step c c') :
    c'.pool.queueSize = c.pool.queueSize ∧ c'.pool.policy = c.pool.policy := by
  cases hstep with
  | arrive _ | giveUp _ _ _ | noThreads _ _ | start _ _ | finish _ _ => exact ⟨rfl, rfl⟩
  | act _ hadvance => cases hadvance <;> exact ⟨rfl, rfl⟩

/-- A generation keeps its number, and each move changes it once at most. -/
theorem Step.generation?_change (ho : c.pool.Ordered) (hstep : Step c c') {n : Nat}
    {g : Generation ι} (hg : c.pool.generation? n = some g) :
    ∃ g', c'.pool.generation? n = some g' ∧ g.Change c.pool.policy g' := by
  cases hstep.changes ho with
  | each h => exact h.generation? hg
  | @install _ g' _ hbuild hpool =>
    refine ⟨g, ?_, .same⟩
    have hle := Pool.le_active ho (Pool.mem_of_generation? hg)
    have hlt := ho.next
    rw [Pool.number_of_generation? hg] at hle
    rw [hpool]
    refine (List.find?_cons_of_neg ?_).trans hg
    rw [decide_eq_true_iff]
    show g'.number ≠ n
    rw [Pool.number_of_build hbuild]
    omega

/-- What the changes of a generation keep, and a new generation has, each generation has after a
move if each had it before. -/
theorem Step.forall_generations {P : Generation ι → Prop} (ho : c.pool.Ordered)
    (hstep : Step c c')
    (hkeep : ∀ {g g' : Generation ι}, P g → g.Change c.pool.policy g' → P g')
    (hnew : ∀ {workers : UInt64} {g : Generation ι}, .installing workers ∈ c.callers →
      c.pool.build (.ok ()) workers = .ok g → P g)
    (h : ∀ g ∈ c.pool.generations, P g) : ∀ g ∈ c'.pool.generations, P g := by
  intro g' hg'
  cases hstep.changes ho with
  | each hchanged =>
    obtain ⟨g, hg, hchange⟩ := hchanged.exists_of_mem hg'
    exact hkeep (h g hg) hchange
  | install hcaller hbuild hpool =>
    rw [hpool] at hg'
    rcases List.mem_cons.1 hg' with rfl | hg'
    · exact hnew hcaller hbuild
    · exact h g' hg'

end Crowd

end SemanticHighlight
