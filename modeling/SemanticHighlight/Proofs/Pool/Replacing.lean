import Mathlib.Data.List.Perm.Subperm
import SemanticHighlight.Proofs.Pool.Crowd

/-!
# A generation that is replaced

A change of size first puts another generation in front and then, in a step of its own,
retires the one that it has replaced. In between both are open, and a submission that has read
which generation is active before the change still finds a slot in the one that is no more:
`Crowd.admitted_after_replacement` is such a run.

`Crowd.admissions_while_replacing` says that this is all that can happen. There are no more
open generations than one and one for each change that stands between its two steps. A job gets
into a generation that has been replaced only if it asked for the slot before, and only while
the change that replaced it has not retired it. `Crowd.Since` carries it: whoever has to do with
a generation older than the active one has stood there since it was replaced.
-/

namespace SemanticHighlight

namespace Caller

variable {ι : Type}

/-- The generation that the caller has replaced and not yet retired. -/
def replaced? : Caller ι → Option Nat
  | retiring number => some number
  | _ => none

/-- The generation whose number the caller keeps in mind. -/
def holds? : Caller ι → Option Nat
  | asking _ number | retiring number => some number
  | _ => none

theorem holds?_of_isFirst {caller : Caller ι} (h : caller.isFirst = true) :
    caller.holds? = none := by
  cases caller <;> first | rfl | cases h

end Caller

theorem Generation.retired_of_hasRoom {ι : Type} {g : Generation ι} (h : g.hasRoom = true) :
    g.retired = false := by
  simp only [hasRoom, Bool.and_eq_true, Bool.not_eq_true'] at h
  exact h.1

namespace Pool

variable {ι : Type} {p : Pool ι} {n : Nat}

/-- A change of a generation that keeps its number keeps the number of the active one. -/
theorem active_number_modify {f : Generation ι → Generation ι}
    (hf : ∀ g, g.number = n → (f g).number = n) :
    (p.modify n f).active.number = p.active.number := by
  unfold modify
  dsimp only
  split
  · next hn => rw [hf _ hn, hn]
  · rfl

theorem active_number_retire (p : Pool ι) (n : Nat) :
    (p.retire n).active.number = p.active.number :=
  active_number_modify fun _ hn => hn

theorem active_number_of_terms {g g' : Generation ι} (hg : p.generation? n = some g)
    (hterms : g'.terms = g.terms) :
    (p.modify n fun _ => g').active.number = p.active.number := by
  have hnumber : g'.number = g.number := congrArg Prod.fst hterms
  exact active_number_modify fun _ _ => hnumber.trans (number_of_generation? hg)

end Pool

namespace Crowd

variable {ι : Type} {c c' c'' : Crowd ι}

/-- What holds of a later crowd: the active generation is no older, and a caller that keeps a
generation in mind that is older than the one active before has stood there since before. -/
structure Since (c c' : Crowd ι) : Prop where
  active : c.pool.active.number ≤ c'.pool.active.number
  kept : ∀ {i n : Nat} {caller : Caller ι}, c'.callers[i]? = some caller →
    caller.holds? = some n → n < c.pool.active.number → c.callers[i]? = some caller

theorem Since.refl (c : Crowd ι) : Since c c where
  active := Nat.le_refl _
  kept := fun hcaller _ _ => hcaller

/-- It lasts over a step that leaves its caller with no generation in mind, or with one that is
not older than the active one. -/
theorem Since.set {i : Nat} {caller : Caller ι} {pool : Pool ι} (h : Since c c')
    (hactive : c'.pool.active.number ≤ pool.active.number)
    (hnew : ∀ n, caller.holds? = some n → c'.pool.active.number ≤ n) :
    Since c { pool, callers := c'.callers.set i caller } where
  active := Nat.le_trans h.active hactive
  kept := by
    intro j n other hother hn hlt
    rcases Rows.getElem?_of_set hother with ⟨-, hstood⟩ | ⟨-, rfl⟩
    · exact h.kept hstood hn hlt
    · -- what the caller keeps in mind now is too young
      have hle := hnew n hn
      have hbefore := h.active
      omega

/-- A caller that takes a step keeps what holds since the crowd before: the active generation gets
no older, and nobody takes an old generation into hand. -/
theorem Since.act {i : Nat} {caller caller' : Caller ι} {pool : Pool ι} (ho : c'.pool.Ordered)
    (h : Since c c') (hadvance : c'.pool.Advance caller pool caller') :
    Since c { pool, callers := c'.callers.set i caller' } := by
  cases hadvance with
  | turnAway _ | pass _ | retry _ _ | saturated _ _ | noWorkers | tooLate _ _ | resizePass _ _
  | sameSize _ | unbuilt _ _ | closeAgain _ | flag _ =>
    exact h.set (Nat.le_refl _) (by simp [Caller.holds?])
  -- the generation that is read is the active one, and so none that is older
  | choose =>
    refine h.set (Nat.le_refl _) ?_
    rintro n ⟨⟩
    exact Nat.le_refl _
  | enter hg hask =>
    refine h.set (Nat.le_of_eq ?_) (by simp [Caller.holds?])
    exact (Pool.active_number_of_terms hg (Generation.terms_of_ask hask)).symm
  | @install _ g _ hbuild =>
    refine h.set ?_ ?_
    · have hnumber : g.number = c'.pool.next := Pool.number_of_build hbuild
      exact Nat.le_of_lt (hnumber ▸ ho.next)
    · rintro n ⟨⟩
      exact Nat.le_refl _
  | retire | retireActive =>
    exact h.set (Nat.le_of_eq (Pool.active_number_retire ..).symm) (by simp [Caller.holds?])

/-- The open generations, the active one apart, each have a caller that is about to retire
them. -/
theorem Sound.length_open_le (hs : c.Sound) :
    (c.pool.generations.filter (·.hasRoom)).length ≤
      1 + c.callers.countP (·.replaced?.isSome) := by
  -- the former generations have numbers of their own, and each has its caller
  have hformer : ((c.pool.former.filter (·.hasRoom)).map Generation.number).length ≤
      (c.callers.filterMap Caller.replaced?).length := by
    refine (List.Nodup.subperm ?_ ?_).length_le
    · refine List.Nodup.sublist (List.filter_sublist.map _) ?_
      unfold List.Nodup
      rw [List.pairwise_map]
      exact (List.pairwise_cons.1 hs.ordered.numbers).2.imp Nat.ne_of_gt
    · intro n hn
      obtain ⟨g, hg, rfl⟩ := List.mem_map.1 hn
      obtain ⟨hg, hroom⟩ := List.mem_filter.1 hg
      have hretiring := hs.lingering g hg (Generation.retired_of_hasRoom hroom)
      exact List.mem_filterMap.2 ⟨_, hretiring, rfl⟩
  rw [List.length_map, List.length_filterMap_eq_countP] at hformer
  have hall : (c.pool.generations.filter (·.hasRoom)).length ≤
      1 + (c.pool.former.filter (·.hasRoom)).length := by
    unfold Pool.generations
    rw [List.filter_cons]
    split
    · exact Nat.le_of_eq (Nat.add_comm _ 1)
    · exact Nat.le_add_left _ _
  omega

variable [DecidableEq ι]

/-- The same for any move. -/
theorem Since.step (hs : c'.Sound) (h : Since c c') (hstep : Step c' c'') : Since c c'' := by
  cases hstep with
  | arrive hfirst =>
    refine ⟨h.active, fun {i n caller} hcaller hn hlt => ?_⟩
    -- whoever has just arrived has no generation in mind
    have hheld : caller.isFirst ≠ true := by
      intro hnew
      rw [Caller.holds?_of_isFirst hnew] at hn
      cases hn
    exact h.kept (getElem?_of_arrived hfirst hheld hcaller) hn hlt
  | act _ hadvance => exact h.act hs.ordered hadvance
  | giveUp _ _ _ | noThreads _ _ => exact h.set (Nat.le_refl _) (by simp [Caller.holds?])
  | start hg hstart =>
    have hsame := Pool.active_number_of_terms hg (Generation.terms_of_start? hstart)
    exact ⟨Nat.le_trans h.active (Nat.le_of_eq hsame.symm), h.kept⟩
  | @finish n job g hg _ =>
    have hsame : (c'.pool.modify n (·.finish job)).active.number = c'.pool.active.number :=
      Pool.active_number_modify fun g hn =>
        (congrArg Prod.fst (Generation.terms_finish g job)).trans hn
    exact ⟨Nat.le_trans h.active (Nat.le_of_eq hsame.symm), h.kept⟩

/-- The same for a row of moves, by induction on it. -/
theorem Since.run {moves : List (Move ι)} (hs : c.Sound) (hrun : c.run? moves = some c') :
    Since c c' := by
  have hkept : c'.Sound ∧ Since c c' :=
    run_induction (P := fun c' => c'.Sound ∧ Since c c') ⟨hs, .refl c⟩
      (fun h hstep => ⟨h.1.step hstep, h.2.step h.1 hstep⟩) hrun
  exact hkept.2

/-- The caller at a position gets a slot for its job from the generation of a number. -/
structure Enters (c c' : Crowd ι) (i n : Nat) (job : ι) : Prop where
  asks : c.callers[i]? = some (.asking job n)
  moves : c.move? (.act i) = some c'
  admitted : c'.callers[i]? = some (.submitted job (.ok ()))

/-- A generation that gives a slot is not retired. -/
theorem Enters.exists_open {i n : Nat} {job : ι} (h : Enters c c' i n job) :
    ∃ g, c.pool.generation? n = some g ∧ g.retired = false := by
  obtain ⟨hasks, hmove, hadmitted⟩ := h
  obtain ⟨caller, pool, caller', hcaller, hadvance, rfl⟩ := exists_advance hmove
  cases hasks.symm.trans hcaller
  rw [List.getElem?_set_self'] at hadmitted
  obtain ⟨_, -, rfl⟩ := Option.map_eq_some_iff.1 hadmitted
  cases hadvance with
  | @enter _ _ g g' hg hask =>
    obtain ⟨hroom, -⟩ := Generation.ask_eq_admitted_iff.1 hask
    exact ⟨g, hg, Generation.retired_of_hasRoom hroom⟩

/-- A generation older than the active one that gives a slot has a caller that is about to
retire it. -/
theorem Sound.retiring_of_enters (hs : c.Sound) {i n : Nat} {job : ι}
    (h : Enters c c' i n job) (hlt : n < c.pool.active.number) : .retiring n ∈ c.callers := by
  obtain ⟨g, hg, hopen⟩ := h.exists_open
  have hn := Pool.number_of_generation? hg
  rcases List.mem_cons.1 (Pool.mem_of_generation? hg) with rfl | hformer
  · omega
  · rw [← hn]
    exact hs.lingering g hformer hopen

/-- **Admissions while a generation is replaced.** Whatever the callers of a pool do, and in
whatever order, no more generations have room than one and one for each change of size that has
replaced a generation and not yet retired it. And let a generation be replaced: a job that it
admits afterwards belongs to a caller that was about to ask it when it was replaced, and the
change that replaced it has been about to retire it ever since. -/
theorem admissions_while_replacing {workers queueSize : UInt64} {policy : Backpressure}
    {threads : Except String Unit} {p : Pool ι} {before : List (Move ι)}
    (hp : Pool.create workers queueSize policy threads = .ok p)
    (hbefore : (alone p).run? before = some c) :
    (c.pool.generations.filter (·.hasRoom)).length ≤
      1 + c.callers.countP (·.replaced?.isSome) ∧
    ∀ {after : List (Move ι)} {c' c'' : Crowd ι} {i n : Nat} {job : ι},
      c.run? after = some c' → Enters c' c'' i n job → n < c.pool.active.number →
        c.callers[i]? = some (.asking job n) ∧
        ∃ j : Nat, c.callers[j]? = some (.retiring n) ∧
          c'.callers[j]? = some (.retiring n) := by
  have hs : c.Sound := (sound_of_create hp).run hbefore
  refine ⟨hs.length_open_le, fun {after c' c'' i n job} hafter henters hlt => ?_⟩
  have hsince := Since.run hs hafter
  -- the generation that admits is not active, so somebody is about to retire it
  have hretiring := (hs.run hafter).retiring_of_enters henters
    (Nat.lt_of_lt_of_le hlt hsince.active)
  obtain ⟨j, hj⟩ := List.mem_iff_getElem?.1 hretiring
  exact ⟨hsince.kept henters.asks rfl hlt, j, hsince.kept hj rfl hlt, hj⟩

/-- Two changes of size stand between their steps when the second retires what it has replaced,
and a job gets into the oldest generation. -/
theorem admissions_while_replacing_twice :
    ∃ (before after : List (Move Nat)) (p : Pool Nat) (c c' c'' : Crowd Nat),
      Pool.create 1 1 .block = .ok p ∧ (alone p).run? before = some c ∧
        c.callers = [.asking 7 0, .retiring 0, .retiring 1] ∧
        (c.pool.generations.filter (·.hasRoom)).length ≤ 1 + 2 ∧
        c.run? after = some c' ∧ Enters c' c'' 0 0 7 ∧ 0 < c.pool.active.number ∧
        ∃ j : Nat, c.callers[j]? = some (.retiring 0) ∧ c'.callers[j]? = some (.retiring 0) := by
  -- two replacements are under way, and a submission holds the oldest of the three generations
  let before : List (Move Nat) :=
    [.arrive (.submitting 7), .act 0, .act 0, .arrive (.resizing 2), .act 1, .act 1,
      .arrive (.resizing 3), .act 2, .act 2]
  let p : Pool Nat := { active := .fresh 0 1 1, queueSize := 1, policy := .block }
  let c : Crowd Nat :=
    { pool := (p.install (.fresh 1 2 1)).install (.fresh 2 3 1)
      callers := [.asking 7 0, .retiring 0, .retiring 1] }
  have hp : Pool.create 1 1 .block = .ok p := rfl
  have hbefore : (alone p).run? before = some c := rfl
  obtain ⟨hopen, hadmissions⟩ := admissions_while_replacing hp hbefore
  obtain ⟨c', hafter⟩ : ∃ c', c.run? [.act 2] = some c' := ⟨_, rfl⟩
  obtain ⟨c'', henters⟩ : ∃ c'', Enters c' c'' 0 0 7 := by
    cases hafter
    exact ⟨_, rfl, rfl, rfl⟩
  have hlt : 0 < c.pool.active.number := by decide
  obtain ⟨-, hreplacing⟩ := hadmissions hafter henters hlt
  exact ⟨before, [.act 2], p, c, c', c'', hp, hbefore, rfl, hopen, hafter, henters, hlt,
    hreplacing⟩

/-- A submission reads which generation is active, and another one takes its place. That admits
a job, and then the first submission is admitted to the generation that has been replaced. -/
theorem admitted_after_replacement :
    ∃ (before : List (Move Nat)) (p : Pool Nat) (c c' : Crowd Nat),
      Pool.create 1 1 .block = .ok p ∧ (alone p).run? before = some c ∧
        c.callers = [.asking 7 0, .retiring 0, .submitted 8 (.ok ())] ∧
        c.pool.active.number = 1 ∧ c.pool.held = [(1, 8)] ∧
        (c.pool.generations.filter (·.hasRoom)).map Generation.number = [1, 0] ∧
        Enters c c' 0 0 7 ∧ c'.pool.held = [(1, 8), (0, 7)] := by
  let before : List (Move Nat) :=
    [.arrive (.submitting 7), .act 0, .act 0, .arrive (.resizing 2), .act 1, .act 1,
      .arrive (.submitting 8), .act 2, .act 2, .act 2]
  exact ⟨before, _, _, _, rfl, rfl, rfl, rfl, rfl, rfl, ⟨rfl, rfl, rfl⟩, rfl⟩

end Crowd

end SemanticHighlight
