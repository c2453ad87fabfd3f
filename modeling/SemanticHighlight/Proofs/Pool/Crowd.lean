import SemanticHighlight.Pool.Callers
import SemanticHighlight.Proofs.Pool.Sound
import SemanticHighlight.Proofs.Rows

/-!
# The steps of the callers of a pool

`Pool.Advance` says what one step of a caller does, by where the caller stands, and
`Crowd.Step` what one move of a crowd does. Both are read off the functions once, and what
holds of every crowd that comes up is proved over them.

`Crowd.Sound` is that invariant. A generation that is active no more and not yet retired has
a caller that is about to retire it, and a caller asks only generations that exist.
-/

namespace SemanticHighlight

namespace Pool

variable {ι : Type} {p p' : Pool ι} {caller caller' : Caller ι}

/-- What a step of a caller does, by where the caller stands. -/
inductive Advance (p : Pool ι) : Caller ι → Pool ι → Caller ι → Prop
  | turnAway {job : ι} (hshut : p.shutDown = true) :
      Advance p (.submitting job) p (.submitted job (.error .shutDown))
  | pass {job : ι} (hopen : p.shutDown = false) :
      Advance p (.submitting job) p (.choosing job)
  | choose {job : ι} : Advance p (.choosing job) p (.asking job p.active.number)
  | enter {job : ι} {n : Nat} {g g' : Generation ι} (hg : p.generation? n = some g)
      (hask : g.ask p.policy job = .admitted g') :
      Advance p (.asking job n) (p.modify n fun _ => g') (.submitted job (.ok ()))
  | retry {job : ι} {n : Nat} {g : Generation ι} (hg : p.generation? n = some g)
      (hretired : g.retired = true) :
      Advance p (.asking job n) p (.submitting job)
  | saturated {job : ι} {n outstanding : Nat} {g : Generation ι} (hg : p.generation? n = some g)
      (hask : g.ask p.policy job = .saturated outstanding) :
      Advance p (.asking job n) p (.submitted job (.error (.saturated outstanding)))
  | noWorkers : Advance p (.resizing 0) p (.resized (.error .noWorkers))
  | tooLate {workers : UInt64} (hw : workers ≠ 0) (hshut : p.shutDown = true) :
      Advance p (.resizing workers) p (.resized (.error .shutDown))
  | resizePass {workers : UInt64} (hw : workers ≠ 0) (hopen : p.shutDown = false) :
      Advance p (.resizing workers) p (.installing workers)
  | sameSize {workers : UInt64} (hsame : p.active.workers = workers) :
      Advance p (.installing workers) p (.resized (.ok ()))
  | install {workers : UInt64} {g : Generation ι} (hother : p.active.workers ≠ workers)
      (hbuild : p.build (.ok ()) workers = .ok g) :
      Advance p (.installing workers) (p.install g) (.retiring p.active.number)
  | unbuilt {workers : UInt64} {reason : BuildError} (hother : p.active.workers ≠ workers)
      (hbuild : p.build (.ok ()) workers = .error reason) :
      Advance p (.installing workers) p.skip (.resized (.error (.notBuilt reason)))
  | retire {n : Nat} : Advance p (.retiring n) (p.retire n) (.resized (.ok ()))
  | closeAgain (hshut : p.shutDown = true) : Advance p .closing p .closed
  | flag (hopen : p.shutDown = false) :
      Advance p .closing { p with shutDown := true } .sealing
  | retireActive : Advance p .sealing (p.retire p.active.number) .closed

/-- A step of a caller is one of these. -/
theorem Advance.of_advance? (h : p.advance? caller = some (p', caller')) :
    p.Advance caller p' caller' := by
  -- one case for each place where a caller can stand, split as the step itself is
  cases caller with
  | submitting job =>
    by_cases hshut : p.shutDown = true
    · simp only [advance?, if_pos hshut] at h
      cases h
      exact .turnAway hshut
    · simp only [advance?, if_neg hshut] at h
      cases h
      exact .pass (by simpa using hshut)
  | choosing job =>
    cases h
    exact .choose
  | asking job n =>
    cases hg : p.generation? n with
    | none => simp [advance?, ask?, hg] at h
    | some g =>
      cases hask : g.ask p.policy job with
      | admitted g' =>
        simp only [advance?, ask?, hg, Option.map_some, hask] at h
        cases h
        exact .enter hg hask
      | retired =>
        simp only [advance?, ask?, hg, Option.map_some, hask] at h
        cases h
        exact .retry hg (Generation.ask_eq_retired_iff.1 hask)
      | saturated outstanding =>
        simp only [advance?, ask?, hg, Option.map_some, hask] at h
        cases h
        exact .saturated hg hask
      | full outstanding => simp [advance?, ask?, hg, hask] at h
  | submitted job answer => cases h
  | resizing workers =>
    by_cases hw : workers = 0
    · subst hw
      cases h
      exact .noWorkers
    · by_cases hshut : p.shutDown = true
      · simp only [advance?, if_neg hw, if_pos hshut] at h
        cases h
        exact .tooLate hw hshut
      · simp only [advance?, if_neg hw, if_neg hshut] at h
        cases h
        exact .resizePass hw (by simpa using hshut)
  | installing workers =>
    by_cases hsame : p.active.workers = workers
    · simp only [advance?, if_pos hsame] at h
      cases h
      exact .sameSize hsame
    · simp only [advance?, if_neg hsame, replace] at h
      cases hbuild : p.build (.ok ()) workers with
      | ok g =>
        rw [hbuild] at h
        cases h
        exact .install hsame hbuild
      | error reason =>
        rw [hbuild] at h
        cases h
        exact .unbuilt hsame hbuild
  | retiring n =>
    cases h
    exact .retire
  | resized answer => cases h
  | closing =>
    by_cases hshut : p.shutDown = true
    · simp only [advance?, if_pos hshut] at h
      cases h
      exact .closeAgain hshut
    · simp only [advance?, if_neg hshut] at h
      cases h
      exact .flag (by simpa using hshut)
  | sealing =>
    cases h
    exact .retireActive
  | closed => cases h

/-- Who gives up has asked a generation that is full. -/
theorem giveUp?_eq_some_iff :
    p.giveUp? caller = some caller' ↔
      ∃ job n g outstanding, caller = .asking job n ∧ p.generation? n = some g ∧
        g.ask p.policy job = .full outstanding ∧
        caller' = .submitted job (.error (.late outstanding)) := by
  constructor
  · intro h
    -- only a caller that waits for a slot can give up
    cases caller with
    | asking job n =>
      cases hg : p.generation? n with
      | none => simp [giveUp?, ask?, hg] at h
      | some g =>
        cases hask : g.ask p.policy job with
        | full outstanding =>
          simp only [giveUp?, ask?, hg, Option.map_some, hask] at h
          cases h
          exact ⟨job, n, g, outstanding, rfl, hg, hask, rfl⟩
        | admitted _ | retired | saturated _ => simp [giveUp?, ask?, hg, hask] at h
    | submitting _ | choosing _ | submitted _ _ | resizing _ | installing _ | retiring _
    | resized _ | closing | sealing | closed => cases h
  · rintro ⟨job, n, g, outstanding, rfl, hg, hask, rfl⟩
    simp [giveUp?, ask?, hg, hask]

/-- Who gets no threads was about to install a generation of another number of workers. -/
theorem noThreads?_eq_some_iff {reason : String} :
    p.noThreads? reason caller = some (p', caller') ↔
      ∃ workers, caller = .installing workers ∧ p.active.workers ≠ workers ∧ p' = p.skip ∧
        caller' = .resized (.error (.notBuilt (.noThreads reason))) := by
  constructor
  · intro h
    cases caller with
    | installing workers =>
      obtain ⟨hother, h⟩ := Option.ite_none_left_eq_some.1 h
      cases h
      exact ⟨workers, rfl, hother, rfl, rfl⟩
    | submitting _ | choosing _ | asking _ _ | submitted _ _ | resizing _ | retiring _
    | resized _ | closing | sealing | closed => cases h
  · rintro ⟨workers, rfl, hother, rfl, rfl⟩
    exact if_neg hother

/-- Retiring a generation changes no number. -/
theorem numbers_retire (p : Pool ι) (n : Nat) :
    (p.retire n).generations.map Generation.number = p.generations.map Generation.number := by
  unfold retire
  rw [generations_modify, List.map_map]
  refine List.map_congr_left fun g _ => ?_
  simp only [Function.comp_apply]
  split <;> rfl

/-- Retiring a generation takes no job from it. -/
theorem held_retire (p : Pool ι) (n : Nat) : (p.retire n).held = p.held := by
  unfold held retire
  rw [generations_modify, List.flatMap_map]
  congr 1
  funext g
  split <;> rfl

/-- Generations that are all retired stay so. -/
theorem retired_retire {n : Nat} (h : ∀ g ∈ p.generations, g.retired = true) :
    ∀ g ∈ (p.retire n).generations, g.retired = true := by
  intro g hg
  unfold retire at hg
  rw [generations_modify] at hg
  obtain ⟨before, hbefore, rfl⟩ := List.mem_map.1 hg
  split
  · rfl
  · exact h before hbefore

/-- Retiring a generation leaves the others as they are. -/
theorem mem_former_retire {n : Nat} {g : Generation ι}
    (hg : g ∈ (p.retire n).former) (hopen : g.retired = false) : g ∈ p.former ∧ g.number ≠ n := by
  obtain ⟨before, hbefore, hchange⟩ := List.mem_map.1 hg
  by_cases hn : before.number = n
  · rw [if_pos hn] at hchange
    rw [← hchange] at hopen
    cases hopen
  · rw [if_neg hn] at hchange
    subst hchange
    exact ⟨hbefore, hn⟩

end Pool

namespace Crowd

variable {ι : Type} {c c' : Crowd ι} {move : Move ι}

/-- What holds of every crowd that comes up. -/
structure Sound (c : Crowd ι) : Prop where
  ordered : c.pool.Ordered
  /-- A generation that is active no more is retired, or about to be. -/
  lingering : ∀ g ∈ c.pool.former, g.retired = false → .retiring g.number ∈ c.callers
  asked : ∀ {job n}, .asking job n ∈ c.callers → n ∈ c.pool.generations.map Generation.number

/-- A new pool is sound, with no callers at it. -/
theorem sound_of_create {workers queueSize : UInt64} {policy : Backpressure}
    {threads : Except String Unit} {p : Pool ι}
    (hp : Pool.create workers queueSize policy threads = .ok p) : (alone p).Sound where
  ordered := (Pool.sound_of_create hp).ordered
  lingering := by
    obtain ⟨-, -, -, rfl⟩ := Pool.create_eq_ok_iff.1 hp
    simp [alone]
  asked := by simp [alone]

/-- A move that changes no generation but in its jobs keeps the invariant, if it drops nobody
who is about to retire one. -/
theorem Sound.of_terms {pool : Pool ι} {callers : List (Caller ι)} (hs : c.Sound)
    (hterms : pool.terms = c.pool.terms) (hnext : c.pool.next ≤ pool.next)
    (hretiring : ∀ n, .retiring n ∈ c.callers → .retiring n ∈ callers)
    (hasking : ∀ job n, .asking job n ∈ callers →
      .asking job n ∈ c.callers ∨ n = c.pool.active.number) :
    Sound { pool, callers } where
  ordered := hs.ordered.of_numbers (Pool.numbers_of_terms hterms) hnext
  -- what is said of former generations is said of their terms, which are the same
  lingering := by
    refine Generation.forall_of_map_eq (P := fun terms =>
      terms.2.2 = false → .retiring terms.1 ∈ callers) (Pool.former_of_terms hterms) ?_
    intro g hg hopen
    exact hretiring _ (hs.lingering g hg hopen)
  asked := by
    intro job n hasks
    show n ∈ pool.generations.map Generation.number
    rw [Pool.numbers_of_terms hterms]
    rcases hasking job n hasks with hbefore | rfl
    · exact hs.asked hbefore
    · exact List.mem_map_of_mem List.mem_cons_self

/-- Retiring a generation keeps the invariant, if it drops nobody who is about to retire
another one. -/
theorem Sound.of_retire {n : Nat} {callers : List (Caller ι)} (hs : c.Sound)
    (hretiring : ∀ m, m ≠ n → .retiring m ∈ c.callers → .retiring m ∈ callers)
    (hasking : ∀ job n, .asking job n ∈ callers → .asking job n ∈ c.callers) :
    Sound { pool := c.pool.retire n, callers } where
  ordered := hs.ordered.of_numbers (Pool.numbers_retire ..) (Nat.le_refl _)
  lingering := by
    intro g hg hopen
    obtain ⟨hformer, hother⟩ := Pool.mem_former_retire hg hopen
    exact hretiring _ hother (hs.lingering g hformer hopen)
  asked := by
    intro job m hasks
    show m ∈ (c.pool.retire n).generations.map Generation.number
    rw [Pool.numbers_retire]
    exact hs.asked (hasking job m hasks)

/-- Setting one entry of a list keeps every other. -/
theorem mem_set_of_ne {α : Type} {l : List α} {i : Nat} {x old new : α} (hold : l[i]? = some old)
    (hne : x ≠ old) (hx : x ∈ l) : x ∈ l.set i new := by
  obtain ⟨j, hj⟩ := List.mem_iff_getElem?.1 hx
  have hij : i ≠ j := by
    rintro rfl
    rw [hold] at hj
    exact hne (Option.some.inj hj).symm
  refine List.mem_iff_getElem?.2 ⟨j, ?_⟩
  rw [List.getElem?_set_ne hij]
  exact hj

/-- A caller that takes a step keeps a crowd sound. The cases are the steps; one that installs a
generation is the only one to bring in a number, and one that retires one the only other to change
terms. -/
theorem Sound.act {i : Nat} {caller caller' : Caller ι} {pool : Pool ι} (hs : c.Sound)
    (hcaller : c.callers[i]? = some caller) (hadvance : c.pool.Advance caller pool caller') :
    Sound { pool, callers := c.callers.set i caller' } := by
  -- only the caller that acts leaves its place, and only `choose` asks anew
  have hretiring : ∀ n, caller ≠ .retiring n → .retiring n ∈ c.callers →
      .retiring n ∈ c.callers.set i caller' :=
    fun n hne hn => mem_set_of_ne hcaller (Ne.symm hne) hn
  have hasking : (∀ job n, caller' ≠ .asking job n) → ∀ job n,
      .asking job n ∈ c.callers.set i caller' → .asking job n ∈ c.callers := by
    intro hne job n hasks
    exact (List.mem_or_eq_of_mem_set hasks).resolve_right (Ne.symm (hne job n))
  cases hadvance with
  | turnAway _ | pass _ | retry _ _ | saturated _ _ | noWorkers | tooLate _ _ | resizePass _ _
  | sameSize _ | closeAgain _ | flag _ =>
    exact hs.of_terms rfl (Nat.le_refl _) (fun n => hretiring n (by simp)) fun job n hasks =>
      .inl (hasking (by simp) job n hasks)
  | unbuilt _ _ =>
    exact hs.of_terms rfl (Nat.le_succ _) (fun n => hretiring n (by simp)) fun job n hasks =>
      .inl (hasking (by simp) job n hasks)
  | choose =>
    refine hs.of_terms rfl (Nat.le_refl _) (fun n => hretiring n (by simp)) fun job n hasks => ?_
    rcases List.mem_or_eq_of_mem_set hasks with hbefore | hnew
    · exact .inl hbefore
    · cases hnew
      exact .inr rfl
  | enter hg hask =>
    exact hs.of_terms (Pool.terms_of_ask hs.ordered hg hask) (Nat.le_refl _)
      (fun n => hretiring n (by simp)) fun job n hasks => .inl (hasking (by simp) job n hasks)
  | install hother hbuild =>
    exact
      { ordered := hs.ordered.install (Pool.number_of_build hbuild)
        lingering := by
          intro g hg hopen
          rcases List.mem_cons.1 hg with rfl | hformer
          · -- the generation that was active until now is the one that the caller will retire
            exact List.mem_set (List.getElem?_eq_some_iff.1 hcaller).1 _
          · exact hretiring _ (by simp) (hs.lingering g hformer hopen)
        asked := fun hasks => List.mem_cons_of_mem _ (hs.asked (hasking (by simp) _ _ hasks)) }
  | retire =>
    exact hs.of_retire (fun m hother => hretiring m (by simpa using Ne.symm hother))
      (hasking (by simp))
  | retireActive =>
    exact hs.of_retire (fun m _ => hretiring m (by simp)) (hasking (by simp))

section

variable {callers : List (Caller ι)} {first caller : Caller ι}

/-- A caller that has done something was there before another one came. -/
theorem getElem?_of_arrived {i : Nat} (hfirst : first.isFirst = true)
    (hcaller : caller.isFirst ≠ true) (h : (callers ++ [first])[i]? = some caller) :
    callers[i]? = some caller := by
  by_cases hi : i < callers.length
  · rwa [List.getElem?_append_left hi] at h
  · rw [List.getElem?_append_right (by omega)] at h
    rw [List.mem_singleton.1 (List.mem_of_getElem? h)] at hcaller
    exact absurd hfirst hcaller

theorem mem_of_arrived (hfirst : first.isFirst = true) (hcaller : caller.isFirst ≠ true)
    (h : caller ∈ callers ++ [first]) : caller ∈ callers := by
  obtain ⟨i, hi⟩ := List.mem_iff_getElem?.1 h
  exact List.mem_of_getElem? (getElem?_of_arrived hfirst hcaller hi)

end

variable [DecidableEq ι]

/-- What one move does. -/
inductive Step (c : Crowd ι) : Crowd ι → Prop
  | arrive {caller : Caller ι} (hfirst : caller.isFirst = true) :
      Step c { c with callers := c.callers ++ [caller] }
  | act {i : Nat} {caller caller' : Caller ι} {pool : Pool ι}
      (hcaller : c.callers[i]? = some caller) (hadvance : c.pool.Advance caller pool caller') :
      Step c { pool, callers := c.callers.set i caller' }
  | giveUp {i n outstanding : Nat} {job : ι} {g : Generation ι}
      (hcaller : c.callers[i]? = some (.asking job n)) (hg : c.pool.generation? n = some g)
      (hask : g.ask c.pool.policy job = .full outstanding) :
      Step c { c with callers := c.callers.set i (.submitted job (.error (.late outstanding))) }
  | noThreads {i : Nat} {workers : UInt64} {reason : String}
      (hcaller : c.callers[i]? = some (.installing workers))
      (hother : c.pool.active.workers ≠ workers) :
      Step c
        { pool := c.pool.skip
          callers := c.callers.set i (.resized (.error (.notBuilt (.noThreads reason)))) }
  | start {n : Nat} {job : ι} {g g' : Generation ι} (hg : c.pool.generation? n = some g)
      (hstart : g.start? job = some g') :
      Step c { c with pool := c.pool.modify n fun _ => g' }
  | finish {n : Nat} {job : ι} {g : Generation ι} (hg : c.pool.generation? n = some g)
      (hrunning : job ∈ g.running) :
      Step c { c with pool := c.pool.modify n (·.finish job) }

/-- A caller that has done something, and has not ended, stands where it did before, or a step of
its own has led there. -/
theorem Step.passed {i : Nat} {caller' : Caller ι} (hstep : Step c c')
    (hcaller' : c'.callers[i]? = some caller') (hfirst : caller'.isFirst ≠ true)
    (hended : caller'.hasEnded ≠ true) :
    c.callers[i]? = some caller' ∨
      ∃ caller pool, c.callers[i]? = some caller ∧ c.pool.Advance caller pool caller' ∧
        c'.pool = pool := by
  -- a caller that has neither just arrived nor come to its end stood there before, or took a step
  cases hstep with
  | arrive hnew => exact .inl (getElem?_of_arrived hnew hfirst hcaller')
  | start _ _ | finish _ _ => exact .inl hcaller'
  | @act _ caller _ pool hcaller hadvance =>
    rcases Rows.getElem?_of_set hcaller' with ⟨-, hbefore⟩ | ⟨rfl, rfl⟩
    · exact .inl hbefore
    · exact .inr ⟨caller, pool, hcaller, hadvance, rfl⟩
  | giveUp _ _ _ | noThreads _ _ =>
    rcases Rows.getElem?_of_set hcaller' with ⟨-, hbefore⟩ | ⟨-, rfl⟩
    · exact .inl hbefore
    · exact absurd rfl hended

/-- The same of a caller whose position does not matter. -/
theorem Step.passed_of_mem {caller' : Caller ι} (hstep : Step c c')
    (hcaller' : caller' ∈ c'.callers) (hfirst : caller'.isFirst ≠ true)
    (hended : caller'.hasEnded ≠ true) :
    caller' ∈ c.callers ∨
      ∃ caller pool, caller ∈ c.callers ∧ c.pool.Advance caller pool caller' ∧ c'.pool = pool := by
  obtain ⟨i, hi⟩ := List.mem_iff_getElem?.1 hcaller'
  rcases hstep.passed hi hfirst hended with hbefore | ⟨caller, pool, hcaller, hadvance, hpool⟩
  · exact .inl (List.mem_of_getElem? hbefore)
  · exact .inr ⟨caller, pool, List.mem_of_getElem? hcaller, hadvance, hpool⟩

/-- The flag stays set. -/
theorem Step.shutDown (hstep : Step c c') (h : c.pool.shutDown = true) :
    c'.pool.shutDown = true := by
  cases hstep with
  | arrive _ | giveUp _ _ _ | noThreads _ _ | start _ _ | finish _ _ => exact h
  | act _ hadvance =>
    cases hadvance with
    | flag _ => rfl
    | turnAway _ | pass _ | choose | enter _ _ | retry _ _ | saturated _ _ | noWorkers
    | tooLate _ _ | resizePass _ _ | sameSize _ | install _ _ | unbuilt _ _ | retire
    | closeAgain _ | retireActive => exact h

/-- When a caller takes a step, it does so by itself, and its place in the crowd is the only one to
change. -/
theorem exists_advance {i : Nat} (h : c.move? (.act i) = some c') :
    ∃ caller pool caller', c.callers[i]? = some caller ∧ c.pool.Advance caller pool caller' ∧
      c' = { pool, callers := c.callers.set i caller' } := by
  obtain ⟨caller, hcaller, hact⟩ := Option.bind_eq_some_iff.1 h
  obtain ⟨⟨pool, caller'⟩, hadvance, hend⟩ := Option.bind_eq_some_iff.1 hact
  cases hend
  exact ⟨caller, pool, caller', hcaller, .of_advance? hadvance, rfl⟩

/-- A caller gives up while it finds all slots in use, and changes nothing else. -/
theorem exists_giveUp {i : Nat} (h : c.move? (.giveUp i) = some c') :
    ∃ job n g outstanding, c.callers[i]? = some (.asking job n) ∧
      c.pool.generation? n = some g ∧ g.ask c.pool.policy job = .full outstanding ∧
      c' = { c with callers := c.callers.set i (.submitted job (.error (.late outstanding))) } := by
  obtain ⟨caller, hcaller, h⟩ := Option.bind_eq_some_iff.1 h
  obtain ⟨caller', hgiveUp, h⟩ := Option.bind_eq_some_iff.1 h
  cases h
  obtain ⟨job, n, g, outstanding, rfl, hg, hask, rfl⟩ := Pool.giveUp?_eq_some_iff.1 hgiveUp
  exact ⟨job, n, g, outstanding, hcaller, hg, hask, rfl⟩

/-- The threads can only be missing where a generation is to be built. -/
theorem exists_noThreads {i : Nat} {reason : String}
    (h : c.move? (.noThreads i reason) = some c') :
    ∃ workers, c.callers[i]? = some (.installing workers) ∧ c.pool.active.workers ≠ workers ∧
      c' = { pool := c.pool.skip
             callers := c.callers.set i (.resized (.error (.notBuilt (.noThreads reason)))) } := by
  obtain ⟨caller, hcaller, h⟩ := Option.bind_eq_some_iff.1 h
  obtain ⟨⟨pool, caller'⟩, hnoThreads, h⟩ := Option.bind_eq_some_iff.1 h
  cases h
  obtain ⟨workers, rfl, hother, rfl, rfl⟩ := Pool.noThreads?_eq_some_iff.1 hnoThreads
  exact ⟨workers, hcaller, hother, rfl⟩

/-- A worker begins a job in one generation. -/
theorem exists_start {n : Nat} {job : ι} (h : c.move? (.start n job) = some c') :
    ∃ g g', c.pool.generation? n = some g ∧ g.start? job = some g' ∧
      c' = { c with pool := c.pool.modify n fun _ => g' } := by
  obtain ⟨pool, hpool, h⟩ := Option.bind_eq_some_iff.1 h
  cases h
  obtain ⟨g, hg, hpool⟩ := Option.bind_eq_some_iff.1 hpool
  obtain ⟨g', hstart, hpool⟩ := Option.bind_eq_some_iff.1 hpool
  cases hpool
  exact ⟨g, g', hg, hstart, rfl⟩

/-- A worker ends a job that is under way in one generation. -/
theorem exists_finish {n : Nat} {job : ι} (h : c.move? (.finish n job) = some c') :
    ∃ g, c.pool.generation? n = some g ∧ job ∈ g.running ∧
      c' = { c with pool := c.pool.modify n (·.finish job) } := by
  obtain ⟨g, hg, h⟩ := Option.bind_eq_some_iff.1 h
  by_cases hrunning : job ∈ g.running
  · simp only [if_pos hrunning] at h
    cases h
    exact ⟨g, hg, hrunning, rfl⟩
  · simp [hrunning] at h

/-- A move is one of these. -/
theorem Step.of_move? (h : c.move? move = some c') : Step c c' := by
  cases move with
  | arrive caller =>
    by_cases hfirst : caller.isFirst = true
    · simp only [move?, if_pos hfirst] at h
      cases h
      exact .arrive hfirst
    · simp [move?, hfirst] at h
  | act i =>
    obtain ⟨caller, pool, caller', hcaller, hadvance, rfl⟩ := exists_advance h
    exact .act hcaller hadvance
  | giveUp i =>
    obtain ⟨job, n, g, outstanding, hcaller, hg, hask, rfl⟩ := exists_giveUp h
    exact .giveUp hcaller hg hask
  | noThreads i reason =>
    obtain ⟨workers, hcaller, hother, rfl⟩ := exists_noThreads h
    exact .noThreads hcaller hother
  | start n job =>
    obtain ⟨g, g', hg, hstart, rfl⟩ := exists_start h
    exact .start hg hstart
  | finish n job =>
    obtain ⟨g, hg, hrunning, rfl⟩ := exists_finish h
    exact .finish hg hrunning

/-- Every move keeps a crowd sound. The case of a caller is `Sound.act`, and those of workers change
the jobs of one generation. -/
theorem Sound.step (hs : c.Sound) (hstep : Step c c') : c'.Sound := by
  cases hstep with
  | arrive hfirst =>
    exact hs.of_terms rfl (Nat.le_refl _) (fun n hn => List.mem_append_left _ hn)
      fun job n hasks => .inl (mem_of_arrived hfirst nofun hasks)
  | giveUp hcaller _ _ =>
    refine hs.of_terms rfl (Nat.le_refl _) (fun n hn => mem_set_of_ne hcaller (by simp) hn)
      fun job n hasks => ?_
    rcases List.mem_or_eq_of_mem_set hasks with hbefore | hnew
    · exact .inl hbefore
    · cases hnew
  -- a number is used up, and nothing else changes but the caller
  | noThreads hcaller _ =>
    refine hs.of_terms rfl (Nat.le_succ _) (fun n hn => mem_set_of_ne hcaller (by simp) hn)
      fun job n hasks => ?_
    rcases List.mem_or_eq_of_mem_set hasks with hbefore | hnew
    · exact .inl hbefore
    · cases hnew
  | start hg hstart =>
    exact hs.of_terms (Pool.terms_of_start? hs.ordered hg hstart) (Nat.le_refl _)
      (fun _ hn => hn) fun _ _ hasks => .inl hasks
  | finish hg _ =>
    exact hs.of_terms (Pool.terms_of_finish hs.ordered hg _) (Nat.le_refl _) (fun _ hn => hn)
      fun _ _ hasks => .inl hasks
  | act hcaller hadvance => exact hs.act hcaller hadvance

/-- What holds at first and is kept by each move holds after every run. -/
theorem run_induction {P : Crowd ι → Prop} {moves : List (Move ι)} (hfirst : P c)
    (hkeep : ∀ {c c'}, P c → Step c c' → P c') (hrun : c.run? moves = some c') : P c' :=
  Rows.induction (I := fun _ => P) hfirst (fun _ h hmove => hkeep h (.of_move? hmove)) hrun

theorem run?_append {moves : List (Move ι)} (hrun : c.run? moves = some c')
    (more : List (Move ι)) : c.run? (moves ++ more) = c'.run? more := by
  unfold run? at hrun ⊢
  rw [List.foldlM_append, hrun]
  rfl

theorem Sound.run {moves : List (Move ι)} (hs : c.Sound) (hrun : c.run? moves = some c') :
    c'.Sound :=
  run_induction hs Sound.step hrun

end Crowd

end SemanticHighlight
