import SemanticHighlight.Proofs.Pool.Generations

/-!
# The operations on a pool

`Pool.Sound` holds of a pool whenever no operation is under way: the generations are in
order and have workers, those before the active one are retired, and the active one is
retired just when the pool is shut down. It is what makes the operations simple to state. A
change of size puts an empty generation in front and retires the one behind it, or uses a number
up, or does nothing (`Pool.resize_cases`); closing retires the one generation that is still open
(`Pool.close_of_open`).
-/

namespace SemanticHighlight

namespace Generation

variable {ι : Type} {g g' : Generation ι} {job : ι}

/-- What no job changes: the number, the workers, and whether it is retired. -/
def terms (g : Generation ι) : Nat × UInt64 × Bool := (g.number, g.workers, g.retired)

theorem terms_of_ask {policy : Backpressure} (h : g.ask policy job = .admitted g') :
    g'.terms = g.terms := by
  obtain ⟨-, rfl⟩ := ask_eq_admitted_iff.1 h
  rfl

theorem terms_of_start? [DecidableEq ι] (h : g.start? job = some g') : g'.terms = g.terms := by
  obtain ⟨-, -, rfl⟩ := start?_eq_some_iff.1 h
  rfl

theorem terms_finish [DecidableEq ι] (g : Generation ι) (job : ι) :
    (g.finish job).terms = g.terms := by
  unfold finish
  split <;> rfl

theorem forall_of_map_eq {gs gs' : List (Generation ι)} {P : Nat × UInt64 × Bool → Prop}
    (h : gs'.map terms = gs.map terms) (hP : ∀ g ∈ gs, P g.terms) : ∀ g ∈ gs', P g.terms := by
  have hmap := List.forall_mem_map.2 hP
  rw [← h] at hmap
  exact List.forall_mem_map.1 hmap

end Generation

namespace Pool

variable {ι : Type} {p p' : Pool ι} {g g' : Generation ι} {n : Nat} {job : ι}

/-- The generations, but for their jobs. -/
def terms (p : Pool ι) : List (Nat × UInt64 × Bool) := p.generations.map Generation.terms

theorem terms_of_ask {policy : Backpressure} (ho : p.Ordered) (hg : p.generation? n = some g)
    (h : g.ask policy job = .admitted g') : (p.modify n fun _ => g').terms = p.terms :=
  map_modify (f := fun _ => g') Generation.terms ho hg (Generation.terms_of_ask h)

theorem terms_of_start? [DecidableEq ι] (ho : p.Ordered) (hg : p.generation? n = some g)
    (h : g.start? job = some g') : (p.modify n fun _ => g').terms = p.terms :=
  map_modify (f := fun _ => g') Generation.terms ho hg (Generation.terms_of_start? h)

theorem terms_of_finish [DecidableEq ι] (ho : p.Ordered) (hg : p.generation? n = some g)
    (job : ι) : (p.modify n (·.finish job)).terms = p.terms :=
  map_modify (f := (·.finish job)) Generation.terms ho hg (Generation.terms_finish g job)

theorem active_of_terms (h : p'.terms = p.terms) : p'.active.terms = p.active.terms :=
  (List.cons.inj h).1

theorem former_of_terms (h : p'.terms = p.terms) :
    p'.former.map Generation.terms = p.former.map Generation.terms :=
  (List.cons.inj h).2

/-- With the terms the numbers are the same. -/
theorem numbers_of_terms (h : p'.terms = p.terms) :
    p'.generations.map Generation.number = p.generations.map Generation.number := by
  have hnumbers := congrArg (List.map Prod.fst) h
  unfold terms at hnumbers
  rw [List.map_map, List.map_map] at hnumbers
  exact hnumbers

/-- What holds of a pool between two operations. -/
structure Sound (p : Pool ι) : Prop where
  ordered : p.Ordered
  staffed : ∀ g ∈ p.generations, g.workers ≠ 0
  formerRetired : ∀ g ∈ p.former, g.retired = true
  activeRetired : p.active.retired = p.shutDown

/-- What it takes to build the next generation. -/
theorem build_eq_ok_iff {threads : Except String Unit} {workers : UInt64} :
    p.build threads workers = .ok g ↔
      threads = .ok () ∧ workers.toNat + p.queueSize.toNat < UInt64.size ∧
        g = .fresh p.next workers p.queueSize :=
  Generation.build_eq_ok_iff

/-- A generation can be built exactly if there are threads for it and its workers and places can be
added up. -/
theorem exists_build_iff {threads : Except String Unit} {workers : UInt64} :
    (∃ g, p.build threads workers = .ok g) ↔
      threads = .ok () ∧ workers.toNat + p.queueSize.toNat < UInt64.size := by
  simp only [build_eq_ok_iff, exists_and_left, exists_eq, and_true]

/-- A generation that is built gets the next number. -/
theorem number_of_build {threads : Except String Unit} {workers : UInt64}
    (h : p.build threads workers = .ok g) : g.number = p.next := by
  obtain ⟨-, -, rfl⟩ := build_eq_ok_iff.1 h
  rfl

/-- What it takes to make a pool. -/
theorem create_eq_ok_iff {workers queueSize : UInt64} {policy : Backpressure}
    {threads : Except String Unit} :
    create workers queueSize policy threads = .ok p ↔
      workers ≠ 0 ∧ threads = .ok () ∧ workers.toNat + queueSize.toNat < UInt64.size ∧
        p = { active := .fresh 0 workers queueSize, queueSize, policy } := by
  unfold create
  by_cases hw : workers = 0
  · simp [hw]
  · rw [if_neg hw]
    -- a pool is its first generation, so it is there exactly if that can be built
    cases hbuild : Generation.build (ι := ι) threads 0 workers queueSize with
    | ok g =>
      obtain ⟨hthreads, hfits, rfl⟩ := Generation.build_eq_ok_iff.1 hbuild
      simp only [Except.ok.injEq]
      exact ⟨fun h => ⟨hw, hthreads, hfits, h.symm⟩, fun h => h.2.2.2.symm⟩
    | error reason =>
      simp only [reduceCtorEq, false_iff]
      rintro ⟨-, hthreads, hfits, -⟩
      rw [Generation.build_eq_ok_iff.2 ⟨hthreads, hfits, rfl⟩] at hbuild
      cases hbuild

/-- A new pool is sound. -/
theorem sound_of_create {workers queueSize : UInt64} {policy : Backpressure}
    {threads : Except String Unit} (h : create workers queueSize policy threads = .ok p) :
    p.Sound := by
  obtain ⟨hw, -, -, rfl⟩ := create_eq_ok_iff.1 h
  exact
    { ordered := ⟨List.pairwise_singleton .., Nat.zero_lt_one⟩
      staffed := by
        intro g hg
        rw [List.mem_singleton.1 hg]
        exact hw
      formerRetired := by simp
      activeRetired := rfl }

/-- An operation that changes no generation but in its jobs keeps the pool sound. -/
theorem Sound.of_terms (hs : p.Sound) (h : p'.terms = p.terms)
    (hshut : p'.shutDown = p.shutDown) (hnext : p.next ≤ p'.next) : p'.Sound where
  ordered := hs.ordered.of_numbers (numbers_of_terms h) hnext
  staffed := Generation.forall_of_map_eq (P := fun terms => terms.2.1 ≠ 0) h hs.staffed
  formerRetired :=
    Generation.forall_of_map_eq (P := fun terms => terms.2.2 = true) (former_of_terms h)
      hs.formerRetired
  activeRetired := by
    have hsame : p'.active.retired = p.active.retired :=
      congrArg (fun terms => terms.2.2) (active_of_terms h)
    rw [hsame, hshut]
    exact hs.activeRetired

/-- A job is admitted by the active generation, and only while the pool is not shut down. -/
theorem submit_admitted (h : p.submit job = .admitted p') :
    p.shutDown = false ∧
      ∃ g, p.active.ask p.policy job = .admitted g ∧ p' = { p with active := g } := by
  unfold submit at h
  by_cases hshut : p.shutDown = true
  · rw [if_pos hshut] at h
    cases h
  · rw [if_neg hshut] at h
    refine ⟨by simpa using hshut, ?_⟩
    cases hask : p.active.ask p.policy job with
    | admitted g =>
      rw [hask] at h
      cases h
      exact ⟨g, rfl, rfl⟩
    | retired | saturated _ | full _ =>
      rw [hask] at h
      cases h

theorem submit_of_shutDown (h : p.shutDown = true) : p.submit job = .refused .shutDown := by
  unfold submit
  rw [if_pos h]

section Resize

variable {workers : UInt64} (threads : Except String Unit)

theorem resize_zero (p : Pool ι) : p.resize 0 threads = (p, .error .noWorkers) := rfl

/-- A pool that is shut down is not changed in size. -/
theorem resize_of_shutDown (hw : workers ≠ 0) (hshut : p.shutDown = true) :
    p.resize workers threads = (p, .error .shutDown) := by
  unfold resize
  rw [if_neg hw, if_pos hshut]

theorem resize_of_eq (hs : p.Sound) (hopen : p.shutDown = false) :
    p.resize p.active.workers threads = (p, .ok ()) := by
  unfold resize
  rw [if_neg (hs.staffed p.active List.mem_cons_self), if_neg (by simp [hopen]), if_pos rfl]

/-- Another number of workers, and no generation for them: a number is used up. -/
theorem resize_of_error {reason : BuildError} (hw : workers ≠ 0) (hopen : p.shutDown = false)
    (hne : workers ≠ p.active.workers) (hbuild : p.build threads workers = .error reason) :
    p.resize workers threads = (p.skip, .error (.notBuilt reason)) := by
  unfold resize replace
  rw [if_neg hw, if_neg (by simp [hopen]), if_neg (Ne.symm hne), hbuild]

/-- Another number of workers: the generation that is built takes the place of the active one,
which is retired with the jobs it holds. -/
theorem resize_of_ok (ho : p.Ordered) (hw : workers ≠ 0) (hopen : p.shutDown = false)
    (hne : workers ≠ p.active.workers) (hbuild : p.build threads workers = .ok g) :
    p.resize workers threads =
      ({ p.skip with active := g, former := p.active.retire :: p.former }, .ok ()) := by
  obtain ⟨-, -, hg⟩ := build_eq_ok_iff.1 hbuild
  have hfresh : (p.install g).active.number ≠ p.active.number := by
    rw [hg]
    exact Nat.ne_of_gt ho.next
  -- the generation that was active is retired among the former ones, where its number stands once
  have hformer : ((p.install g).former.map fun g =>
      if g.number = p.active.number then g.retire else g) = p.active.retire :: p.former := by
    show List.map _ (p.active :: p.former) = _
    rw [List.map_cons, if_pos rfl, map_former ho]
  unfold resize replace
  rw [if_neg hw, if_neg (by simp [hopen]), if_neg (Ne.symm hne), hbuild]
  dsimp only
  unfold retire
  rw [modify_former hfresh, hformer]
  rfl

/-- A change of size does nothing, or uses a number up, or puts another generation in front. -/
theorem resize_cases (hs : p.Sound) (workers : UInt64) :
    (∃ answer, p.resize workers threads = (p, answer)) ∨
      (∃ answer, p.resize workers threads = (p.skip, answer)) ∨
      ∃ g, workers ≠ 0 ∧ p.shutDown = false ∧ p.build threads workers = .ok g ∧
        p.resize workers threads =
          ({ p.skip with active := g, former := p.active.retire :: p.former }, .ok ()) := by
  by_cases hw : workers = 0
  · exact .inl ⟨_, hw ▸ resize_zero threads p⟩
  · by_cases hopen : p.shutDown = false
    · by_cases hne : workers = p.active.workers
      · exact .inl ⟨_, hne ▸ resize_of_eq threads hs hopen⟩
      · cases hbuild : p.build threads workers with
        | error reason => exact .inr (.inl ⟨_, resize_of_error threads hw hopen hne hbuild⟩)
        | ok g =>
          exact .inr (.inr ⟨g, hw, hopen, rfl,
            resize_of_ok threads hs.ordered hw hopen hne hbuild⟩)
    · exact .inl ⟨_, resize_of_shutDown threads hw (by simpa using hopen)⟩

end Resize

/-- Shutting a pool down sets the flag and retires the active generation. -/
theorem close_of_open (ho : p.Ordered) (hopen : p.shutDown = false) :
    p.close = { p with shutDown := true, active := p.active.retire } := by
  unfold close
  rw [if_neg (by simp [hopen])]
  exact modify_active (p := { p with shutDown := true }) ⟨ho.numbers, ho.next⟩ Generation.retire

theorem close_of_shutDown (hshut : p.shutDown = true) : p.close = p := by
  unfold close
  rw [if_pos hshut]

/-- Using a number up leaves all generations as they are. -/
theorem Sound.skip (hs : p.Sound) : p.skip.Sound := hs.of_terms rfl rfl (Nat.le_succ _)

/-- A pool whose active generation is replaced stays sound: the number is new, and the old
generation is retired. -/
theorem Sound.resized {threads : Except String Unit} {workers : UInt64} (hs : p.Sound)
    (hw : workers ≠ 0) (hopen : p.shutDown = false) (hbuild : p.build threads workers = .ok g) :
    Sound { p.skip with active := g, former := p.active.retire :: p.former } := by
  obtain ⟨-, -, rfl⟩ := build_eq_ok_iff.1 hbuild
  exact
    { ordered := (hs.ordered.install (g := .fresh p.next workers p.queueSize) rfl).of_numbers rfl
        (Nat.le_refl _)
      staffed := by
        intro g hg
        -- the new generation has workers, and the two kinds of old ones had them
        rcases List.mem_cons.1 hg with rfl | hg
        · exact hw
        · rcases List.mem_cons.1 hg with rfl | hformer
          · exact hs.staffed p.active List.mem_cons_self
          · exact hs.staffed g (List.mem_cons_of_mem _ hformer)
      formerRetired := by
        intro g hg
        rcases List.mem_cons.1 hg with rfl | hformer
        · rfl
        · exact hs.formerRetired g hformer
      activeRetired := hopen.symm }

/-- A pool that is shut down stays sound. -/
theorem Sound.closed (hs : p.Sound) :
    Sound { p with shutDown := true, active := p.active.retire } where
  ordered := hs.ordered.of_numbers rfl (Nat.le_refl _)
  staffed := by
    intro g hg
    rcases List.mem_cons.1 hg with rfl | hformer
    · exact hs.staffed p.active List.mem_cons_self
    · exact hs.staffed g (List.mem_cons_of_mem _ hformer)
  formerRetired := hs.formerRetired
  activeRetired := rfl

end Pool

end SemanticHighlight
