import SemanticHighlight.Proofs.Pool.History

/-!
# No accepted job is lost or repeated

Whatever row of operations a new pool has gone through, each job that was submitted once has
one of three fates (`Pool.History.Fate`): its submission failed and it never runs; or one
generation holds it; or it was begun once and ended once, by the generation that was given
it. `Pool.History.run_kept` is the main statement. It says so of every job, in whatever order the
workers take jobs up, that what is held can always be worked off, and what a change of size and
the closing do and do not change.
-/

namespace SemanticHighlight

namespace Pool

variable {ι : Type}

/-- What changing the number of workers does to a pool, if the number is another one and the new
generation can be built. -/
structure Replaced (p : Pool ι) (workers : UInt64) (p' : Pool ι) : Prop where
  /-- The new generation is empty. -/
  active : p'.active = .fresh p.next workers p.queueSize
  /-- Its number is larger than all before. -/
  larger : ∀ g ∈ p.generations, g.number < p'.active.number
  /-- The earlier ones keep the jobs that they held. -/
  jobs : (p'.former.map fun g => (g.number, g.waiting, g.running)) =
    p.generations.map fun g => (g.number, g.waiting, g.running)
  /-- And they admit nothing more. -/
  retired : ∀ g ∈ p'.former, g.retired = true
  held : p'.held = p.held

/-- Changing the size of a sound pool replaces its active generation, whose jobs stay where they
are. -/
theorem Sound.replaced {p : Pool ι} (hs : p.Sound) (workers : UInt64) :
    p.Replaced workers
      { p.skip with
        active := .fresh p.next workers p.queueSize
        former := p.active.retire :: p.former } where
  active := rfl
  larger := fun _ hg => Nat.lt_of_le_of_lt (le_active hs.ordered hg) hs.ordered.next
  jobs := rfl
  retired := by
    intro g hg
    rcases List.mem_cons.1 hg with rfl | hformer
    · rfl
    · exact hs.formerRetired g hformer
  held := rfl

namespace History

variable {ι : Type} [DecidableEq ι] {h h' : History ι} {ops : List (Operation ι)} {job : ι}
  {g : Generation ι} {n : Nat}

/-- The entries of one job. -/
def entriesOf (job : ι) (entries : List (Nat × ι)) : List (Nat × ι) :=
  entries.filter fun entry => entry.2 = job

theorem count_eq_length_entriesOf (job : ι) (entries : List (Nat × ι)) :
    (entries.map Prod.snd).count job = (entriesOf job entries).length := by
  unfold entriesOf
  rw [List.count, List.countP_map, List.countP_eq_length_filter]
  congr 2

theorem entriesOf_append (job : ι) (entries entries' : List (Nat × ι)) :
    entriesOf job (entries ++ entries') = entriesOf job entries ++ entriesOf job entries' :=
  List.filter_append ..

/-- A job with one entry is in one generation. -/
theorem entriesOf_eq_singleton {entries : List (Nat × ι)}
    (h : (entriesOf job entries).length = 1) : ∃ n, entriesOf job entries = [(n, job)] := by
  obtain ⟨entry, hentry⟩ := List.length_eq_one_iff.1 h
  have hmem : entry ∈ entriesOf job entries := by simp [hentry]
  have hjob : entry.2 = job := by simpa using (List.mem_filter.1 hmem).2
  exact ⟨entry.1, by rw [hentry, ← hjob]⟩

/-- What became of a job that was submitted once. -/
inductive Fate (h : History ι) (job : ι) : Prop
  /-- Its submission failed. No generation was given it, and no worker begins or ends it. -/
  | refused (hrefused : job ∈ h.refused.map Prod.fst) (haccepted : entriesOf job h.accepted = [])
      (hheld : entriesOf job h.pool.held = []) (hbegun : entriesOf job h.begun = [])
      (hended : entriesOf job h.ended = [])
  /-- The one generation that was given it holds it. If it was begun, it is in hand. -/
  | held (n : Nat) (haccepted : entriesOf job h.accepted = [(n, job)])
      (hheld : entriesOf job h.pool.held = [(n, job)])
      (hbegun : entriesOf job h.begun = entriesOf job h.pool.inHand)
      (hended : entriesOf job h.ended = [])
  /-- The one generation that was given it has begun it once and ended it once. -/
  | ended (n : Nat) (haccepted : entriesOf job h.accepted = [(n, job)])
      (hheld : entriesOf job h.pool.held = []) (hbegun : entriesOf job h.begun = [(n, job)])
      (hended : entriesOf job h.ended = [(n, job)])

/-- The accounts of a job that was submitted once leave three ways for its entries to be spread. -/
theorem Accounted.fate (ha : h.Accounted ops)
    (honce : (ops.filterMap Operation.answered?).count job = 1) : h.Fate job := by
  have hanswers := (ha.answered.count_eq job).trans honce
  simp only [History.answered, List.count_append, count_eq_length_entriesOf] at hanswers
  have hsplit : (entriesOf job h.accepted).Perm
      (entriesOf job h.pool.held ++ entriesOf job h.ended) := by
    rw [← entriesOf_append]
    exact ha.accepted.filter _
  have hruns : (entriesOf job h.begun).Perm
      (entriesOf job h.pool.inHand ++ entriesOf job h.ended) := by
    rw [← entriesOf_append]
    exact ha.begun.filter _
  -- each account is looked through for the entries of this one job
  have hinHand : (entriesOf job h.pool.inHand).Sublist (entriesOf job h.pool.held) :=
    h.pool.inHand_sublist.filter _
  by_cases hrefused : job ∈ h.refused.map Prod.fst
  · -- the one answer was a refusal, so the job is in none of the accounts
    have hpositive := List.count_pos_iff.2 hrefused
    have hnone : entriesOf job h.accepted = [] := List.length_eq_zero_iff.1 (by omega)
    rw [hnone] at hsplit
    obtain ⟨hheld, hended⟩ := List.append_eq_nil_iff.1 (List.nil_perm.1 hsplit)
    rw [hheld] at hinHand
    rw [List.sublist_nil.1 hinHand, hended] at hruns
    exact .refused hrefused hnone hheld (List.perm_nil.1 hruns) hended
  · -- the one answer went well, and its entry is held or has ended
    have hzero := List.count_eq_zero.2 hrefused
    obtain ⟨n, hone⟩ := entriesOf_eq_singleton (by omega : (entriesOf job h.accepted).length = 1)
    rw [hone] at hsplit
    rcases List.append_eq_singleton_iff.1 (List.perm_singleton.1 hsplit.symm) with
      ⟨hheld, hended⟩ | ⟨hheld, hended⟩
    · rw [hheld] at hinHand
      rw [List.sublist_nil.1 hinHand, hended] at hruns
      exact .ended n hone hheld (List.perm_singleton.1 hruns) hended
    · rw [hended, List.append_nil] at hruns
      rw [hheld] at hinHand
      refine .held n hone hheld ?_ hended
      rcases List.sublist_singleton.1 hinHand with hidle | hbusy
      · rw [hidle] at hruns ⊢
        exact List.perm_nil.1 hruns
      · rw [hbusy] at hruns ⊢
        exact List.perm_singleton.1 hruns

/-- That all the jobs have ended which had been accepted before: each has been begun and ended
as often as it was accepted, by the generation that was given it. -/
structure Done (h h' : History ι) : Prop where
  held : h'.pool.held = []
  ended : h'.ended.Perm h.accepted
  begun : h'.begun.Perm h.accepted

/-- What holds of a pool, and of the jobs that were submitted to it, after a row of
operations. -/
structure Kept (ops : List (Operation ι)) (h : History ι) : Prop where
  /-- A number stands for one generation. -/
  ordered : h.pool.Ordered
  /-- Each answer is recorded, and none twice. -/
  answered : h.answered.Perm (ops.filterMap Operation.answered?)
  /-- A generation holds what it was given until that has ended, job for job. -/
  accepted : h.accepted.Perm (h.pool.held ++ h.ended)
  /-- A job is begun as often as it is in hand or has ended. -/
  begun : h.begun.Perm (h.pool.inHand ++ h.ended)
  fate : ∀ job, (ops.filterMap Operation.answered?).count job = 1 → h.Fate job
  /-- However the workers go on, they come to an end, and then all jobs have ended. -/
  worksOff : ∀ work last, (∀ op ∈ work, Operation.isWork op = true) → h.run? work = some last →
    work.length ≤ h.toDo ∧ ((∀ op, op.isWork = true → last.step? op = none) → Done h last)
  /-- Whichever job waits, a worker that is free may begin it next. -/
  begins : ∀ {n : Nat} {g : Generation ι} {job : ι}, h.pool.generation? n = some g →
    job ∈ g.waiting → g.running.length < g.workers.toNat →
    ∃ h', h.step? (.start n job) = some h' ∧ h'.begun = h.begun ++ [(n, job)]
  /-- And they can go on until then. -/
  drains : ∃ work last, (∀ op ∈ work, Operation.isWork op = true) ∧ h.run? work = some last ∧
    Done h last
  /-- Changing the number of workers to none, or that of a pool that is shut down, fails and
  changes nothing. -/
  notResized : ∀ workers threads, workers = 0 ∨ .close ∈ ops →
    (∃ e, h.pool.resize workers threads = (h.pool, .error e)) ∧
      h.step? (.resize workers threads) = some h
  sameSize : .close ∉ ops → ∀ threads,
    h.pool.resize h.pool.active.workers threads = (h.pool, .ok ())
  /-- The next generation can be built, unless the machine gives no threads or the capacity has
  more than 64 bits. -/
  builds : ∀ workers threads, (∃ g, h.pool.build threads workers = .ok g) ↔
    threads = .ok () ∧ workers.toNat + h.pool.queueSize.toNat < UInt64.size
  resized : ∀ workers threads, workers ≠ 0 → .close ∉ ops → workers ≠ h.pool.active.workers →
    (∃ g, h.pool.build threads workers = .ok g) →
      ∃ p, h.pool.resize workers threads = (p, .ok ()) ∧ h.pool.Replaced workers p
  /-- If it cannot be built, a number is used up and nothing else has changed. -/
  notBuilt : ∀ workers threads reason, workers ≠ 0 → .close ∉ ops →
    workers ≠ h.pool.active.workers → h.pool.build threads workers = .error reason →
      h.pool.resize workers threads = (h.pool.skip, .error (.notBuilt reason))
  /-- No generation before the active one is ever given a job again, and none is once the
  pool is shut down. -/
  later : ∀ more last, h.run? more = some last →
    ∃ new, last.accepted = h.accepted ++ new ∧
      ∀ entry ∈ new, h.pool.active.number ≤ entry.1 ∧ .close ∉ ops
  /-- Once the pool is shut down, each submission fails as an invalid operation. -/
  refusing : .close ∈ ops → ∀ job, ∃ reason,
    h.pool.submit job = .refused reason ∧ reason.failure = .invalid Pool.shutDownMessage

/-- When nothing is held any more, all that was accepted has been begun and ended. -/
theorem Accounted.done (ha : h.Accounted ops) {work : List (Operation ι)}
    (hwork : ∀ op ∈ work, Operation.isWork op = true) (hrun : h.run? work = some h')
    (hempty : h'.pool.held = []) : Done h h' := by
  have hlast := ha.run hrun
  have hidle : h'.pool.inHand = [] := by
    have hinHand := h'.pool.inHand_sublist
    rw [hempty] at hinHand
    exact List.sublist_nil.1 hinHand
  obtain ⟨-, hsame⟩ := run_work ha.sound hwork hrun
  have haccepted := hlast.accepted
  have hbegun := hlast.begun
  rw [hempty, List.nil_append, hsame] at haccepted
  rw [hidle, List.nil_append] at hbegun
  exact ⟨hempty, haccepted.symm, hbegun.trans haccepted.symm⟩

/-- The workers stop only when there is nothing left to do, whatever they did before. -/
theorem Accounted.worksOff (ha : h.Accounted ops) {work : List (Operation ι)}
    (hwork : ∀ op ∈ work, Operation.isWork op = true) (hrun : h.run? work = some h') :
    work.length ≤ h.toDo ∧ ((∀ op, op.isWork = true → h'.step? op = none) → Done h h') := by
  obtain ⟨hle, -⟩ := run_work ha.sound hwork hrun
  refine ⟨by omega, fun hnone => ha.done hwork hrun ?_⟩
  by_contra hheld
  obtain ⟨op, next, hop, hstep⟩ := exists_work (ha.run hrun).sound hheld
  rw [hnone op hop] at hstep
  cases hstep

/-- A change of size to no workers, or after the pool was shut down, fails and leaves the pool as it
is. -/
theorem Accounted.notResized (ha : h.Accounted ops) {workers : UInt64}
    (threads : Except String Unit) (hcase : workers = 0 ∨ .close ∈ ops) :
    (∃ e, h.pool.resize workers threads = (h.pool, .error e)) ∧
      h.step? (.resize workers threads) = some h := by
  have hfails : ∃ e, h.pool.resize workers threads = (h.pool, .error e) := by
    by_cases hw : workers = 0
    · exact ⟨.noWorkers, hw ▸ Pool.resize_zero threads _⟩
    · have hshut := ha.shutDown.2 (hcase.resolve_left hw)
      exact ⟨.shutDown, Pool.resize_of_shutDown threads hw hshut⟩
  refine ⟨hfails, ?_⟩
  obtain ⟨e, he⟩ := hfails
  simp only [step?, he]

omit [DecidableEq ι] in
/-- Any other change of size that can be built succeeds. -/
theorem Accounted.resized (ha : h.Accounted ops) {workers : UInt64} {threads : Except String Unit}
    (hw : workers ≠ 0) (hopen : h.pool.shutDown = false) (hne : workers ≠ h.pool.active.workers)
    (hbuilds : ∃ g, h.pool.build threads workers = .ok g) :
    ∃ p, h.pool.resize workers threads = (p, .ok ()) ∧ h.pool.Replaced workers p := by
  obtain ⟨g, hbuild⟩ := hbuilds
  have hresize := Pool.resize_of_ok threads ha.sound.ordered hw hopen hne hbuild
  obtain ⟨-, -, rfl⟩ := Pool.build_eq_ok_iff.1 hbuild
  exact ⟨_, hresize, ha.sound.replaced workers⟩

/-- A worker that is free may take up any job that waits. -/
theorem exists_begin (hg : h.pool.generation? n = some g) (hwaiting : job ∈ g.waiting)
    (hfree : g.running.length < g.workers.toNat) :
    ∃ h', h.step? (.start n job) = some h' ∧ h'.begun = h.begun ++ [(n, job)] :=
  ⟨_, step?_start hg (Generation.start?_eq_some_iff.2 ⟨hwaiting, hfree, rfl⟩), rfl⟩

/-- **No accepted job is lost or repeated.** Whatever a new pool has gone through, and whichever
jobs its workers have taken up first, the jobs that it accepted are held or have ended, each once
and by the generation that was given it, also when the pool has since been resized or shut
down. -/
theorem run_kept {workers queueSize : UInt64} {policy : Backpressure}
    {threads : Except String Unit} {p : Pool ι}
    (hp : Pool.create workers queueSize policy threads = .ok p)
    (hrun : (opening p).run? ops = some h) : h.Kept ops := by
  have ha : h.Accounted ops := (accounted_opening hp).run hrun
  have hopen (hnot : .close ∉ ops) : h.pool.shutDown = false := by
    simpa using mt ha.shutDown.1 hnot
  exact
    { ordered := ha.sound.ordered
      answered := ha.answered
      accepted := ha.accepted
      begun := ha.begun
      fate := fun job => ha.fate
      worksOff := fun work last hwork hrun => ha.worksOff hwork hrun
      begins := exists_begin
      drains := by
        obtain ⟨work, last, hwork, hrun, hempty⟩ := exists_drain ha.sound
        exact ⟨work, last, hwork, hrun, ha.done hwork hrun hempty⟩
      notResized := fun workers threads hcase => ha.notResized threads hcase
      sameSize := fun hnot threads => Pool.resize_of_eq threads ha.sound (hopen hnot)
      builds := fun workers threads => Pool.exists_build_iff
      resized := fun workers threads hw hnot hne => ha.resized hw (hopen hnot) hne
      notBuilt := fun workers threads reason hw hnot hne =>
        Pool.resize_of_error threads hw (hopen hnot) hne
      -- an admission after the pool was closed would contradict the flag
      later := by
        intro more last hmore
        obtain ⟨new, hnew, hentries⟩ := run_later ha.sound hmore
        refine ⟨new, hnew, fun entry hentry => ?_⟩
        obtain ⟨hlarger, hstill⟩ := hentries entry hentry
        refine ⟨hlarger, fun hclose => ?_⟩
        rw [ha.shutDown.2 hclose] at hstill
        cases hstill
      refusing := fun hclose job =>
        ⟨.shutDown, Pool.submit_of_shutDown (ha.shutDown.2 hclose), rfl⟩ }

/-- A pool of one worker and two places to wait is full, and its worker takes the last job up
first. It is resized with that job in hand, once in vain, takes another job, and is shut down;
then the job in hand ends, and the oldest one is begun. -/
theorem run_kept_resized :
    ∃ (ops : List (Operation Nat)) (p : Pool Nat) (h : History Nat),
      Pool.create 1 2 .reject = .ok p ∧ (opening p).run? ops = some h ∧
        h.accepted = [(0, 1), (0, 2), (0, 3), (2, 5)] ∧
        h.refused = [(4, .saturated 3), (6, .shutDown)] ∧
        h.pool.held = [(2, 5), (0, 2), (0, 1)] ∧ h.begun = [(0, 3), (0, 1)] ∧
        h.ended = [(0, 3)] ∧ h.Kept ops := by
  let p : Pool Nat := { active := .fresh 0 1 2, queueSize := 2, policy := .reject }
  let first : Generation Nat :=
    { number := 0, workers := 1, capacity := 3, retired := true, inFlight := 2, waiting := [2]
      running := [1] }
  let second : Generation Nat :=
    { number := 2, workers := 2, capacity := 4, retired := true, inFlight := 1, waiting := [5] }
  let h : History Nat :=
    { pool := { p with active := second, former := [first], shutDown := true, next := 3 }
      accepted := [(0, 1), (0, 2), (0, 3), (2, 5)]
      refused := [(4, .saturated 3), (6, .shutDown)]
      begun := [(0, 3), (0, 1)]
      ended := [(0, 3)] }
  -- the jobs begin out of order, one is refused for want of room, and a change of size fails before
  -- one succeeds
  let ops : List (Operation Nat) :=
    [.submit 1, .submit 2, .submit 3, .submit 4, .start 0 3, .resize 2 (.error "no memory"),
      .resize 2, .submit 5, .close, .submit 6, .finish 0 3, .start 0 1]
  have hp : Pool.create 1 2 .reject = .ok p := rfl
  have hrun : (opening p).run? ops = some h := rfl
  exact ⟨ops, p, h, hp, hrun, rfl, rfl, rfl, rfl, rfl, run_kept hp hrun⟩

end History

end Pool

end SemanticHighlight
