import SemanticHighlight.Proofs.Pool.Sound
import SemanticHighlight.Proofs.Rows

/-!
# Rows of operations on a pool

Submissions, beginnings and endings of jobs, changes of size, and the closing, one after the
other on one pool. `Pool.History` is the pool with a record of what became of the jobs: which
submissions went well, which failed, which jobs a worker has begun, and which have ended.

`Pool.History.Step` says what one operation does, by its kind, and `Pool.History.Accounted` is the
invariant that it keeps: what was accepted is held or has ended, and what was begun is in
hand or has ended, each time with the number of the generation. A beginning names its job, which
may be any that waits: the workers take jobs up in an order of their own. They come to an end
(`Pool.History.run_work`), and not before all that is held is worked off
(`Pool.History.exists_work`). The generations before the active one admit nothing any more
(`Pool.History.run_later`).
-/

namespace SemanticHighlight

namespace Pool

/-- What can happen to a pool, one thing at a time. -/
inductive Operation (ι : Type) where
  /-- A job is submitted, and its submission is answered at once. One that has to wait is
  answered later: it is the operation of the moment at which it is answered. -/
  | submit (job : ι)
  /-- A submission that waits for a slot comes to its deadline. -/
  | expire (job : ι)
  /-- A worker of the generation of a number begins a job, whichever it takes up next. -/
  | start (number : Nat) (job : ι)
  /-- A worker of the generation of a number ends a job, well or by a panic. -/
  | finish (number : Nat) (job : ι)
  /-- The number of workers is changed, and the machine gives their threads or not. -/
  | resize (workers : UInt64) (threads : Except String Unit := .ok ())
  /-- The pool is shut down. -/
  | close
deriving DecidableEq, Repr

namespace Operation

variable {ι : Type}

/-- Whether it is a worker that acts. -/
def isWork : Operation ι → Bool
  | start _ _ | finish _ _ => true
  | _ => false

/-- The job whose submission is answered. -/
def answered? : Operation ι → Option ι
  | submit job | expire job => some job
  | _ => none

end Operation

/-- A pool with what became of its jobs. -/
structure History (ι : Type) where
  pool : Pool ι
  /-- The jobs whose submissions went well, with the generations they were given to. -/
  accepted : List (Nat × ι) := []
  /-- The jobs whose submissions failed. -/
  refused : List (ι × Refusal) := []
  /-- The jobs that a worker has begun. -/
  begun : List (Nat × ι) := []
  /-- The jobs that a worker has ended. -/
  ended : List (Nat × ι) := []

namespace History

variable {ι : Type} {h h' : History ι} {op : Operation ι} {ops : List (Operation ι)}
  {g g' : Generation ι} {n : Nat} {job : ι}

/-- A pool of which no job is known yet. -/
def opening (pool : Pool ι) : History ι := { pool }

/-- The jobs whose submissions have been answered, well or not. -/
def answered (h : History ι) : List ι := h.accepted.map Prod.snd ++ h.refused.map Prod.fst

/-- The accounts of a row of operations. -/
structure Accounted (ops : List (Operation ι)) (h : History ι) : Prop where
  sound : h.pool.Sound
  accepted : h.accepted.Perm (h.pool.held ++ h.ended)
  begun : h.begun.Perm (h.pool.inHand ++ h.ended)
  answered : h.answered.Perm (ops.filterMap Operation.answered?)
  shutDown : h.pool.shutDown = true ↔ .close ∈ ops

/-- The accounts of a new pool are empty. -/
theorem accounted_opening {workers queueSize : UInt64} {policy : Backpressure}
    {threads : Except String Unit} {p : Pool ι}
    (hp : Pool.create workers queueSize policy threads = .ok p) : (opening p).Accounted [] := by
  obtain ⟨-, -, -, rfl⟩ := Pool.create_eq_ok_iff.1 hp
  exact
    { sound := Pool.sound_of_create hp
      accepted := .refl _
      begun := .refl _
      answered := .refl _
      shutDown := by simp [opening] }

variable [DecidableEq ι]

/-- What an operation leads to, if it can happen. -/
def step? (h : History ι) : Operation ι → Option (History ι)
  | .submit job =>
    match h.pool.submit job with
    | .admitted pool =>
      some { h with pool, accepted := h.accepted ++ [(h.pool.active.number, job)] }
    | .refused reason => some { h with refused := h.refused ++ [(job, reason)] }
    | .blocked _ => none
  | .expire job =>
    match h.pool.submit job with
    | .blocked outstanding => some { h with refused := h.refused ++ [(job, .late outstanding)] }
    | _ => none
  | .start number job =>
    match h.pool.start? number job with
    | some pool => some { h with pool, begun := h.begun ++ [(number, job)] }
    | none => none
  | .finish number job =>
    match h.pool.generation? number with
    | some g =>
      if job ∈ g.running then
        some { h with
          pool := h.pool.finish number job
          ended := h.ended ++ [(number, job)] }
      else none
    | none => none
  | .resize workers threads => some { h with pool := (h.pool.resize workers threads).1 }
  | .close => some { h with pool := h.pool.close }

/-- What a row of operations leads to, if all of them can happen. -/
def run? (h : History ι) (ops : List (Operation ι)) : Option (History ι) := ops.foldlM step? h

/-- What an operation does, by its kind. The three that concern one job change one
generation each. -/
inductive Step (h : History ι) : Operation ι → History ι → Prop
  | accept {job : ι} {g : Generation ι} (hopen : h.pool.shutDown = false)
      (hask : h.pool.active.ask h.pool.policy job = .admitted g) :
      Step h (.submit job)
        { h with
          pool := h.pool.modify h.pool.active.number fun _ => g
          accepted := h.accepted ++ [(h.pool.active.number, job)] }
  | refuse {job : ι} {reason : Refusal} (hsubmit : h.pool.submit job = .refused reason) :
      Step h (.submit job) { h with refused := h.refused ++ [(job, reason)] }
  | expire {job : ι} {outstanding : Nat} (hsubmit : h.pool.submit job = .blocked outstanding) :
      Step h (.expire job) { h with refused := h.refused ++ [(job, .late outstanding)] }
  | start {n : Nat} {job : ι} {g g' : Generation ι} (hg : h.pool.generation? n = some g)
      (hstart : g.start? job = some g') :
      Step h (.start n job)
        { h with
          pool := h.pool.modify n fun _ => g'
          begun := h.begun ++ [(n, job)] }
  | finish {n : Nat} {job : ι} {g : Generation ι} (hg : h.pool.generation? n = some g)
      (hrunning : job ∈ g.running) :
      Step h (.finish n job)
        { h with
          pool := h.pool.modify n (·.finish job)
          ended := h.ended ++ [(n, job)] }
  | keep {workers : UInt64} {threads : Except String Unit} {answer : Except ResizeError Unit}
      (hresize : h.pool.resize workers threads = (h.pool, answer)) :
      Step h (.resize workers threads) h
  | skip {workers : UInt64} {threads : Except String Unit} {answer : Except ResizeError Unit}
      (hresize : h.pool.resize workers threads = (h.pool.skip, answer)) :
      Step h (.resize workers threads) { h with pool := h.pool.skip }
  | replace {workers : UInt64} {threads : Except String Unit} {g : Generation ι}
      (hw : workers ≠ 0) (hopen : h.pool.shutDown = false)
      (hbuild : h.pool.build threads workers = .ok g) :
      Step h (.resize workers threads)
        { h with
          pool :=
            { h.pool.skip with active := g, former := h.pool.active.retire :: h.pool.former } }
  | close (hopen : h.pool.shutDown = false) :
      Step h .close
        { h with pool := { h.pool with shutDown := true, active := h.pool.active.retire } }
  | stay (hshut : h.pool.shutDown = true) : Step h .close h

/-- A worker may begin any job that its generation lets it begin. -/
theorem step?_start (hg : h.pool.generation? n = some g) (hstart : g.start? job = some g') :
    h.step? (.start n job) =
      some { h with
        pool := h.pool.modify n fun _ => g'
        begun := h.begun ++ [(n, job)] } := by
  simp only [step?, Pool.start?, hg, hstart, Option.bind_eq_bind, Option.bind_some]

/-- A worker may end any job that it has begun. -/
theorem step?_finish (hg : h.pool.generation? n = some g) (hrunning : job ∈ g.running) :
    h.step? (.finish n job) =
      some { h with
        pool := h.pool.modify n (·.finish job)
        ended := h.ended ++ [(n, job)] } := by
  simp only [step?, hg, if_pos hrunning]
  rfl

/-- What `step?` leads to is one of the steps, if the pool is sound. -/
theorem Step.of_step? (hs : h.pool.Sound) (hstep : h.step? op = some h') : Step h op h' := by
  -- one case for each operation, with the answer of the pool taken apart
  cases op with
  | submit job =>
    cases hsubmit : h.pool.submit job with
    | admitted pool =>
      simp only [step?, hsubmit, Option.some.injEq] at hstep
      obtain ⟨hopen, g, hask, rfl⟩ := Pool.submit_admitted hsubmit
      rw [← hstep, ← Pool.modify_active hs.ordered fun _ => g]
      exact .accept hopen hask
    | refused reason =>
      simp only [step?, hsubmit, Option.some.injEq] at hstep
      subst hstep
      exact .refuse hsubmit
    | blocked _ => simp [step?, hsubmit] at hstep
  | expire job =>
    cases hsubmit : h.pool.submit job with
    | blocked _ =>
      simp only [step?, hsubmit, Option.some.injEq] at hstep
      subst hstep
      exact .expire hsubmit
    | admitted _ | refused _ => simp [step?, hsubmit] at hstep
  | start n job =>
    cases hg : h.pool.generation? n with
    | none => simp [step?, Pool.start?, hg] at hstep
    | some g =>
      cases hstart : g.start? job with
      | none => simp [step?, Pool.start?, hg, hstart] at hstep
      | some started =>
        rw [step?_start hg hstart] at hstep
        cases hstep
        exact .start hg hstart
  | finish n job =>
    cases hg : h.pool.generation? n with
    | none => simp [step?, hg] at hstep
    | some g =>
      by_cases hrunning : job ∈ g.running
      · rw [step?_finish hg hrunning] at hstep
        cases hstep
        exact .finish hg hrunning
      · simp [step?, hg, hrunning] at hstep
  | resize workers threads =>
    rcases Pool.resize_cases threads hs workers with
      ⟨_, hsame⟩ | ⟨_, hskip⟩ | ⟨g, hw, hopen, hbuild, hnew⟩
    · simp only [step?, hsame, Option.some.injEq] at hstep
      subst hstep
      exact .keep hsame
    · simp only [step?, hskip, Option.some.injEq] at hstep
      subst hstep
      exact .skip hskip
    · simp only [step?, hnew, Option.some.injEq] at hstep
      subst hstep
      exact .replace hw hopen hbuild
  | close =>
    simp only [step?, Option.some.injEq] at hstep
    subst hstep
    by_cases hopen : h.pool.shutDown = false
    · rw [Pool.close_of_open hs.ordered hopen]
      exact .close hopen
    · have hshut : h.pool.shutDown = true := by simpa using hopen
      rw [Pool.close_of_shutDown hshut]
      exact .stay hshut

/-- Every operation keeps a pool sound. -/
theorem Step.sound (hstep : Step h op h') (hs : h.pool.Sound) : h'.pool.Sound := by
  cases hstep with
  | accept _ hask =>
    exact hs.of_terms (Pool.terms_of_ask hs.ordered (Pool.generation?_active _) hask) rfl
      (Nat.le_refl _)
  | start hg hstart =>
    exact hs.of_terms (Pool.terms_of_start? hs.ordered hg hstart) rfl (Nat.le_refl _)
  | finish hg _ => exact hs.of_terms (Pool.terms_of_finish hs.ordered hg _) rfl (Nat.le_refl _)
  | skip _ => exact hs.skip
  | replace hw hopen hbuild => exact hs.resized hw hopen hbuild
  | close _ => exact hs.closed
  | refuse _ | expire _ | keep _ | stay _ => exact hs

section Balance

variable {α : Type} {total kept kept' out : List α} {entry : α}

theorem balance_gain (h : total.Perm (kept ++ out)) (hkept : kept'.Perm (kept ++ [entry])) :
    (total ++ [entry]).Perm (kept' ++ out) := by
  refine (h.append_right _).trans (.trans ?_ (hkept.symm.append_right out))
  rw [List.append_assoc, List.append_assoc]
  exact List.perm_append_comm.append_left kept

theorem balance_move (h : total.Perm (kept ++ out)) (hkept : kept.Perm (kept' ++ [entry])) :
    total.Perm (kept' ++ (out ++ [entry])) := by
  refine h.trans ((hkept.append_right out).trans ?_)
  rw [List.append_assoc]
  exact List.perm_append_comm.append_left kept'

end Balance

/-- What has been accepted is held or has ended. -/
theorem Step.accepted (hstep : Step h op h') (hs : h.pool.Sound)
    (haccepted : h.accepted.Perm (h.pool.held ++ h.ended)) :
    h'.accepted.Perm (h'.pool.held ++ h'.ended) := by
  cases hstep with
  | accept _ hask =>
    obtain ⟨hheld, -⟩ := Pool.held_of_ask hs.ordered (Pool.generation?_active _) hask
    exact balance_gain haccepted hheld
  | start hg hstart =>
    obtain ⟨hheld, -⟩ := Pool.held_of_start? hs.ordered hg hstart
    exact haccepted.trans (hheld.symm.append_right _)
  | finish hg hrunning =>
    obtain ⟨hheld, -⟩ := Pool.held_of_finish hs.ordered hg hrunning
    exact balance_move haccepted hheld
  | replace _ _ hbuild =>
    obtain ⟨-, -, rfl⟩ := Pool.build_eq_ok_iff.1 hbuild
    exact haccepted
  | refuse _ | expire _ | keep _ | skip _ | close _ | stay _ => exact haccepted

/-- What has been begun is in hand or has ended. -/
theorem Step.begun (hstep : Step h op h') (hs : h.pool.Sound)
    (hbegun : h.begun.Perm (h.pool.inHand ++ h.ended)) :
    h'.begun.Perm (h'.pool.inHand ++ h'.ended) := by
  cases hstep with
  | accept _ hask =>
    obtain ⟨-, hinHand⟩ := Pool.held_of_ask hs.ordered (Pool.generation?_active _) hask
    exact hbegun.trans (hinHand.symm.append_right _)
  | start hg hstart =>
    obtain ⟨-, hinHand⟩ := Pool.held_of_start? hs.ordered hg hstart
    exact balance_gain hbegun hinHand
  | finish hg hrunning =>
    obtain ⟨-, hinHand⟩ := Pool.held_of_finish hs.ordered hg hrunning
    exact balance_move hbegun hinHand
  | replace _ _ hbuild =>
    obtain ⟨-, -, rfl⟩ := Pool.build_eq_ok_iff.1 hbuild
    exact hbegun
  | refuse _ | expire _ | keep _ | skip _ | close _ | stay _ => exact hbegun

/-- An operation answers the submission that it is, if it is one. -/
theorem Step.answered (hstep : Step h op h') :
    h'.answered.Perm (h.answered ++ op.answered?.toList) := by
  cases hstep with
  | accept _ _ =>
    simp only [History.answered, List.map_append, List.append_assoc]
    exact List.perm_append_comm.append_left _
  | refuse _ | expire _ =>
    simp only [History.answered, List.map_append, List.append_assoc]
    exact .refl _
  | start _ _ | finish _ _ | keep _ | skip _ | replace _ _ _ | close _ | stay _ =>
    simp [History.answered, Operation.answered?]

/-- A pool is shut down once it is closed, and not otherwise. -/
theorem Step.shutDown (hstep : Step h op h') :
    h'.pool.shutDown = true ↔ h.pool.shutDown = true ∨ op = .close := by
  cases hstep with
  | accept _ _ | start _ _ | finish _ _ => simp [Pool.modify]
  | refuse _ | expire _ | keep _ | skip _ | replace _ _ _ | close _ => simp [Pool.skip]
  | stay hshut => simp [hshut]

/-- Every operation keeps the accounts, each of which is a lemma about what operations do. -/
theorem Accounted.step (ha : h.Accounted ops) (hstep : Step h op h') :
    h'.Accounted (ops ++ [op]) where
  sound := hstep.sound ha.sound
  accepted := hstep.accepted ha.sound ha.accepted
  begun := hstep.begun ha.sound ha.begun
  answered := by
    rw [List.filterMap_append]
    refine hstep.answered.trans (ha.answered.append ?_)
    cases hop : op.answered? <;> simp [hop]
  shutDown := by
    rw [hstep.shutDown, ha.shutDown, List.mem_append, List.mem_singleton, eq_comm (a := op)]

/-- A row of operations keeps the accounts, by induction on it. -/
theorem Accounted.run (ha : h.Accounted ops) {more : List (Operation ι)}
    (hrun : h.run? more = some h') : h'.Accounted (ops ++ more) := by
  refine Rows.induction (I := fun more h => h.Accounted (ops ++ more)) ?_ ?_ hrun
  · rw [List.append_nil]
    exact ha
  · intro more h op h' _ ha hstep
    rw [← List.append_assoc]
    exact ha.step (.of_step? ha.sound hstep)

/-! ### What is held can be worked off -/

/-- How much work is left: a beginning for each job that waits, an ending for each. -/
def toDo (h : History ι) : Nat := 2 * h.pool.held.length - h.pool.inHand.length

/-- A worker that acts leaves less to do: one beginning less, or one ending. -/
theorem Step.toDo_lt (hstep : Step h op h') (hs : h.pool.Sound) (hwork : op.isWork = true) :
    h'.toDo < h.toDo := by
  -- a job counts twice while it waits and once while it is in hand
  have hbound := h'.pool.inHand_sublist.length_le
  cases hstep with
  | start hg hstart =>
    obtain ⟨hheld, hinHand⟩ := Pool.held_of_start? hs.ordered hg hstart
    have hheld := hheld.length_eq
    have hinHand := hinHand.length_eq
    simp only [List.length_append, List.length_singleton] at hinHand
    unfold toDo
    dsimp only at hbound ⊢
    omega
  | finish hg hrunning =>
    obtain ⟨hheld, hinHand⟩ := Pool.held_of_finish hs.ordered hg hrunning
    have hheld := hheld.length_eq
    have hinHand := hinHand.length_eq
    simp only [List.length_append, List.length_singleton] at hheld hinHand
    unfold toDo
    dsimp only at hbound ⊢
    omega
  | accept _ _ | refuse _ | expire _ | keep _ | skip _ | replace _ _ _ | close _ | stay _ =>
    cases hwork

/-- A worker that acts admits nothing. -/
theorem Step.accepted_of_isWork (hstep : Step h op h') (hwork : op.isWork = true) :
    h'.accepted = h.accepted := by
  cases hstep with
  | accept _ _ => cases hwork
  | refuse _ | expire _ | start _ _ | finish _ _ | keep _ | skip _ | replace _ _ _ | close _
  | stay _ => rfl

/-- However the workers go on, they come to an end, and they admit nothing. -/
theorem run_work {work : List (Operation ι)} (hs : h.pool.Sound)
    (hwork : ∀ op ∈ work, Operation.isWork op = true) (hrun : h.run? work = some h') :
    work.length + h'.toDo ≤ h.toDo ∧ h'.accepted = h.accepted := by
  induction work generalizing h with
  | nil =>
    cases hrun
    simp
  | cons op work ih =>
    obtain ⟨between, hstep?, hrun⟩ := Option.bind_eq_some_iff.1 hrun
    have hstep := Step.of_step? hs hstep?
    have hop := hwork op List.mem_cons_self
    have hlt := hstep.toDo_lt hs hop
    obtain ⟨hle, hsame⟩ :=
      ih (hstep.sound hs) (fun op' hop' => hwork op' (List.mem_cons_of_mem _ hop')) hrun
    refine ⟨?_, hsame.trans (hstep.accepted_of_isWork hop)⟩
    rw [List.length_cons]
    omega

/-- While a job is held, a worker has something to do: it ends a job in hand, or, if its
generation has none in hand, it begins the next. -/
theorem exists_work (hs : h.pool.Sound) (hheld : h.pool.held ≠ []) :
    ∃ op h', op.isWork = true ∧ h.step? op = some h' := by
  obtain ⟨entry, hentry⟩ := List.exists_mem_of_ne_nil _ hheld
  obtain ⟨g, hg, hentry⟩ := List.mem_flatMap.1 hentry
  obtain ⟨job, hjob, -⟩ := List.mem_map.1 hentry
  have hfound := Pool.generation?_of_mem hs.ordered hg
  -- a generation with a job in hand can end it, and any other with a job has a free worker
  cases hrunning : g.running with
  | cons first rest =>
    have hfirst : first ∈ g.running := by simp [hrunning]
    exact ⟨.finish g.number first, _, rfl, step?_finish hfound hfirst⟩
  | nil =>
    cases hwaiting : g.waiting with
    | nil =>
      unfold Generation.jobs at hjob
      rw [hrunning, hwaiting] at hjob
      cases hjob
    | cons first rest =>
      have hworkers : g.running.length < g.workers.toNat := by
        rw [hrunning]
        refine Nat.pos_of_ne_zero fun hzero => hs.staffed g hg ?_
        exact UInt64.toNat_inj.1 hzero
      have hfirst : first ∈ g.waiting := by simp [hwaiting]
      have hstart := Generation.start?_eq_some_iff.2 ⟨hfirst, hworkers, rfl⟩
      exact ⟨.start g.number first, _, rfl, step?_start hfound hstart⟩

/-- The workers can go on until nothing is held. -/
theorem exists_drain (hs : h.pool.Sound) :
    ∃ work h', (∀ op ∈ work, Operation.isWork op = true) ∧ h.run? work = some h' ∧
      h'.pool.held = [] := by
  induction htoDo : h.toDo using Nat.strongRecOn generalizing h with
  | ind toDo ih =>
    by_cases hheld : h.pool.held = []
    · exact ⟨[], h, by simp, rfl, hheld⟩
    · -- each thing that a worker does leaves less to do
      obtain ⟨op, next, hwork, hstep?⟩ := exists_work hs hheld
      have hstep := Step.of_step? hs hstep?
      have hlt := hstep.toDo_lt hs hwork
      rw [htoDo] at hlt
      obtain ⟨work, last, hall, hrun, hempty⟩ := ih _ hlt (hstep.sound hs) rfl
      refine ⟨op :: work, last, ?_, Option.bind_eq_some_iff.2 ⟨next, hstep?, hrun⟩, hempty⟩
      intro op' hop'
      rcases List.mem_cons.1 hop' with rfl | hop'
      · exact hwork
      · exact hall op' hop'

/-! ### Who admits later -/

/-- What is admitted later is admitted by the generation that is active now or by one after
it, and after the closing nothing is. -/
theorem Step.later (hstep : Step h op h') (hs : h.pool.Sound) :
    h.pool.active.number ≤ h'.pool.active.number ∧
      ∃ new, h'.accepted = h.accepted ++ new ∧
        ∀ entry ∈ new, h.pool.active.number ≤ entry.1 ∧ h.pool.shutDown = false := by
  -- no operation but a change of size makes another generation active
  have hsame : ∀ {p : Pool ι}, p.terms = h.pool.terms →
      h.pool.active.number ≤ p.active.number := by
    intro p hterms
    exact Nat.le_of_eq (congrArg Prod.fst (Pool.active_of_terms hterms)).symm
  cases hstep with
  | @accept job _ hopen hask =>
    have hterms := Pool.terms_of_ask hs.ordered (Pool.generation?_active _) hask
    refine ⟨hsame hterms, [(h.pool.active.number, job)], rfl, fun entry hentry => ?_⟩
    rw [List.mem_singleton.1 hentry]
    exact ⟨Nat.le_refl _, hopen⟩
  | start hg hstart =>
    exact ⟨hsame (Pool.terms_of_start? hs.ordered hg hstart), [], by simp, by simp⟩
  | finish hg _ => exact ⟨hsame (Pool.terms_of_finish hs.ordered hg _), [], by simp, by simp⟩
  | refuse _ | expire _ | keep _ | skip _ | close _ | stay _ =>
    exact ⟨Nat.le_refl _, [], by simp, by simp⟩
  | replace _ _ hbuild =>
    refine ⟨?_, [], by simp, by simp⟩
    rw [Pool.number_of_build hbuild]
    exact Nat.le_of_lt hs.ordered.next

/-- What is admitted later goes to a generation at least as young as the one active before, and
nothing is admitted once the pool is shut down. -/
theorem run_later {more : List (Operation ι)} (hs : h.pool.Sound) (hrun : h.run? more = some h') :
    ∃ new, h'.accepted = h.accepted ++ new ∧
      ∀ entry ∈ new, h.pool.active.number ≤ entry.1 ∧ h.pool.shutDown = false := by
  induction more generalizing h with
  | nil =>
    cases hrun
    exact ⟨[], by simp, by simp⟩
  | cons op more ih =>
    obtain ⟨between, hstep?, hrun⟩ := Option.bind_eq_some_iff.1 hrun
    have hstep := Step.of_step? hs hstep?
    obtain ⟨hnumber, first, hfirst, hentries⟩ := hstep.later hs
    obtain ⟨rest, hrest, hlater⟩ := ih (hstep.sound hs) hrun
    refine ⟨first ++ rest, by rw [hrest, hfirst, List.append_assoc], fun entry hentry => ?_⟩
    rcases List.mem_append.1 hentry with hentry | hentry
    · exact hentries entry hentry
    · obtain ⟨hlarger, hopen⟩ := hlater entry hentry
      refine ⟨Nat.le_trans hnumber hlarger, ?_⟩
      -- what is open later was open before
      have hstays := mt (hstep.shutDown.2 ∘ .inl) (by simp [hopen])
      simpa using hstays

end History

end Pool

end SemanticHighlight
