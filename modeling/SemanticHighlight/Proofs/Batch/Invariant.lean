import SemanticHighlight.Proofs.Batch.Step

/-!
# What every row of steps of a batch keeps

Three invariants, each kept by one step and so by every row of steps:

* `Placed`: slots are made in the order of the pairs, none is made twice, and all are there
  once the caller has visited every pair;
* `Tracked`: a slot that waits for a task (`claimed`) is open, belongs to a pair with a
  text, and waits for one task only; `pending` counts these tasks while the caller waits;
* `Covered`: unless the deadline or a cancellation intervened, an open slot waits for a
  task, and once the caller has stopped receiving only tasks that broke off are left.

`Told` adds that a batch which has returned has told its caller what the slots hold.
-/

namespace SemanticHighlight

namespace Stage

/-- The slot whose task is about to be submitted. -/
def slot? : Stage → Option Nat
  | submitting slot => some slot
  | _ => none

/-- Whether the caller still counts the results it waits for. -/
def isCounting : Stage → Bool
  | visiting | submitting _ | failing _ | looking | receiving => true
  | draining | concluding | returned _ => false

/-- Whether every pair has been visited. -/
def hasVisited : Stage → Bool
  | looking | receiving | draining | concluding | returned (.completed ..) => true
  | visiting | submitting _ | failing _ | returned .vacant | returned (.refused _) => false

/-- Whether a submission has failed. -/
def isRefused : Stage → Bool
  | failing _ | returned (.refused _) => true
  | _ => false

/-- Whether no result is waited for any more. -/
def hasStopped : Stage → Bool
  | draining | concluding | returned (.completed ..) => true
  | _ => false

end Stage

namespace Batch

variable {b b' : Batch} {e : Event}

/-- The slots of the tasks that a worker has started and whose results have not arrived, be
they on their way or lost. -/
def started (b : Batch) : List Nat :=
  b.calling ++ (b.reporting.map (·.1) ++ (b.messages.map (·.1) ++ b.lost))

/-- The slots of the tasks that were admitted and whose results have not arrived. -/
def outstanding (b : Batch) : List Nat := b.queued ++ b.started

/-- The slots that wait for a task, be it outstanding or about to be submitted. -/
def claimed (b : Batch) : List Nat := b.stage.slot?.toList ++ b.outstanding

/-! ## What slots hold -/

/-- What a slot holds after another was made it held before, or it is the one just made. -/
theorem slot_of_concat {slots : List (Option FieldResult)} {made held : Option FieldResult}
    {slot : Nat} (h : (slots ++ [made])[slot]? = some held) :
    slots[slot]? = some held ∨ (slot = slots.length ∧ held = made) := by
  have hlt := (List.getElem?_eq_some_iff.1 h).1
  rw [List.length_append, List.length_singleton] at hlt
  rcases Nat.lt_or_ge slot slots.length with hold | hnew
  · rw [List.getElem?_append_left hold] at h
    exact .inl h
  · have heq : slot = slots.length := by omega
    rw [heq, List.getElem?_concat_length] at h
    exact .inr ⟨heq, (Option.some.inj h).symm⟩

/-! ## Slots are made in the order of the pairs -/

/-- There is at most one slot for each pair, and one for each when all are visited. -/
structure Placed (b : Batch) : Prop where
  le : b.slots.length ≤ b.pairs.length
  full : b.stage.hasVisited = true → b.slots.length = b.pairs.length

/-- At the beginning there are no slots, and no pair is visited. -/
theorem begin_placed (hits : List HitData) (configs : List FieldConfig) (cancelled : Bool) :
    (begin hits configs cancelled).Placed := by
  refine ⟨Nat.zero_le _, ?_⟩
  intro h
  unfold begin at h
  dsimp only at h
  split at h <;> simp [Stage.hasVisited] at h

/-- A slot is made only for a pair that is there. -/
theorem placed_of_visit {p : Pair} (hp : b.pairs[b.slots.length]? = some p)
    (slot : Option FieldResult) {stage : Stage} (hs : stage.hasVisited = false) :
    Placed { b with slots := b.slots ++ [slot], stage } := by
  have hlt : b.slots.length < b.pairs.length := (List.getElem?_eq_some_iff.1 hp).1
  refine ⟨?_, ?_⟩
  · show (b.slots ++ [slot]).length ≤ b.pairs.length
    rw [List.length_append, List.length_singleton]
    omega
  · intro h'
    exact absurd h' (by simp [hs])

/-- Filling a slot makes none. -/
theorem Placed.filled (h : b.Placed) (hs : b.stage.hasVisited = true) (slot : Nat)
    (result : FieldResult) {b' : Batch} (hp : b'.pairs = b.pairs)
    (hslots : b'.slots = b.slots.set slot (some result)) : b'.Placed := by
  have hlen : b'.slots.length = b.slots.length := by rw [hslots, List.length_set]
  refine ⟨?_, fun _ => ?_⟩
  · rw [hlen, hp]
    exact h.le
  · rw [hlen, hp]
    exact h.full hs

/-- Every step keeps a slot for each visited pair. Only a visit adds one, and only a message or a
refusal fills one. -/
theorem step_placed (h : b.Placed) (hstep : Step b e b') : b'.Placed := by
  cases hstep with
  | visitEnd hs hp =>
    refine ⟨h.le, fun _ => ?_⟩
    have hge : b.pairs.length ≤ b.slots.length := List.getElem?_eq_none_iff.1 hp
    exact Nat.le_antisymm h.le hge
  | visitSkip p hs hp | visitPass p hs hp => exact placed_of_visit hp _ (by rw [hs]; rfl)
  | visitOpen p hs hp => exact placed_of_visit hp _ rfl
  | accept | late | refuse | fail =>
    exact ⟨h.le, fun h' => absurd h' (by simp [Stage.hasVisited])⟩
  | lookEnd hs | lookOn hs | expire hs | receiveStray _ _ _ hs | idle hs | disconnect hs
  | settle hs | conclude _ _ hs => exact ⟨h.le, fun _ => h.full (by rw [hs]; rfl)⟩
  | receive slot result rest hs | drain slot result rest hs =>
    exact h.filled (by rw [hs]; rfl) slot result rfl rfl
  | startCancelled | startAbandoned | startCall | reply | lose | report | cancel =>
    exact ⟨h.le, h.full⟩

/-! ## A slot waits for one task at most -/

/-- Slots that wait for one task each: they are open, and their pairs have a text. -/
structure Awaiting (pairs : List Pair) (slots : List (Option FieldResult)) (l : List Nat) :
    Prop where
  nodup : l.Nodup
  isOpen : ∀ slot ∈ l, slots[slot]? = some none
  hasText : ∀ slot ∈ l, ∃ p, pairs[slot]? = some p ∧ p.context ≠ none

namespace Awaiting

variable {pairs : List Pair} {slots : List (Option FieldResult)} {l l' : List Nat}

theorem perm (h : Awaiting pairs slots l) (hp : l'.Perm l) : Awaiting pairs slots l' :=
  ⟨hp.nodup_iff.2 h.nodup, fun slot hs => h.isOpen slot (hp.mem_iff.1 hs),
    fun slot hs => h.hasText slot (hp.mem_iff.1 hs)⟩

theorem tail {slot : Nat} (h : Awaiting pairs slots (slot :: l)) : Awaiting pairs slots l :=
  ⟨(List.nodup_cons.1 h.nodup).2, fun s hs => h.isOpen s (List.mem_cons_of_mem _ hs),
    fun s hs => h.hasText s (List.mem_cons_of_mem _ hs)⟩

/-- A slot that waits is one of those made. -/
theorem lt {slot : Nat} (h : Awaiting pairs slots l) (hs : slot ∈ l) : slot < slots.length :=
  (List.getElem?_eq_some_iff.1 (h.isOpen slot hs)).1

/-- Making a slot does not concern those that wait. -/
theorem concat (h : Awaiting pairs slots l) (slot : Option FieldResult) :
    Awaiting pairs (slots ++ [slot]) l := by
  refine ⟨h.nodup, fun s hs => ?_, h.hasText⟩
  rw [List.getElem?_append_left (h.lt hs)]
  exact h.isOpen s hs

/-- A slot made for a pair with a text can wait. -/
theorem push {p : Pair} (h : Awaiting pairs slots l) (hp : pairs[slots.length]? = some p)
    (hc : p.context ≠ none) : Awaiting pairs (slots ++ [none]) (slots.length :: l) := by
  have hnew : slots.length ∉ l := fun hm => Nat.lt_irrefl _ (h.lt hm)
  refine ⟨List.nodup_cons.2 ⟨hnew, h.nodup⟩, fun s hs => ?_, fun s hs => ?_⟩
  · rcases List.mem_cons.1 hs with rfl | hs
    · rw [List.getElem?_concat_length]
    · exact (h.concat none).isOpen s hs
  · rcases List.mem_cons.1 hs with rfl | hs
    · exact ⟨p, hp, hc⟩
    · exact h.hasText s hs

/-- A slot that has its result waits no more; the others do. -/
theorem fill {slot : Nat} (h : Awaiting pairs slots (slot :: l)) (result : FieldResult) :
    Awaiting pairs (slots.set slot (some result)) l := by
  have hnot : slot ∉ l := (List.nodup_cons.1 h.nodup).1
  refine ⟨h.tail.nodup, fun s hs => ?_, h.tail.hasText⟩
  have hne : slot ≠ s := fun he => hnot (he ▸ hs)
  rw [List.getElem?_set_ne hne]
  exact h.tail.isOpen s hs

end Awaiting

/-- The tasks that the caller waits for are known by their slots, and counted. -/
structure Tracked (b : Batch) : Prop where
  awaiting : Awaiting b.pairs b.slots b.claimed
  pending : b.stage.isCounting = true → b.pending = b.outstanding.length

/-- Moving an element to a place further back is a permutation. -/
theorem perm_move {α : Type} {l l' : List α} {x : α} (m n : List α) (hl : l.Perm (x :: l')) :
    (l' ++ (m ++ x :: n)).Perm (l ++ (m ++ n)) := by
  have hback : (l' ++ (m ++ x :: n)).Perm (x :: (l' ++ (m ++ n))) := by
    rw [← List.append_assoc, ← List.append_assoc]
    exact List.perm_middle
  exact hback.trans (hl.append_right (m ++ n)).symm

/-- What tasks do among themselves changes nothing about which are outstanding. -/
theorem outstanding_perm_of_start {slot : Nat} (hq : slot ∈ b.queued) (result : FieldResult) :
    (outstanding { b with
      queued := b.queued.erase slot
      reporting := b.reporting ++ [(slot, result)] }).Perm b.outstanding := by
  have h := perm_move (b.calling ++ b.reporting.map (·.1)) (b.messages.map (·.1) ++ b.lost)
    (List.perm_cons_erase hq)
  simpa [outstanding, started] using h

/-- A worker that starts a task leaves it outstanding. -/
theorem outstanding_perm_of_startCall {slot : Nat} (hq : slot ∈ b.queued) :
    (outstanding { b with
      queued := b.queued.erase slot
      calling := b.calling ++ [slot], calls := b.calls ++ [slot] }).Perm b.outstanding := by
  have h := perm_move b.calling (b.reporting.map (·.1) ++ (b.messages.map (·.1) ++ b.lost))
    (List.perm_cons_erase hq)
  simpa [outstanding, started] using h

/-- A call that ends leaves its task outstanding, until the message is taken. -/
theorem outstanding_perm_of_reply {slot : Nat} (hq : slot ∈ b.calling) (result : FieldResult) :
    (outstanding { b with
      calling := b.calling.erase slot
      reporting := b.reporting ++ [(slot, result)] }).Perm b.outstanding := by
  have h := perm_move (b.reporting.map (·.1)) (b.messages.map (·.1) ++ b.lost)
    (List.perm_cons_erase hq)
  have h' := h.append_left b.queued
  simpa [outstanding, started] using h'

/-- A task that breaks off is outstanding for ever. -/
theorem outstanding_perm_of_lose {slot : Nat} (hq : slot ∈ b.calling) :
    (outstanding { b with
      calling := b.calling.erase slot, lost := b.lost ++ [slot] }).Perm b.outstanding := by
  have h := perm_move (b.reporting.map (·.1) ++ (b.messages.map (·.1) ++ b.lost)) []
    (List.perm_cons_erase hq)
  have h' := h.append_left b.queued
  simpa [outstanding, started] using h'

/-- A message that is sent leaves its task outstanding. -/
theorem outstanding_perm_of_report {slot : Nat} {result : FieldResult}
    (hq : (slot, result) ∈ b.reporting) :
    (outstanding { b with
      reporting := b.reporting.erase (slot, result)
      messages := b.messages ++ [(slot, result)] }).Perm b.outstanding := by
  have hmap : (b.reporting.map (·.1)).Perm
      (slot :: (b.reporting.erase (slot, result)).map (·.1)) :=
    (List.perm_cons_erase hq).map _
  have h := perm_move (b.messages.map (·.1)) b.lost hmap
  have h' := h.append_left (b.queued ++ b.calling)
  simpa [outstanding, started] using h'

/-- A result that arrives was outstanding. -/
theorem outstanding_perm_of_messages {slot : Nat} {result : FieldResult}
    {rest : List (Nat × FieldResult)} (hm : b.messages = (slot, result) :: rest) :
    b.outstanding.Perm (slot :: outstanding { b with messages := rest }) := by
  have h : (b.queued ++ (b.calling ++ (b.reporting.map (·.1) ++
        slot :: (rest.map (·.1) ++ b.lost)))).Perm
      (slot :: (b.queued ++ (b.calling ++ (b.reporting.map (·.1) ++
        (rest.map (·.1) ++ b.lost))))) := by
    rw [← List.append_assoc, ← List.append_assoc, ← List.append_assoc, ← List.append_assoc]
    exact List.perm_middle
  simpa [outstanding, started, hm] using h

/-- Once all tasks are over and all results received, only what was lost is outstanding. -/
theorem outstanding_of_isSilent (hq : b.isSilent = true) (hm : b.messages = []) :
    b.outstanding = b.lost := by
  unfold isSilent at hq
  simp only [Bool.and_eq_true, List.isEmpty_iff] at hq
  obtain ⟨⟨hqueued, hcalling⟩, hreporting⟩ := hq
  simp [outstanding, started, hqueued, hcalling, hreporting, hm]

/-- A task that is admitted becomes outstanding. -/
theorem outstanding_perm_of_accept (b : Batch) (slot pending : Nat) (stage : Stage) :
    (outstanding { b with stage, pending, queued := b.queued ++ [slot] }).Perm
      (slot :: b.outstanding) := by
  show (b.queued ++ [slot] ++ b.started).Perm (slot :: (b.queued ++ b.started))
  rw [List.append_assoc]
  exact List.perm_middle

/-- At the beginning nothing is waited for. -/
theorem begin_tracked (hits : List HitData) (configs : List FieldConfig) (cancelled : Bool) :
    (begin hits configs cancelled).Tracked := by
  have hnone : (begin hits configs cancelled).claimed = [] := by
    unfold begin claimed
    dsimp only
    split <;> rfl
  refine ⟨?_, fun _ => rfl⟩
  rw [hnone]
  exact ⟨List.nodup_nil, fun _ hs => absurd hs List.not_mem_nil,
    fun _ hs => absurd hs List.not_mem_nil⟩

/-- Tasks that move among themselves stay tracked. -/
theorem Tracked.moved (h : b.Tracked) (hpairs : b'.pairs = b.pairs)
    (hslots : b'.slots = b.slots) (hstage : b'.stage = b.stage)
    (hpending : b'.pending = b.pending) (hp : b'.outstanding.Perm b.outstanding) :
    b'.Tracked := by
  refine ⟨?_, ?_⟩
  · rw [hpairs, hslots]
    refine h.awaiting.perm ?_
    unfold claimed
    rw [hstage]
    exact hp.append_left _
  · rw [hstage, hpending, hp.length_eq]
    exact h.pending

/-- In a stage that submits nothing, the claimed slots are the outstanding ones. -/
theorem claimed_eq (h : b.stage.slot? = none) : b.claimed = b.outstanding := by
  unfold claimed
  rw [h]
  rfl

/-- The tasks that are outstanding wait for open slots, one each. -/
theorem Tracked.outstanding (h : b.Tracked) : Awaiting b.pairs b.slots b.outstanding := by
  have hc := h.awaiting
  unfold claimed at hc
  cases hs : b.stage.slot? with
  | none => rwa [hs] at hc
  | some slot =>
    rw [hs] at hc
    exact hc.tail

/-- A task that is outstanding has a text to highlight. -/
theorem Tracked.hasText (h : b.Tracked) {slot : Nat} {p : Pair} (hp : b.pairs[slot]? = some p)
    (hq : slot ∈ b.outstanding) : p.context ≠ none := by
  obtain ⟨p', hp', hc⟩ := h.outstanding.hasText slot hq
  rw [hp] at hp'
  cases hp'
  exact hc

/-- A message names an open slot, and its task was outstanding. -/
theorem Tracked.message (h : b.Tracked) {slot : Nat} {result : FieldResult}
    {rest : List (Nat × FieldResult)} (hm : b.messages = (slot, result) :: rest) :
    slot ∈ b.outstanding ∧ b.slots[slot]? = some none := by
  have hmem : slot ∈ b.outstanding :=
    (outstanding_perm_of_messages hm).mem_iff.2 List.mem_cons_self
  exact ⟨hmem, h.outstanding.isOpen slot hmem⟩

/-- Every message names a slot that has been made. -/
theorem Tracked.lt_of_messages (h : b.Tracked) {slot : Nat} {result : FieldResult}
    {rest : List (Nat × FieldResult)} (hm : b.messages = (slot, result) :: rest) :
    slot < b.slots.length :=
  h.outstanding.lt (h.message hm).1

/-- Going on to a stage that submits nothing leaves everything tracked. -/
theorem Tracked.goOn (h : b.Tracked) {stage : Stage} (hs : stage.slot? = none)
    (hcount : stage.isCounting = true → b.stage.isCounting = true) (expired abandoned : Bool) :
    Tracked { b with stage, expired, abandoned } := by
  refine ⟨?_, fun hc => h.pending (hcount hc)⟩
  rw [claimed_eq (b := { b with stage, expired, abandoned }) hs]
  exact h.outstanding

/-- Every step keeps the tasks that are waited for known and counted. -/
theorem step_tracked (h : b.Tracked) (hstep : Step b e b') : b'.Tracked := by
  cases hstep with
  | visitEnd hs => exact h.goOn rfl (fun _ => by rw [hs]; rfl) b.expired b.abandoned
  | visitSkip p hs | visitPass p hs => exact ⟨h.awaiting.concat _, h.pending⟩
  | visitOpen p hs hp hc =>
    -- the new slot is claimed by the caller itself, and counted once its task is admitted
    exact ⟨h.outstanding.push hp hc, fun _ => h.pending (by rw [hs]; rfl)⟩
  | accept slot hs =>
    have hperm := outstanding_perm_of_accept b slot (b.pending + 1) .visiting
    have hc := h.awaiting
    unfold claimed at hc
    rw [hs] at hc
    refine ⟨hc.perm hperm, fun _ => ?_⟩
    rw [hperm.length_eq, List.length_cons, ← h.pending (by rw [hs]; rfl)]
  | late slot n hs => exact h.goOn rfl (fun _ => by rw [hs]; rfl) true b.abandoned
  | refuse slot reason hs => exact h.goOn rfl (fun _ => by rw [hs]; rfl) b.expired b.abandoned
  | fail reason hs =>
    exact h.goOn rfl (fun hc => absurd hc (by simp [Stage.isCounting])) b.expired true
  | lookEnd hs | disconnect hs | settle hs =>
    exact h.goOn rfl (fun hc => absurd hc (by simp [Stage.isCounting])) b.expired b.abandoned
  | lookOn hs | idle hs => exact h.goOn rfl (fun _ => by rw [hs]; rfl) b.expired b.abandoned
  | expire hs =>
    exact h.goOn rfl (fun hc => absurd hc (by simp [Stage.isCounting])) true b.abandoned
  | conclude waitedMs elapsedNs hs =>
    exact h.goOn rfl (fun hc => absurd hc (by simp [Stage.isCounting])) b.expired _
  | receive slot result rest hs hm hl =>
    have hperm := outstanding_perm_of_messages hm
    refine ⟨(h.outstanding.perm hperm.symm).fill result, fun _ => ?_⟩
    have hlen := hperm.length_eq
    have hpending := h.pending (by rw [hs]; rfl)
    rw [List.length_cons] at hlen
    show b.pending - 1 = _
    rw [hpending, hlen]
    rfl
  | receiveStray slot result rest hs hm hl =>
    exact absurd (h.lt_of_messages hm) hl
  | drain slot result rest hs hm =>
    have hperm := outstanding_perm_of_messages hm
    refine ⟨?_, fun hc => absurd hc (by simp [hs, Stage.isCounting])⟩
    rw [claimed_eq (by rw [hs]; rfl)]
    exact (h.outstanding.perm hperm.symm).fill result
  | startCancelled slot durationMs p hp hq | startAbandoned slot durationMs p hp hq =>
    exact h.moved rfl rfl rfl rfl (outstanding_perm_of_start hq _)
  | startCall slot durationMs p hp hq =>
    exact h.moved rfl rfl rfl rfl (outstanding_perm_of_startCall hq)
  | reply slot p reply durationMs hp hq =>
    exact h.moved rfl rfl rfl rfl (outstanding_perm_of_reply hq _)
  | lose slot hq => exact h.moved rfl rfl rfl rfl (outstanding_perm_of_lose hq)
  | report slot result hf =>
    exact h.moved rfl rfl rfl rfl (outstanding_perm_of_report (List.mem_of_find?_eq_some hf))
  | cancel => exact ⟨h.awaiting, h.pending⟩

/-! ## An open slot waits for a task -/

/-- Without expiry and cancellation, no pair is left behind: as long as no submission has
failed an open slot waits for its task, and when the caller stops receiving the only tasks
left are those that broke off. -/
structure Covered (b : Batch) : Prop where
  claimed : b.expired = false → b.cancelled = false → b.stage.isRefused = false →
    ∀ slot, b.slots[slot]? = some none → slot ∈ b.claimed
  stopped : b.expired = false → b.cancelled = false → b.stage.hasStopped = true →
    ∀ slot ∈ b.outstanding, slot ∈ b.lost

theorem begin_covered (hits : List HitData) (configs : List FieldConfig) (cancelled : Bool) :
    (begin hits configs cancelled).Covered := by
  refine ⟨fun _ _ _ slot hs => absurd hs (by simp [begin]), fun _ _ _ slot hs => ?_⟩
  exact absurd hs List.not_mem_nil

/-- A slot that is open after a result has filled its own was open before, and its task is
not the one that is over. -/
theorem mem_outstanding_of_take {slot s : Nat} {result : FieldResult}
    {rest : List (Nat × FieldResult)} (hm : b.messages = (slot, result) :: rest)
    (ho : (b.slots.set slot (some result))[s]? = some none)
    (h : b.slots[s]? = some none → s ∈ b.outstanding) :
    s ∈ outstanding { b with messages := rest } := by
  rcases Rows.getElem?_of_set ho with ⟨hne, ho⟩ | ⟨-, hfilled⟩
  · rcases List.mem_cons.1 ((outstanding_perm_of_messages hm).mem_iff.1 (h ho)) with he | hs
    · exact absurd he.symm hne
    · exact hs
  · exact absurd hfilled (by simp)

/-- In a stage that submits nothing, an open slot waits for an outstanding task. -/
theorem Covered.outstanding (h : b.Covered) (hs : b.stage.slot? = none)
    (hr : b.stage.isRefused = false) (he : b.expired = false) (hc : b.cancelled = false)
    {slot : Nat} (ho : b.slots[slot]? = some none) : slot ∈ b.outstanding := by
  have hmem := h.claimed he hc hr slot ho
  rwa [claimed_eq hs] at hmem

/-- As long as results are received, only the open slots need a look. -/
theorem covered_of_receiving (hs : b.stage.hasStopped = false)
    (h : b.expired = false → b.cancelled = false → b.stage.isRefused = false →
      ∀ slot, b.slots[slot]? = some none → slot ∈ b.claimed) : b.Covered := by
  refine ⟨h, fun _ _ hstop => ?_⟩
  rw [hs] at hstop
  exact absurd hstop (by simp)

/-- Going on to a stage that submits nothing leaves the open slots as they are. -/
theorem Covered.goOn (h : b.Covered) {stage : Stage} (hs : b.stage.slot? = none)
    (hr : b.stage.isRefused = false) (hs' : stage.slot? = none)
    (hstop : b.expired = false → b.cancelled = false → stage.hasStopped = true →
      ∀ slot ∈ b.outstanding, slot ∈ b.lost) (abandoned : Bool) :
    Covered { b with stage, abandoned } := by
  refine ⟨fun he hc _ slot ho => ?_, hstop⟩
  rw [claimed_eq (b := { b with stage, abandoned }) hs']
  exact h.outstanding hs hr he hc ho

/-- Tasks that move among themselves leave nothing uncovered. -/
theorem Covered.moved (h : b.Covered) (hslots : b'.slots = b.slots) (hstage : b'.stage = b.stage)
    (hexpired : b'.expired = b.expired) (hcancelled : b'.cancelled = b.cancelled)
    (hlost : ∀ slot ∈ b.lost, slot ∈ b'.lost) (hp : b'.outstanding.Perm b.outstanding) :
    b'.Covered := by
  refine ⟨?_, ?_⟩
  · rw [hslots, hstage, hexpired, hcancelled]
    intro he hc hr slot hs
    have hmem := h.claimed he hc hr slot hs
    unfold Batch.claimed at hmem ⊢
    rw [hstage]
    exact (hp.append_left _).mem_iff.2 hmem
  · rw [hstage, hexpired, hcancelled]
    intro he hc hs slot hout
    exact hlost slot (h.stopped he hc hs slot (hp.mem_iff.1 hout))

/-- Every step leaves the open slots covered. -/
theorem step_covered (ht : b.Tracked) (h : b.Covered) (hstep : Step b e b') : b'.Covered := by
  cases hstep with
  | visitEnd hs | lookOn hs | idle hs =>
    exact h.goOn (by rw [hs]; rfl) (by rw [hs]; rfl) rfl
      (fun _ _ hstop => absurd hstop (by simp [Stage.hasStopped])) b.abandoned
  | visitSkip p hs =>
    refine covered_of_receiving (by rw [hs]; rfl) fun he hc hr slot ho => ?_
    rcases slot_of_concat ho with ho | ⟨-, hmade⟩
    · exact h.claimed he hc hr slot ho
    · exact absurd hmade (by simp)
  | visitPass p hs hp hctx hstop =>
    -- a pair is passed over only after the deadline or a cancellation
    refine ⟨fun he hc => ?_, fun he hc => ?_⟩
    all_goals
      simp only at he hc
      rw [he, hc] at hstop
      exact absurd hstop (by simp)
  | visitOpen p hs =>
    refine covered_of_receiving rfl fun he hc _ slot ho => ?_
    show slot ∈ b.slots.length :: b.outstanding
    rcases slot_of_concat ho with ho | ⟨heq, -⟩
    · exact List.mem_cons_of_mem _ (h.outstanding (by rw [hs]; rfl) (by rw [hs]; rfl) he hc ho)
    · rw [heq]
      exact List.mem_cons_self ..
  | accept slot hs =>
    -- the slot that was about to be submitted is outstanding from here on
    refine covered_of_receiving rfl fun he hc _ s ho => ?_
    have hmem := h.claimed he hc (by rw [hs]; rfl) s ho
    unfold Batch.claimed at hmem
    rw [hs] at hmem
    exact (outstanding_perm_of_accept b slot (b.pending + 1) .visiting).mem_iff.2 hmem
  | late | expire => exact ⟨fun he => absurd he (by simp), fun he => absurd he (by simp)⟩
  | refuse | fail =>
    exact covered_of_receiving rfl fun _ _ hr => absurd hr (by simp [Stage.isRefused])
  | lookEnd hs hw =>
    refine h.goOn (by rw [hs]; rfl) (by rw [hs]; rfl) rfl (fun _ hc _ => ?_) b.abandoned
    -- the request is not cancelled, so the caller stops because nothing is pending
    have hpending : b.pending = 0 := by
      rcases hw with hw | hw
      · exact hw
      · exact absurd hc (by simp [hw])
    have hlen := ht.pending (by rw [hs]; rfl)
    rw [hpending] at hlen
    rw [List.eq_nil_of_length_eq_zero hlen.symm]
    exact fun _ hout => absurd hout List.not_mem_nil
  | receive slot result rest hs hm hl =>
    refine covered_of_receiving rfl fun he hc _ s ho => ?_
    exact mem_outstanding_of_take hm ho
      (h.outstanding (by rw [hs]; rfl) (by rw [hs]; rfl) he hc)
  | receiveStray slot result rest hs hm hl =>
    exact absurd (ht.lt_of_messages hm) hl
  | disconnect hs hm hq =>
    refine h.goOn (by rw [hs]; rfl) (by rw [hs]; rfl) rfl (fun _ _ _ => ?_) b.abandoned
    rw [outstanding_of_isSilent hq hm]
    exact fun _ => id
  | drain slot result rest hs hm =>
    refine ⟨fun he hc hr s ho => ?_, fun he hc hstop s hout => ?_⟩
    · rw [claimed_eq (by rw [hs]; rfl)]
      exact mem_outstanding_of_take hm ho (h.outstanding (by rw [hs]; rfl) hr he hc)
    · refine h.stopped he hc hstop s ?_
      exact (outstanding_perm_of_messages hm).mem_iff.2 (List.mem_cons_of_mem _ hout)
  | settle hs | conclude _ _ hs =>
    exact h.goOn (by rw [hs]; rfl) (by rw [hs]; rfl) rfl
      (fun he hc _ => h.stopped he hc (by rw [hs]; rfl)) _
  | startCancelled slot durationMs p hp hq | startAbandoned slot durationMs p hp hq =>
    exact h.moved rfl rfl rfl rfl (fun _ => id) (outstanding_perm_of_start hq _)
  | startCall slot durationMs p hp hq =>
    exact h.moved rfl rfl rfl rfl (fun _ => id) (outstanding_perm_of_startCall hq)
  | reply slot p reply durationMs hp hq =>
    exact h.moved rfl rfl rfl rfl (fun _ => id) (outstanding_perm_of_reply hq _)
  | lose slot hq =>
    exact h.moved rfl rfl rfl rfl (fun _ => List.mem_append_left _) (outstanding_perm_of_lose hq)
  | report slot result hf =>
    exact h.moved rfl rfl rfl rfl (fun _ => id)
      (outstanding_perm_of_report (List.mem_of_find?_eq_some hf))
  | cancel => exact ⟨fun _ hc => absurd hc (by simp), fun _ hc => absurd hc (by simp)⟩

end Batch

end SemanticHighlight
