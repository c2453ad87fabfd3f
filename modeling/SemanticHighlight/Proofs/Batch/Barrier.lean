import SemanticHighlight.Proofs.Batch.Interrupted

/-!
# The books of the wait

While the caller of a batch waits it keeps one number, of the results that are to come, and a
message that arrives is trusted to name a slot. That both are right is not seen at any one step:
the number goes up when a pool admits a task and down when a message is received, and between the
two a task may be queued, call the backend, panic there, or find that its call is not wanted.

`Fine.admitted` and `Fine.taken` are read off the steps: the slots of the tasks that a pool has
admitted, and those whose messages the caller has taken. `Fine.Booked` is the balance of the two:
what is admitted and not taken is outstanding, and what is taken is filled. Main statement
(`Fine.books_of_run`).
-/

namespace SemanticHighlight

/-- Whether the caller waits for results, every pair having been visited. -/
def Stage.isWaiting : Stage → Bool
  | looking | receiving => true
  | visiting | submitting _ | failing _ | draining | concluding | returned _ => false

theorem Stage.isCounting_of_isWaiting {stage : Stage} (h : stage.isWaiting = true) :
    stage.isCounting = true := by
  cases stage <;> first | rfl | cases h

namespace Batch

section Coarse

variable {b b' : Batch} {e : Event} {slot : Nat}

/-- The slot of the task that is admitted in a step. -/
def admitted? (b : Batch) : Event → Option Nat
  | .submit (.ok ()) => b.stage.slot?
  | _ => none

/-- The slot whose message the caller takes in a step. -/
def taken? (b : Batch) : Event → Option Nat
  | .receive | .drain => b.messages.head?.map (·.1)
  | _ => none

/-- The caller takes a message by receiving or draining the first one. -/
theorem taken?_eq_some_iff : b.taken? e = some slot ↔
    (e = .receive ∨ e = .drain) ∧ ∃ result rest, b.messages = (slot, result) :: rest := by
  constructor
  · intro h
    have hhead : (e = .receive ∨ e = .drain) ∧ b.messages.head?.map (·.1) = some slot := by
      cases e with
      | receive => exact ⟨.inl rfl, h⟩
      | drain => exact ⟨.inr rfl, h⟩
      | visit | submit _ | fail | look | expire | idle | disconnect | settle | conclude _ _
      | start _ _ | reply _ _ _ | lose _ | report _ | cancel => cases h
    obtain ⟨he, h⟩ := hhead
    obtain ⟨⟨_, result⟩, hfirst, rfl⟩ := Option.map_eq_some_iff.1 h
    obtain ⟨rest, hm⟩ := List.head?_eq_some_iff.1 hfirst
    exact ⟨he, result, rest, hm⟩
  · rintro ⟨rfl | rfl, result, rest, hm⟩ <;> simp [taken?, hm]

/-- Each step accounts for the tasks that become outstanding and for those that are over. -/
theorem Step.outstanding_perm (ht : b.Tracked) (h : Step b e b') :
    (b'.outstanding ++ (b.taken? e).toList).Perm (b.outstanding ++ (b.admitted? e).toList) := by
  cases h with
  | accept slot hs =>
    have hnew := outstanding_perm_of_accept b slot (b.pending + 1) .visiting
    have hslot : b.admitted? (.submit (.ok ())) = some slot := by
      unfold admitted?
      rw [hs]
      rfl
    rw [hslot]
    show (_ ++ []).Perm (b.outstanding ++ [slot])
    rw [List.append_nil]
    exact hnew.trans (List.perm_append_singleton slot b.outstanding).symm
  | receive slot result rest hs hm | drain slot result rest hs hm =>
    have hover := outstanding_perm_of_messages hm
    rw [taken?_eq_some_iff.2 ⟨by simp, result, rest, hm⟩]
    show (outstanding { b with messages := rest } ++ [slot]).Perm (b.outstanding ++ [])
    rw [List.append_nil]
    exact (List.perm_append_singleton slot _).trans hover.symm
  | receiveStray slot result rest hs hm hl => exact absurd (ht.lt_of_messages hm) hl
  -- a task that goes on, breaks off or reports stays outstanding
  | startCancelled slot durationMs p hp hq | startAbandoned slot durationMs p hp hq =>
    exact (outstanding_perm_of_start hq _).append_right []
  | startCall slot durationMs p hp hq => exact (outstanding_perm_of_startCall hq).append_right []
  | reply slot p reply durationMs hp hq =>
    exact (outstanding_perm_of_reply hq _).append_right []
  | lose slot hq => exact (outstanding_perm_of_lose hq).append_right []
  | report slot result hf =>
    exact (outstanding_perm_of_report (List.mem_of_find?_eq_some hf)).append_right []
  | visitEnd | visitSkip | visitPass | visitOpen | late | refuse | fail | lookEnd | lookOn
  | expire | idle | disconnect | settle | conclude | cancel => exact .refl (b.outstanding ++ [])

/-- A slot that is filled stays so. -/
theorem Step.filled (h : Step b e b') {r : FieldResult} (hslot : b.slots[slot]? = some (some r)) :
    ∃ r, b'.slots[slot]? = some (some r) := by
  have hlt := (List.getElem?_eq_some_iff.1 hslot).1
  cases h with
  | visitSkip | visitPass | visitOpen => exact ⟨r, (List.getElem?_append_left hlt).trans hslot⟩
  | receive s result | drain s result =>
    by_cases hs : s = slot
    · subst hs
      exact ⟨result, List.getElem?_set_self hlt⟩
    · exact ⟨r, (List.getElem?_set_ne hs).trans hslot⟩
  | visitEnd | accept | late | refuse | fail | lookEnd | lookOn | expire | receiveStray | idle
  | disconnect | settle | conclude | startCancelled | startAbandoned | startCall | reply | lose
  | report | cancel => exact ⟨r, hslot⟩

/-- A slot whose message is taken is filled. -/
theorem Step.filled_of_taken (ht : b.Tracked) (h : Step b e b') (htaken : b.taken? e = some slot) :
    ∃ r, b'.slots[slot]? = some (some r) := by
  obtain ⟨he, result, rest, hm⟩ := taken?_eq_some_iff.1 htaken
  have hlt := ht.lt_of_messages hm
  cases h with
  | receive s r rest' hs hm' | drain s r rest' hs hm' =>
    cases hm.symm.trans hm'
    exact ⟨result, List.getElem?_set_self hlt⟩
  | receiveStray s r rest' hs hm' hl => exact absurd (ht.lt_of_messages hm') hl
  | _ => simp at he

/-- The caller goes to receive a result only if one is to come. -/
theorem Step.pending_of_receiving (h : Step b e b')
    (hbefore : b.stage = .receiving → b.pending ≠ 0) :
    b'.stage = .receiving → b'.pending ≠ 0 := by
  cases h with
  | lookOn hs hn => exact fun _ => hn
  | startCancelled | startAbandoned | startCall | reply | lose | report | cancel => exact hbefore
  | visitSkip _ hs | visitPass _ hs | drain _ _ _ hs =>
    intro hreceiving
    cases hs.symm.trans hreceiving
  | visitEnd | visitOpen | accept | late | refuse | fail | lookEnd | expire | receive
  | receiveStray | idle | disconnect | settle | conclude => exact nofun

end Coarse

namespace Fine

variable {first b b' : Fine} {e : Event} {events : List Event} {slot : Nat}

/-- The slot of the task that is admitted in a step. -/
def admitted? (b : Fine) : Event → Option Nat
  | .other event => b.toBatch.admitted? event
  | .look _ _ | .lookAgain _ _ => none

/-- The slot whose message the caller takes in a step. -/
def taken? (b : Fine) : Event → Option Nat
  | .other event => b.toBatch.taken? event
  | .look _ _ | .lookAgain _ _ => none

/-- The slots of the tasks that a pool has admitted, the first one first. -/
def admitted (first : Fine) (events : List Event) : List Nat :=
  Rows.notes step? admitted? first events

/-- The slots whose messages the caller has taken, the first one first. -/
def taken (first : Fine) (events : List Event) : List Nat :=
  Rows.notes step? taken? first events

theorem admitted_concat (hrun : first.run? events = some b) (e : Event) :
    admitted first (events ++ [e]) = admitted first events ++ (b.admitted? e).toList :=
  Rows.notes_concat hrun e

theorem taken_concat (hrun : first.run? events = some b) (e : Event) :
    taken first (events ++ [e]) = taken first events ++ (b.taken? e).toList :=
  Rows.notes_concat hrun e

/-- A look at the flags is of no concern to the caller. -/
theorem Step.coarse {pairs : List Pair} (hs : Sound pairs b) (h : Step b e b') :
    (∃ event, e = .other event ∧ Batch.Step b.toBatch event b'.toBatch) ∨
      b.admitted? e = none ∧ b.taken? e = none ∧ b'.slots = b.slots ∧ b'.stage = b.stage ∧
        b'.pending = b.pending ∧ b'.outstanding.Perm b.outstanding := by
  cases h with
  | other event next he hnext => exact .inl ⟨event, rfl, hnext⟩
  | lookCancelled slot durationMs p hq =>
    exact .inr ⟨rfl, rfl, rfl, rfl, rfl, outstanding_perm_of_start hq (p.cancelled durationMs)⟩
  | lookOn => exact .inr ⟨rfl, rfl, rfl, rfl, rfl, .refl _⟩
  | lookAbandoned slot durationMs p hb =>
    have hq := hs.queued slot hb
    exact .inr ⟨rfl, rfl, rfl, rfl, rfl, outstanding_perm_of_start hq (p.abandoned durationMs)⟩
  | call slot durationMs hb =>
    have hq := hs.queued slot hb
    exact .inr ⟨rfl, rfl, rfl, rfl, rfl, outstanding_perm_of_startCall hq⟩

/-- The balance of what was admitted and what was taken. -/
structure Booked (first : Fine) (events : List Event) (b : Fine) : Prop where
  balance : (admitted first events).Perm (taken first events ++ b.outstanding)
  once : (taken first events).Nodup
  filled : ∀ slot ∈ taken first events, ∃ r, b.slots[slot]? = some (some r)
  receiving : b.stage = .receiving → b.pending ≠ 0

/-- Nothing is booked at the start. -/
theorem begin_booked (hits : List HitData) (configs : List FieldConfig) (cancelled : Bool) :
    Booked (begin hits configs cancelled) [] (begin hits configs cancelled) where
  balance := .nil
  once := .nil
  filled := nofun
  receiving := by
    unfold begin Batch.begin
    dsimp only
    split <;> exact nofun

/-- The balance is kept by a step that accounts for its tasks. -/
theorem Booked.balance_concat (h : Booked first events b)
    (hrun : first.run? events = some b)
    (hperm : (b'.outstanding ++ (b.taken? e).toList).Perm
      (b.outstanding ++ (b.admitted? e).toList)) :
    (admitted first (events ++ [e])).Perm (taken first (events ++ [e]) ++ b'.outstanding) := by
  rw [admitted_concat hrun, taken_concat hrun]
  -- what the step adds is weighed against the tasks that were outstanding
  refine (h.balance.append_right _).trans ?_
  rw [List.append_assoc, List.append_assoc]
  exact (hperm.symm.trans List.perm_append_comm).append_left _

/-- A step of the coarser grain keeps the balance. -/
theorem Booked.other {event : Batch.Event} (h : Booked first events b) (ht : b.Tracked)
    (hrun : first.run? events = some b) (hstep : Batch.Step b.toBatch event b'.toBatch) :
    Booked first (events ++ [.other event]) b' where
  balance := h.balance_concat hrun (hstep.outstanding_perm ht)
  once := by
    rw [taken_concat hrun]
    cases htaken : b.taken? (.other event) with
    | none => simpa using h.once
    | some slot =>
      obtain ⟨-, result, rest, hm⟩ := taken?_eq_some_iff.1 htaken
      -- the slot is open, and those taken before are filled
      have hnew : slot ∉ taken first events := by
        intro hbefore
        obtain ⟨r, hr⟩ := h.filled slot hbefore
        cases (ht.message hm).2.symm.trans hr
      refine List.nodup_append.2 ⟨h.once, by simp, ?_⟩
      rintro before hbefore _ hslot rfl
      exact hnew (List.mem_singleton.1 hslot ▸ hbefore)
  filled := by
    intro slot hslot
    rw [taken_concat hrun] at hslot
    rcases List.mem_append.1 hslot with hbefore | hnew
    · obtain ⟨r, hr⟩ := h.filled slot hbefore
      exact hstep.filled hr
    · exact hstep.filled_of_taken ht (Option.mem_toList.1 hnew)
  receiving := hstep.pending_of_receiving h.receiving

/-- Every step keeps the balance. -/
theorem Booked.step {pairs : List Pair} (h : Booked first events b) (hs : Sound pairs b)
    (hrun : first.run? events = some b) (hstep : b.step? e = some b') :
    Booked first (events ++ [e]) b' := by
  rcases (Step.of_step? hstep).coarse hs with
    ⟨event, rfl, hevent⟩ | ⟨hadmitted, htaken, hslots, hstage, hpending, hperm⟩
  · exact h.other hs.tracked hrun hevent
  · have hsame : taken first (events ++ [e]) = taken first events := by
      rw [taken_concat hrun, htaken]
      exact List.append_nil _
    refine
      { balance := h.balance_concat hrun ?_
        once := hsame ▸ h.once
        filled := hsame ▸ hslots ▸ h.filled
        receiving := hstage ▸ hpending ▸ h.receiving }
    rw [hadmitted, htaken]
    exact hperm.append_right []

/-- What the caller knows of the tasks while it waits. -/
structure Books (first : Fine) (events : List Event) (b : Fine) : Prop where
  /-- No slot has two tasks, and no task two messages. -/
  once : (admitted first events).Nodup ∧ (taken first events).Nodup ∧
    ∀ slot ∈ taken first events, slot ∈ admitted first events
  /-- The caller counts the tasks whose messages it has not taken. -/
  tasks : b.stage.isWaiting = true →
    b.pending =
      ((admitted first events).filter fun slot => slot ∉ taken first events).length
  /-- These are as many as there are open slots among those submitted. -/
  slots : b.stage.isWaiting = true →
    b.pending = ((admitted first events).filter fun slot => b.slots[slot]? = some none).length
  /-- A message that is received names an open slot that was submitted. It fills the slot, and the
  count goes down by one. -/
  receive : ∀ {b' : Fine}, b.step? (.other .receive) = some b' →
    ∃ slot result rest, b.messages = (slot, result) :: rest ∧ slot < b.slots.length ∧
      b.slots[slot]? = some none ∧ slot ∈ admitted first events ∧
      b'.slots = b.slots.set slot (some result) ∧ b.pending = b'.pending + 1
  /-- When the wait is over because no result is to come, every slot submitted is filled. -/
  finished : ∀ {b' : Fine}, b.step? (.other .look) = some b' → b'.pending = 0 →
    ∀ slot ∈ admitted first events, ∃ r, b'.slots[slot]? = some (some r)
  /-- As long as every task runs to its end, the caller does not find that nobody is left to send
  a result. -/
  connected : (∀ slot, .other (.lose slot) ∉ events) → b.step? (.other .disconnect) = none

namespace Booked

variable (h : Booked first events b) (ht : b.Tracked)

include h

theorem mem_admitted_of_outstanding (hslot : slot ∈ b.outstanding) :
    slot ∈ admitted first events :=
  h.balance.mem_iff.2 (List.mem_append_right _ hslot)

/-- What holds of the slots that are outstanding and of none that is taken picks out the former. -/
theorem length_filter {p : Nat → Bool} (htaken : ∀ slot ∈ taken first events, p slot = false)
    (hout : ∀ slot ∈ b.outstanding, p slot = true) :
    ((admitted first events).filter p).length = b.outstanding.length := by
  have hnone : (taken first events).filter p = [] :=
    List.filter_eq_nil_iff.2 fun slot hslot => by simp [htaken slot hslot]
  rw [(h.balance.filter p).length_eq, List.filter_append, hnone, List.nil_append,
    List.filter_eq_self.2 hout]

include ht

/-- A slot that is outstanding is open, and so its message is not taken. -/
theorem not_taken (hslot : slot ∈ b.outstanding) : slot ∉ taken first events := by
  intro htaken
  obtain ⟨r, hr⟩ := h.filled slot htaken
  cases (ht.outstanding.isOpen slot hslot).symm.trans hr

/-- No slot is admitted twice. -/
theorem admitted_nodup : (admitted first events).Nodup := by
  rw [h.balance.nodup_iff]
  refine List.nodup_append.2 ⟨h.once, ht.outstanding.nodup, ?_⟩
  rintro slot htaken _ hout rfl
  exact h.not_taken ht hout htaken

/-- While the caller waits it waits for as many results as there are admitted tasks whose messages
it has not taken. -/
theorem pending_eq_tasks (hwaiting : b.stage.isWaiting = true) :
    b.pending =
      ((admitted first events).filter fun slot => slot ∉ taken first events).length := by
  rw [ht.pending (Stage.isCounting_of_isWaiting hwaiting)]
  refine (h.length_filter (fun slot htaken => ?_) fun slot hout => ?_).symm
  · simpa using htaken
  · simpa using h.not_taken ht hout

/-- These are the admitted tasks whose slots are still open. -/
theorem pending_eq_slots (hwaiting : b.stage.isWaiting = true) :
    b.pending =
      ((admitted first events).filter fun slot => b.slots[slot]? = some none).length := by
  rw [ht.pending (Stage.isCounting_of_isWaiting hwaiting)]
  refine (h.length_filter (fun slot htaken => ?_) fun slot hout => ?_).symm
  · obtain ⟨r, hr⟩ := h.filled slot htaken
    simp [hr]
  · simpa using ht.outstanding.isOpen slot hout

/-- The message that is received is for an open slot of an admitted task, and one result less is
waited for. -/
theorem receive {c : Batch} (hstep : Batch.Step b.toBatch .receive c) :
    ∃ slot result rest, b.messages = (slot, result) :: rest ∧ slot < b.slots.length ∧
      b.slots[slot]? = some none ∧ slot ∈ admitted first events ∧
      c.slots = b.slots.set slot (some result) ∧ b.pending = c.pending + 1 := by
  cases hstep with
  | receive slot result rest hs hm hl =>
    obtain ⟨hout, hopen⟩ := ht.message hm
    have hpending := h.receiving hs
    refine ⟨slot, result, rest, hm, hl, hopen, h.mem_admitted_of_outstanding hout, rfl, ?_⟩
    show b.pending = b.pending - 1 + 1
    omega
  | receiveStray slot result rest hs hm hl => exact absurd (ht.lt_of_messages hm) hl

/-- When none is waited for any more, the slots of all admitted tasks are filled. -/
theorem finished {c : Batch} (hstep : Batch.Step b.toBatch .look c) (hpending : c.pending = 0) :
    ∀ slot ∈ admitted first events, ∃ r, c.slots[slot]? = some (some r) := by
  have hkept : b.stage = .looking ∧ c.pending = b.pending ∧ c.slots = b.slots := by
    cases hstep with
    | lookEnd hs | lookOn hs => exact ⟨hs, rfl, rfl⟩
  obtain ⟨hs, hsame, hslots⟩ := hkept
  have hcount := ht.pending (by rw [hs]; rfl)
  have hnone : b.outstanding = [] := List.eq_nil_of_length_eq_zero (by omega)
  intro slot hslot
  rw [h.balance.mem_iff, hnone, List.append_nil] at hslot
  rw [hslots]
  exact h.filled slot hslot

/-- While no task is lost, somebody is left to send the results that are to come. -/
theorem connected (hlost : b.lost = []) : b.step? (.other .disconnect) = none := by
  refine Option.eq_none_iff_forall_ne_some.2 fun c hstep => ?_
  cases Step.of_step? hstep with
  | other _ next _ hnext =>
    cases hnext with
    | disconnect hs hm hq =>
      -- with no task left and no message, nothing is to come, and the caller does not wait
      have hcount := ht.pending (by rw [hs]; rfl)
      rw [outstanding_of_isSilent hq hm, hlost] at hcount
      exact h.receiving hs hcount

/-- If the tasks that were lost are lost by the events, the caller knows the tasks as it should. -/
theorem books (hlost : ∀ slot ∈ b.lost, .other (.lose slot) ∈ events) : Books first events b where
  once := ⟨h.admitted_nodup ht, h.once,
    fun slot hslot => h.balance.mem_iff.2 (List.mem_append_left _ hslot)⟩
  tasks := h.pending_eq_tasks ht
  slots := h.pending_eq_slots ht
  receive := by
    intro b' hstep
    cases Step.of_step? hstep with
    | other _ next _ hnext => exact h.receive ht hnext
  finished := by
    intro b' hstep
    cases Step.of_step? hstep with
    | other _ next _ hnext => exact h.finished ht hnext
  connected hkept := h.connected ht
    (List.eq_nil_iff_forall_not_mem.2 fun slot hmem => hkept slot (hlost slot hmem))

end Booked

variable {hits : List HitData} {configs : List FieldConfig} {cancelled : Bool}

/-- So the balance is right in every reachable state. -/
theorem run_booked (hrun : (begin hits configs cancelled).run? events = some b) :
    Booked (begin hits configs cancelled) events b := by
  refine Rows.induction (I := Booked (begin hits configs cancelled))
    (begin_booked hits configs cancelled) ?_ hrun
  intro events between e last hrun h hstep
  exact h.step ((begin_sound hits configs cancelled).run hrun) hrun hstep

/-- A task is lost only in a step that loses it. -/
theorem run_lost (hrun : (begin hits configs cancelled).run? events = some b) :
    ∀ slot ∈ b.lost, .other (.lose slot) ∈ events := by
  refine Rows.induction
    (I := fun events (b : Fine) => ∀ slot ∈ b.lost, .other (.lose slot) ∈ events)
    (fun slot h => absurd h List.not_mem_nil) ?_ hrun
  intro events b e b' _ ih hstep slot hmem
  have hkept : slot ∈ b.lost → .other (.lose slot) ∈ events ++ [e] :=
    fun hbefore => List.mem_append_left _ (ih slot hbefore)
  cases Step.of_step? hstep with
  | other event next he hnext =>
    rcases hnext.lost_cases hmem with hbefore | rfl
    · exact hkept hbefore
    · exact List.mem_append_right _ (List.mem_singleton.2 rfl)
  | lookCancelled | lookOn | lookAbandoned | call => exact hkept hmem

/-- **The books of the wait.** Whatever the order in which tasks are started, call the backend,
end their calls and send their messages, and whenever the deadline or a cancellation comes: the
number that the caller of a batch keeps while it waits is that of the admitted tasks whose messages
it has not taken, and that of the slots submitted and still open. A message that it receives names
such a slot, so the number never goes below nothing. When it is down to nothing, every slot
submitted is filled, and until then, if all tasks run to their end, some task is left to send its
message. -/
theorem books_of_run (hrun : (begin hits configs cancelled).run? events = some b) :
    Books (begin hits configs cancelled) events b :=
  (run_booked hrun).books (begin_sound hits configs cancelled |>.run hrun).tracked (run_lost hrun)

/-- Four tasks are admitted. The call of one panics and its message is received, and the message
of another is there. -/
def halfReceived : List Event :=
  [.other .visit, .other (.submit (.ok ())), .other .visit, .other (.submit (.ok ())),
   .other .visit, .other .visit, .other .visit, .other (.submit (.ok ())), .other .visit,
   .other (.submit (.ok ())), .other .visit, .look 1 0, .lookAgain 1 0, .other .look,
   .other (.reply 1 .broken 3), .other (.report 1), .other .receive, .look 4 0, .lookAgain 4 0,
   .other (.reply 4 (.text "z") 3), .other .look, .other (.report 4)]

/-- The books of that batch, before and after the next message is received. -/
theorem books_of_run_halfReceived :
    ∃ b b', (begin spoiledHits rivalConfigs false).run? halfReceived = some b ∧
      b.stage = .receiving ∧ b.messages = [(4, .succeeded 2 "t" "z" 3)] ∧
      admitted (begin spoiledHits rivalConfigs false) halfReceived = [0, 1, 4, 5] ∧
      taken (begin spoiledHits rivalConfigs false) halfReceived = [1] ∧
      b.pending = [0, 4, 5].length ∧ b.step? (.other .receive) = some b' ∧
      b.pending = b'.pending + 1 ∧
      Books (begin spoiledHits rivalConfigs false) halfReceived b := by
  have h : ((begin spoiledHits rivalConfigs false).run? halfReceived).map (fun b =>
      (b.stage, b.messages, (b.step? (.other .receive)).isSome)) =
      some (.receiving, [(4, .succeeded 2 "t" "z" 3)], true) := by decide
  obtain ⟨b, hrun, heq⟩ := Option.map_eq_some_iff.1 h
  obtain ⟨hstage, hmessages, hreceive⟩ : b.stage = _ ∧ b.messages = _ ∧
      (b.step? (.other .receive)).isSome = true := by simpa only [Prod.mk.injEq] using heq
  obtain ⟨b', hb'⟩ := Option.isSome_iff_exists.1 hreceive
  have hadmitted : admitted (begin spoiledHits rivalConfigs false) halfReceived = [0, 1, 4, 5] := by
    decide +kernel
  have htaken : taken (begin spoiledHits rivalConfigs false) halfReceived = [1] := by
    decide +kernel
  have hbooks := books_of_run hrun
  -- four tasks were admitted and one message taken, so three are waited for
  have htasks := hbooks.tasks (by rw [hstage]; rfl)
  obtain ⟨_, _, _, -, -, -, -, -, hless⟩ := hbooks.receive hb'
  rw [hadmitted, htaken] at htasks
  exact ⟨b, b', hrun, hstage, hmessages, hadmitted, htaken, htasks, hb', hless, hbooks⟩

/-- The only task breaks off, and the caller finds that nobody is left. -/
example : ((begin (spoiledHits.take 1) (rivalConfigs.take 1) false).run?
    [.other .visit, .other (.submit (.ok ())), .other .visit, .look 0 0, .lookAgain 0 0,
     .other .look, .other (.lose 0), .other .disconnect]).map (·.stage) = some .draining := by
  decide

end Fine

end Batch

end SemanticHighlight
