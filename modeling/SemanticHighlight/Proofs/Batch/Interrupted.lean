import SemanticHighlight.Proofs.Batch.Afterwards
import SemanticHighlight.Proofs.Rows

/-!
# What an interrupted batch reports

The deadline can come while the caller waits for a place in the pool or while it waits for
results, a cancellation at any time, and the caller goes on visiting pairs after either. What
a pair is reported with depends on three things only: whether the hit has a text for it,
whether its task sent a result before the caller found no further one (`Delivered`), and
whether the caller saw the deadline come (`seesDeadline`).

`Conveyed` is the invariant. A result that was sent is on its way or in its slot, for good once
the caller has taken all that was there, and a slot holds nothing else but what is said of a
pair without a text. Main statement: `interrupted_results`.
-/

namespace SemanticHighlight

/-- Whether a hit has something to highlight in a field: a text that is not blank. -/
def HitData.HasText (hit : HitData) (field : String) : Prop :=
  ∃ text, hit.sourceText? field = some text ∧ Text.allBlank text = false

/-- A pair is skipped exactly if its hit has no text in the field. -/
theorem Pair.context_ofHit_eq_none_iff {i : Nat} {hit : HitData} {c : FieldConfig} :
    (ofHit i hit c).context = none ↔ ¬ hit.HasText c.field := by
  unfold ofHit HitData.HasText
  cases hit.sourceText? c.field with
  | none => simp
  | some text => cases hb : Text.allBlank text <;> simp [Option.filter, hb]

/-- A result that a reply gave is not late. -/
theorem Pair.timedOut_result (p : Pair) (reply : Inference.Reply) (durationMs : UInt64) :
    (p.result reply durationMs).timedOut = false := by
  unfold result
  cases reply with
  | text text =>
    dsimp only
    split <;> rfl
  | fault fault => rfl
  | broken => rfl

/-- Whether the caller has taken all results that were there. -/
def Stage.isSettled : Stage → Bool
  | concluding | returned (.completed ..) => true
  | visiting | submitting _ | failing _ | looking | receiving | draining | returned .vacant
  | returned (.refused _) => false

namespace Batch

section Coarse

variable {b b' : Batch} {e : Event} {events : List Event}

/-- Whether the caller sees in a step that the deadline has come. -/
def Event.seesDeadline : Event → Bool
  | expire | submit (.error (.late _)) => true
  | _ => false

/-- The caller remembers that the deadline has come once it has seen it. -/
theorem Step.expired_eq (h : Step b e b') : b'.expired = (b.expired || e.seesDeadline) := by
  cases h with
  | late | expire => exact (Bool.or_true _).symm
  | refuse slot reason hs hr =>
    cases reason with
    | late n => exact absurd rfl (hr n)
    | shutDown | saturated n => exact (Bool.or_false _).symm
  | _ => exact (Bool.or_false _).symm

/-- No task says that the deadline came first. -/
theorem Origin.timedOut {slot : Nat} {r : FieldResult} (h : Origin events b slot r) :
    r.timedOut = false := by
  cases h with
  | replied p reply durationMs => exact p.timedOut_result reply durationMs
  | skipped | cancelled | abandoned => rfl

/-- A result of a batch stands in a slot, or its slot was open. -/
theorem mem_results {waitedMs : UInt64} {r : FieldResult} (h : r ∈ b.results waitedMs) :
    (∃ slot : Nat, b.slots[slot]? = some (some r)) ∨
      ∃ p : Pair, r = p.missing b.expired waitedMs := by
  obtain ⟨k, hk⟩ := List.mem_iff_getElem?.1 h
  unfold results at hk
  rw [List.getElem?_zipWith] at hk
  split at hk
  · next p slot hp hs =>
    cases slot with
    | some held =>
      cases hk
      exact .inl ⟨k, hs⟩
    | none =>
      cases hk
      exact .inr ⟨p, rfl⟩
  · cases hk

/-- What tasks do among themselves keeps the invariant. -/
theorem Invariant.moved {pairs : List Pair} (h : Invariant pairs b)
    {queued calling calls : List Nat} {reporting : List (Nat × FieldResult)}
    (hperm : (outstanding { b with queued, calling, reporting, calls }).Perm b.outstanding) :
    Invariant pairs { b with queued, calling, reporting, calls } :=
  ⟨h.pairs_eq, ⟨h.placed.le, h.placed.full⟩, h.tracked.moved rfl rfl rfl rfl hperm,
    h.covered.moved rfl rfl rfl rfl (fun _ => id) hperm,
    ⟨h.told.results, h.told.vacant, h.told.returned, h.told.missing⟩⟩

end Coarse

namespace Fine

variable {first b b' : Fine} {e : Event} {events : List Event}

/-- Whether the caller sees in a step that the deadline has come. -/
def Event.seesDeadline : Event → Bool
  | other event => event.seesDeadline
  | look _ _ | lookAgain _ _ => false

/-- Whether the task of a slot sent a result before the caller found no further one. -/
def Delivered (first : Fine) (events : List Event) (slot : Nat) (r : FieldResult) : Prop :=
  ∃ before after mid next, events = before ++ .other (.report slot) :: after ∧
    .other .settle ∉ before ∧ first.run? before = some mid ∧
    mid.step? (.other (.report slot)) = some next ∧ next.messages = mid.messages ++ [(slot, r)]

/-! ## What holds at either grain -/

/-- Every step keeps the invariants of the coarser grain. -/
theorem Sound.invariant_step {pairs : List Pair} (hs : Sound pairs b)
    (h : Invariant pairs b.toBatch) (hstep : Step b e b') : Invariant pairs b'.toBatch := by
  cases hstep with
  | other event next he hnext => exact step_invariant h hnext
  | lookCancelled slot durationMs p hq hb hc =>
    exact h.moved (outstanding_perm_of_start hq (p.cancelled durationMs))
  | lookOn => exact h
  | lookAbandoned slot durationMs p hb ha =>
    exact h.moved (outstanding_perm_of_start (hs.queued slot hb) (p.abandoned durationMs))
  | call slot durationMs hb ha => exact h.moved (outstanding_perm_of_startCall (hs.queued slot hb))

/-- No result of a pair that is known says that the deadline came first. -/
theorem step_prompt (ht : b.Tracked) (h : ∀ slot r, b.Known slot r → r.timedOut = false)
    (hstep : Step b e b') : ∀ slot r, b'.Known slot r → r.timedOut = false := by
  intro s r hknown
  cases hstep with
  | other event next he hnext =>
    have hfrom : b.Known s r ∨ Origin ([] ++ [event]) next s r := step_known ht hnext hknown
    rcases hfrom with hbefore | horigin
    · exact h s r hbefore
    · exact horigin.timedOut
  -- what the looks add is a failure that says nothing of the deadline
  | lookCancelled | lookAbandoned =>
    rcases hknown with hslot | hreporting | hmessage
    · exact h s r (.inl hslot)
    · rcases List.mem_append.1 hreporting with hbefore | hnew
      · exact h s r (.inr (.inl hbefore))
      · cases List.mem_singleton.1 hnew
        rfl
    · exact h s r (.inr (.inr hmessage))
  | lookOn | call => exact h s r hknown

section Runs

variable {hits : List HitData} {configs : List FieldConfig} {cancelled : Bool}

/-- So they hold in every reachable state. -/
theorem run_invariant (hrun : (begin hits configs cancelled).run? events = some b) :
    Invariant (Pair.all hits configs) b.toBatch :=
  (run_induction (P := fun b => Sound (Pair.all hits configs) b ∧
      Invariant (Pair.all hits configs) b.toBatch)
    ⟨begin_sound hits configs cancelled, begin_invariant hits configs cancelled⟩
    (fun h hstep => ⟨h.1.step hstep, h.1.invariant_step h.2 hstep⟩) hrun).2

/-- In every reachable state, no result that is known says that the deadline came first. -/
theorem run_prompt (hrun : (begin hits configs cancelled).run? events = some b) :
    ∀ slot r, b.Known slot r → r.timedOut = false := by
  refine (run_induction (P := fun b => Sound (Pair.all hits configs) b ∧
    ∀ slot r, b.Known slot r → r.timedOut = false) ⟨begin_sound hits configs cancelled, ?_⟩
    (fun h hstep => ⟨h.1.step hstep, step_prompt h.1.tracked h.2 hstep⟩) hrun).2
  intro slot r h
  rcases h with h | h | h <;> simp [begin, Batch.begin] at h

/-- The caller knows of the deadline exactly if it has seen it come. -/
theorem run_expired (hrun : (begin hits configs cancelled).run? events = some b) :
    b.expired = events.any Event.seesDeadline := by
  refine Rows.induction (I := fun events (b : Fine) => b.expired = events.any Event.seesDeadline)
    rfl ?_ hrun
  intro events b e b' _ h hstep
  have hlast : b'.expired = (b.expired || e.seesDeadline) := by
    cases Step.of_step? hstep with
    | other event next he hnext => exact hnext.expired_eq
    | lookCancelled | lookOn | lookAbandoned | call => exact (Bool.or_false _).symm
  rw [hlast, h, List.any_append, List.any_cons, List.any_nil, Bool.or_false]

end Runs

/-! ## Results that are sent arrive -/

/-- What was delivered stays delivered. -/
theorem Delivered.later {slot : Nat} {r : FieldResult} (h : Delivered first events slot r)
    (e : Event) : Delivered first (events ++ [e]) slot r := by
  obtain ⟨before, after, mid, next, rfl, hopen, hmid, hnext, hmessages⟩ := h
  exact ⟨before, after ++ [e], mid, next, by simp, hopen, hmid, hnext, hmessages⟩

/-- What a longer row of steps delivers: what it did before, and what its last step sends. -/
theorem delivered_concat (hrun : first.run? events = some b) (hstep : b.step? e = some b')
    {slot : Nat} {r : FieldResult} :
    Delivered first (events ++ [e]) slot r ↔ Delivered first events slot r ∨
      (e = .other (.report slot) ∧ .other .settle ∉ events ∧
        b'.messages = b.messages ++ [(slot, r)]) := by
  constructor
  · rintro ⟨before, after, mid, next, hsplit, hopen, hmid, hnext, hmessages⟩
    -- the sending is the last step of the longer row, or one before it
    rcases List.eq_nil_or_concat after with rfl | ⟨after, last, rfl⟩
    · obtain ⟨rfl, he⟩ := List.append_inj' hsplit rfl
      cases he
      rw [hrun] at hmid
      cases hmid
      rw [hstep] at hnext
      cases hnext
      exact .inr ⟨rfl, hopen, hmessages⟩
    · rw [List.concat_eq_append, ← List.cons_append, ← List.append_assoc] at hsplit
      obtain ⟨rfl, -⟩ := List.append_inj' hsplit rfl
      exact .inl ⟨before, after, mid, next, rfl, hopen, hmid, hnext, hmessages⟩
  · rintro (hsent | ⟨rfl, hopen, hmessages⟩)
    · exact hsent.later e
    · exact ⟨events, [], b, b', rfl, hopen, hrun, hstep, hmessages⟩

/-- What is known of the results that tasks have sent. -/
structure Conveyed (first : Fine) (events : List Event) (b : Fine) : Prop where
  settled : b.stage.isSettled = true ↔ .other .settle ∈ events
  arrives : ∀ slot r, Delivered first events slot r →
    b.slots[slot]? = some (some r) ∨ (b.stage.isSettled = false ∧ (slot, r) ∈ b.messages)
  sent : b.stage.isSettled = false → ∀ slot r, (slot, r) ∈ b.messages →
    Delivered first events slot r
  filled : ∀ slot r, b.slots[slot]? = some (some r) →
    Delivered first events slot r ∨ ∃ p, b.pairs[slot]? = some p ∧ p.context = none
  skipped : ∀ slot p, b.pairs[slot]? = some p → p.context = none → slot < b.slots.length →
    b.slots[slot]? = some (some p.skipped)

namespace Conveyed

/-- A step that is not the one which finds no further result settles nothing. -/
theorem isSettled_concat (h : Conveyed first events b) (he : e ≠ .other .settle)
    (hstage : b'.stage.isSettled = b.stage.isSettled) :
    b'.stage.isSettled = true ↔ .other .settle ∈ events ++ [e] := by
  rw [hstage, h.settled, List.mem_append, List.mem_singleton]
  exact ⟨.inl, fun hmem => hmem.resolve_right (Ne.symm he)⟩

/-- A step that sends nothing delivers nothing. -/
theorem delivered_of_messages_eq (hrun : first.run? events = some b)
    (hstep : b.step? e = some b') (hmessages : b'.messages = b.messages) {slot : Nat}
    {r : FieldResult} :
    Delivered first (events ++ [e]) slot r ↔ Delivered first events slot r := by
  rw [delivered_concat hrun hstep]
  refine or_iff_left fun hnew => ?_
  have hgrown := hmessages.symm.trans hnew.2.2
  simp at hgrown

/-- What a filled slot holds is still accounted for after a step that fills none. -/
theorem filled_of_slots_eq (h : Conveyed first events b) (hpairs : b'.pairs = b.pairs)
    (hslots : b'.slots = b.slots) (e : Event) (slot : Nat) (r : FieldResult)
    (hslot : b'.slots[slot]? = some (some r)) :
    Delivered first (events ++ [e]) slot r ∨
      ∃ p, b'.pairs[slot]? = some p ∧ p.context = none := by
  rw [hslots] at hslot
  rw [hpairs]
  exact (h.filled slot r hslot).imp_left fun hsent => hsent.later e

theorem skipped_of_slots_eq (h : Conveyed first events b) (hpairs : b'.pairs = b.pairs)
    (hslots : b'.slots = b.slots) : ∀ slot p, b'.pairs[slot]? = some p → p.context = none →
      slot < b'.slots.length → b'.slots[slot]? = some (some p.skipped) := by
  rw [hslots, hpairs]
  exact h.skipped

/-- A step that leaves slots and messages as they are conveys nothing. -/
theorem quiet (h : Conveyed first events b) (hrun : first.run? events = some b)
    (hstep : b.step? e = some b') (he : e ≠ .other .settle) (hpairs : b'.pairs = b.pairs)
    (hslots : b'.slots = b.slots) (hmessages : b'.messages = b.messages)
    (hstage : b'.stage.isSettled = b.stage.isSettled) : Conveyed first (events ++ [e]) b' where
  settled := h.isSettled_concat he hstage
  arrives := by
    intro slot r hsent
    rw [delivered_of_messages_eq hrun hstep hmessages] at hsent
    rw [hslots, hstage, hmessages]
    exact h.arrives slot r hsent
  sent := by
    rw [hstage, hmessages]
    intro hopen slot r hmem
    exact (h.sent hopen slot r hmem).later e
  filled := h.filled_of_slots_eq hpairs hslots _
  skipped := h.skipped_of_slots_eq hpairs hslots

/-- A slot that is made for a pair is filled just if the pair has no text. -/
theorem made (h : Conveyed first events b) (hrun : first.run? events = some b)
    (hstep : b.step? e = some b') (he : e ≠ .other .settle) {p : Pair}
    {new : Option FieldResult} (hp : b.pairs[b.slots.length]? = some p)
    (hnew : new = if p.context = none then some p.skipped else none)
    (hpairs : b'.pairs = b.pairs) (hslots : b'.slots = b.slots ++ [new])
    (hmessages : b'.messages = b.messages) (hopen : b.stage.isSettled = false)
    (hopen' : b'.stage.isSettled = false) : Conveyed first (events ++ [e]) b' where
  settled := h.isSettled_concat he (hopen'.trans hopen.symm)
  arrives := by
    intro slot r hsent
    rw [delivered_of_messages_eq hrun hstep hmessages] at hsent
    rcases h.arrives slot r hsent with hslot | ⟨-, hmem⟩
    · refine .inl ?_
      rw [hslots, List.getElem?_append_left (List.getElem?_eq_some_iff.1 hslot).1]
      exact hslot
    · exact .inr ⟨hopen', hmessages ▸ hmem⟩
  sent := by
    intro _ slot r hmem
    rw [hmessages] at hmem
    exact (h.sent hopen slot r hmem).later e
  filled := by
    intro slot r hslot
    rw [hslots] at hslot
    rw [hpairs]
    rcases slot_of_concat hslot with hslot | ⟨rfl, hheld⟩
    · exact (h.filled slot r hslot).imp_left fun hsent => hsent.later e
    · refine .inr ⟨p, hp, ?_⟩
      -- a slot that is filled when it is made is that of a skipped pair
      by_contra hc
      rw [hnew, if_neg hc] at hheld
      cases hheld
  skipped := by
    intro slot q hq hc hlt
    rw [hslots, List.length_append, List.length_singleton] at hlt
    rw [hpairs] at hq
    rw [hslots]
    rcases Nat.lt_or_ge slot b.slots.length with hold | hge
    · rw [List.getElem?_append_left hold]
      exact h.skipped slot q hq hc hold
    · obtain rfl : slot = b.slots.length := by omega
      cases hp.symm.trans hq
      rw [List.getElem?_concat_length, hnew, if_pos hc]

/-- A result that was on its way arrives in its slot. -/
theorem taken (h : Conveyed first events b) (ht : b.Tracked) (hrun : first.run? events = some b)
    (hstep : b.step? e = some b') (he : e ≠ .other .settle) {slot : Nat} {result : FieldResult}
    {rest : List (Nat × FieldResult)} (hm : b.messages = (slot, result) :: rest)
    (hpairs : b'.pairs = b.pairs) (hslots : b'.slots = b.slots.set slot (some result))
    (hmessages : b'.messages = rest) (hopen : b.stage.isSettled = false)
    (hopen' : b'.stage.isSettled = false) : Conveyed first (events ++ [e]) b' := by
  -- the slot was open until now, and its pair has a text
  obtain ⟨hout, hempty⟩ := ht.message hm
  have hold : ∀ s r, Delivered first (events ++ [e]) s r ↔ Delivered first events s r := by
    intro s r
    rw [delivered_concat hrun hstep]
    refine or_iff_left fun hnew => ?_
    have hshrunk := congrArg List.length (hmessages.symm.trans hnew.2.2)
    rw [hm, List.length_append, List.length_cons] at hshrunk
    omega
  refine ⟨h.isSettled_concat he (hopen'.trans hopen.symm), fun s r hsent => ?_,
    fun _ s r hmem => ?_, fun s r hslot => ?_, fun s p hp hc hlt => ?_⟩
  · rw [hold] at hsent
    rw [hslots, hmessages]
    rcases h.arrives s r hsent with hslot | ⟨-, hmem⟩
    · refine .inl ?_
      have hne : slot ≠ s := by
        rintro rfl
        rw [hempty] at hslot
        cases hslot
      rw [List.getElem?_set_ne hne]
      exact hslot
    · rw [hm] at hmem
      rcases List.mem_cons.1 hmem with heq | hmem
      · cases heq
        exact .inl (List.getElem?_set_self (List.getElem?_eq_some_iff.1 hempty).1)
      · exact .inr ⟨hopen', hmem⟩
  · rw [hmessages] at hmem
    exact (hold s r).2 (h.sent hopen s r (hm ▸ List.mem_cons_of_mem _ hmem))
  · rw [hslots] at hslot
    rw [hpairs, hold]
    rcases Rows.getElem?_of_set hslot with ⟨-, hslot⟩ | ⟨rfl, hheld⟩
    · exact h.filled s r hslot
    · cases hheld
      exact .inl (h.sent hopen s result (hm ▸ List.mem_cons_self ..))
  · rw [hpairs] at hp
    rw [hslots, List.length_set] at hlt
    have hne : slot ≠ s := by
      rintro rfl
      exact ht.hasText hp hout hc
    rw [hslots, List.getElem?_set_ne hne]
    exact h.skipped s p hp hc hlt

/-- A result that a task sends is delivered, unless the caller has taken all there was. -/
theorem reported (h : Conveyed first events b) (hrun : first.run? events = some b)
    {slot : Nat} {result : FieldResult} (hstep : b.step? (.other (.report slot)) = some b')
    (hpairs : b'.pairs = b.pairs) (hslots : b'.slots = b.slots)
    (hmessages : b'.messages = b.messages ++ [(slot, result)]) (hstage : b'.stage = b.stage) :
    Conveyed first (events ++ [.other (.report slot)]) b' where
  settled := h.isSettled_concat (by simp) (congrArg Stage.isSettled hstage)
  arrives := by
    intro s r hsent
    rw [hslots, hstage, hmessages]
    rcases (delivered_concat hrun hstep).1 hsent with hsent | ⟨-, hopen, hnew⟩
    · exact (h.arrives s r hsent).imp_right fun hway =>
        ⟨hway.1, List.mem_append_left _ hway.2⟩
    · rw [← h.settled, Bool.not_eq_true] at hopen
      exact .inr ⟨hopen, hmessages ▸ hnew ▸ List.mem_concat_self ..⟩
  sent := by
    intro hopen s r hmem
    rw [hstage] at hopen
    rw [hmessages] at hmem
    refine (delivered_concat hrun hstep).2 ?_
    rcases List.mem_append.1 hmem with hmem | hnew
    · exact .inl (h.sent hopen s r hmem)
    · cases List.mem_singleton.1 hnew
      -- the caller has not settled, so the report is in time
      have hbefore : .other .settle ∉ events := by
        rw [← h.settled, hopen]
        exact Bool.false_ne_true
      exact .inr ⟨rfl, hbefore, hmessages⟩
  filled := h.filled_of_slots_eq hpairs hslots _
  skipped := h.skipped_of_slots_eq hpairs hslots

/-- When the caller finds no further result, all that were sent are in their slots. -/
theorem closed (h : Conveyed first events b) (hrun : first.run? events = some b)
    (hstep : b.step? (.other .settle) = some b') (hempty : b.messages = [])
    (hpairs : b'.pairs = b.pairs) (hslots : b'.slots = b.slots)
    (hmessages : b'.messages = b.messages) (hstage : b'.stage.isSettled = true) :
    Conveyed first (events ++ [.other .settle]) b' where
  settled := iff_of_true hstage (List.mem_concat_self ..)
  arrives := by
    intro slot r hsent
    rw [delivered_of_messages_eq hrun hstep hmessages] at hsent
    rw [hslots]
    refine (h.arrives slot r hsent).imp_right fun hway => ?_
    rw [hempty] at hway
    exact absurd hway.2 List.not_mem_nil
  sent hopen := absurd (hstage.symm.trans hopen) (by simp)
  filled := h.filled_of_slots_eq hpairs hslots _
  skipped := h.skipped_of_slots_eq hpairs hslots

/-- Every step keeps what is known of the results sent. -/
theorem step (h : Conveyed first events b) (ht : b.Tracked) (hrun : first.run? events = some b)
    (hstep : b.step? e = some b') : Conveyed first (events ++ [e]) b' := by
  -- five lemmas for what a step can do: nothing of note, make a slot, take a message, send one, or
  -- settle
  cases Step.of_step? hstep with
  | other event next he hnext =>
    cases hnext with
    | visitEnd hs | accept _ hs | late _ _ hs | refuse _ _ hs | fail _ hs | lookEnd hs
    | lookOn hs | expire hs | idle hs | disconnect hs | conclude _ _ hs =>
      exact h.quiet hrun hstep (by simp) rfl rfl rfl (by rw [hs]; rfl)
    | reply | lose | cancel => exact h.quiet hrun hstep (by simp) rfl rfl rfl rfl
    | visitSkip p hs hp hc =>
      exact h.made hrun hstep (by simp) hp (if_pos hc).symm rfl rfl rfl (by rw [hs]; rfl)
        (by show b.stage.isSettled = false; rw [hs]; rfl)
    | visitPass p hs hp hc =>
      exact h.made hrun hstep (by simp) hp (if_neg hc).symm rfl rfl rfl (by rw [hs]; rfl)
        (by show b.stage.isSettled = false; rw [hs]; rfl)
    | visitOpen p hs hp hc =>
      exact h.made hrun hstep (by simp) hp (if_neg hc).symm rfl rfl rfl (by rw [hs]; rfl) rfl
    | receive slot result rest hs hm =>
      exact h.taken ht hrun hstep (by simp) hm rfl rfl rfl (by rw [hs]; rfl) rfl
    | drain slot result rest hs hm =>
      exact h.taken ht hrun hstep (by simp) hm rfl rfl rfl (by rw [hs]; rfl)
        (by show b.stage.isSettled = false; rw [hs]; rfl)
    | receiveStray slot result rest hs hm hl => exact absurd (ht.lt_of_messages hm) hl
    | settle hs hm => exact h.closed hrun hstep hm rfl rfl rfl rfl
    | report slot result hf => exact h.reported hrun hstep rfl rfl rfl rfl
    | startCancelled | startAbandoned | startCall => cases he
  | lookCancelled | lookOn | lookAbandoned | call =>
    exact h.quiet hrun hstep (by simp) rfl rfl rfl rfl

end Conveyed

section Runs

variable {hits : List HitData} {configs : List FieldConfig} {cancelled : Bool}
  {ending : Ending} {results : List FieldResult}

/-- So it is known in every reachable state. -/
theorem run_conveyed (hrun : (begin hits configs cancelled).run? events = some b) :
    Conveyed (begin hits configs cancelled) events b := by
  refine Rows.induction (I := Conveyed (begin hits configs cancelled)) ?_ ?_ hrun
  · refine ⟨?_, fun slot r hsent => ?_, fun _ slot r hmem => absurd hmem List.not_mem_nil,
      fun slot r hslot => absurd hslot (by simp [begin, Batch.begin]),
      fun slot p hp hc hlt => absurd hlt (Nat.not_lt_zero slot)⟩
    · unfold begin Batch.begin
      dsimp only
      split <;> simp [Stage.isSettled]
    · obtain ⟨before, after, mid, next, hsplit, -⟩ := hsent
      exact absurd hsplit (by simp)
  · intro events b e b' hbefore h hstep
    exact h.step (run_invariant hbefore).tracked hbefore hstep

/-- A batch that has results to return has taken all that was there. -/
theorem isSettled_of_outcome (hinv : Invariant (Pair.all hits configs) b.toBatch)
    (hret : b.stage = .returned ending) (hok : ending.outcome = .ok results) {slot : Nat}
    {p : Pair} (hp : b.pairs[slot]? = some p) : b.stage.isSettled = true := by
  rw [hret]
  cases ending with
  | vacant =>
    rw [hinv.told.vacant hret] at hp
    cases hp
  | completed => rfl
  | refused => cases hok

/-- Only a result that is missing can say that the deadline came first. -/
theorem prompt_or_missing (hrun : (begin hits configs cancelled).run? events = some b)
    {waitedMs : UInt64} {r : FieldResult} (hr : r ∈ b.results waitedMs) :
    r.timedOut = false ∨ ∃ p : Pair, r = p.missing b.expired waitedMs :=
  (mem_results hr).imp_left fun ⟨slot, hslot⟩ => run_prompt hrun slot r (.inl hslot)

/-- A result that says that the deadline came first is not successful. -/
theorem success_of_timedOut (hrun : (begin hits configs cancelled).run? events = some b)
    {waitedMs : UInt64} {r : FieldResult} (hr : r ∈ b.results waitedMs)
    (hlate : r.timedOut = true) : r.success = false := by
  rcases prompt_or_missing hrun hr with hprompt | ⟨p, rfl⟩
  · exact absurd (hprompt.symm.trans hlate) (by simp)
  · unfold Pair.missing
    split <;> rfl

/-- **What an interrupted batch reports.** However its steps, the deadline and a cancellation
follow one another, if a batch returns results then the one for hit `i` and configuration `j`
is as follows.

* If the hit has no text in the field, or a blank one, the result says so, in no time.
* If the task of the pair sent a result before the caller found no further one, it is that
  very result.
* Otherwise it is without a text. It says that the deadline came first if the caller saw it
  come, be it while waiting for a place in the pool or for results, and else that the task was
  abandoned.

So no result is both successful and late, and none is late if the caller never saw the
deadline come. -/
theorem interrupted_results (hrun : (begin hits configs cancelled).run? events = some b)
    (hret : b.stage = .returned ending) (hok : ending.outcome = .ok results) :
    (∃ waitedMs, ∀ (i j : Nat) (hi : i < hits.length) (hj : j < configs.length),
      ∃ r, results[i * configs.length + j]? = some r ∧
        (¬ hits[i].HasText configs[j].field →
          r = .failed i configs[j].field "field text missing or empty" 0) ∧
        (∀ sent, Delivered (begin hits configs cancelled) events (i * configs.length + j) sent →
          r = sent) ∧
        (hits[i].HasText configs[j].field →
          (∀ sent, ¬ Delivered (begin hits configs cancelled) events
            (i * configs.length + j) sent) →
          r = if events.any Event.seesDeadline then .late i configs[j].field waitedMs
            else .failed i configs[j].field "highlight task abandoned" waitedMs)) ∧
    (∀ r ∈ results, ¬ (r.success = true ∧ r.timedOut = true)) ∧
    (events.any Event.seesDeadline = false → ∀ r ∈ results, r.timedOut = false) := by
  have hinv := run_invariant hrun
  have hconveyed := run_conveyed hrun
  obtain ⟨hfull, waitedMs, rfl⟩ := results_of_outcome hinv hret hok
  refine ⟨⟨waitedMs, fun i j hi hj => ?_⟩, fun r hr hboth => ?_, fun hunseen r hr => ?_⟩
  · -- each slot is filled by a skipped pair or a delivered result, or is open at the end
    have hp : b.pairs[i * configs.length + j]? = some (Pair.ofHit i hits[i] configs[j]) := by
      rw [hinv.pairs_eq]
      exact Pair.getElem?_all hi hj
    have hsettled := isSettled_of_outcome hinv hret hok hp
    have hlt : i * configs.length + j < b.slots.length := by
      rw [hfull]
      exact (List.getElem?_eq_some_iff.1 hp).1
    have hslot := List.getElem?_eq_getElem hlt
    refine ⟨_, getElem?_results hp hslot waitedMs, fun hblank => ?_, fun sent hsent => ?_,
      fun htext hnone => ?_⟩
    · have hskipped := hconveyed.skipped _ _ hp (Pair.context_ofHit_eq_none_iff.2 hblank) hlt
      rw [hslot] at hskipped
      rw [Option.some.inj hskipped]
      rfl
    · rcases hconveyed.arrives _ _ hsent with harrived | ⟨hopen, -⟩
      · rw [hslot] at harrived
        rw [Option.some.inj harrived]
        rfl
      · exact absurd (hsettled.symm.trans hopen) (by simp)
    · -- nothing but a result that was sent can stand in the slot of a pair with a text
      cases hheld : b.slots[i * configs.length + j] with
      | some r =>
        rcases hconveyed.filled _ r (hslot.trans (congrArg some hheld)) with
          hsent | ⟨p, hp', hc⟩
        · exact absurd hsent (hnone r)
        · cases hp.symm.trans hp'
          exact absurd htext (Pair.context_ofHit_eq_none_iff.1 hc)
      | none =>
        rw [← run_expired hrun]
        rfl
  · have hfailed := success_of_timedOut hrun hr hboth.2
    exact absurd (hfailed.symm.trans hboth.1) (by simp)
  · rcases prompt_or_missing hrun hr with hprompt | ⟨p, rfl⟩
    · exact hprompt
    · rw [run_expired hrun, hunseen]
      rfl

end Runs

/-- Of two tasks one sends its result while the caller drains, and the other when the caller has
found no further one. The deadline came during the submissions, the cancellation after them. -/
def twiceInterrupted : List Event :=
  [.other .visit, .other (.submit (.ok ())), .other .visit, .other (.submit (.ok ())),
   .other .visit, .other .visit, .look 1 0, .other .visit, .other (.submit (.error (.late 2))),
   .lookAgain 1 0, .other .visit, .other .visit, .other (.reply 1 (.text "z") 3), .other .cancel,
   .other .look, .other (.report 1), .other .drain, .other .settle, .look 0 4, .other (.report 0),
   .other (.conclude 5 7)]

/-- A cancellation comes while the only task waits for the backend. -/
def cancelledOnly : List Event :=
  [.other .visit, .other (.submit (.ok ())), .look 0 0, .lookAgain 0 0, .other .visit,
   .other .cancel, .other .look, .other .settle, .other (.reply 0 (.text "z") 3),
   .other (.report 0), .other (.conclude 5 7)]

/-- What is returned when the only task is given up. -/
def abandonedResults : List FieldResult := [.failed 0 "t" "highlight task abandoned" 5]

/-- It is so for the batch that is interrupted twice, and for one that is only cancelled. -/
theorem interrupted_results_twice :
    (∃ b, (begin spoiledHits rivalConfigs false).run? twiceInterrupted = some b ∧
      b.stage = .returned (.completed interruptedResults 7) ∧
      Delivered (begin spoiledHits rivalConfigs false) twiceInterrupted 1
        (.succeeded 0 "t" "z" 3) ∧
      (∃ r, interruptedResults[0 * 2 + 1]? = some r ∧ r = .succeeded 0 "t" "z" 3) ∧
      ∀ r ∈ interruptedResults, ¬ (r.success = true ∧ r.timedOut = true)) ∧
    ∃ b, (begin (spoiledHits.take 1) (rivalConfigs.take 1) false).run? cancelledOnly = some b ∧
      b.stage = .returned (.completed abandonedResults 7) ∧
      cancelledOnly.any Event.seesDeadline = false ∧
      ∀ r ∈ abandonedResults, r.timedOut = false := by
  constructor
  · have h : ((begin spoiledHits rivalConfigs false).run? twiceInterrupted).map (·.stage) =
        some (.returned (.completed interruptedResults 7)) := by decide
    obtain ⟨b, hrun, hret⟩ := Option.map_eq_some_iff.1 h
    have hsent : Delivered (begin spoiledHits rivalConfigs false) twiceInterrupted 1
        (.succeeded 0 "t" "z" 3) :=
      ⟨twiceInterrupted.take 15, twiceInterrupted.drop 16, _, _, rfl, by simp [twiceInterrupted],
        rfl, rfl, rfl⟩
    obtain ⟨⟨waitedMs, hpairs⟩, hapart, -⟩ := interrupted_results hrun hret rfl
    obtain ⟨r, hr, -, hdelivered, -⟩ := hpairs 0 1 (by decide) (by decide)
    exact ⟨b, hrun, hret, hsent, ⟨r, hr, hdelivered _ hsent⟩, hapart⟩
  · have h : ((begin (spoiledHits.take 1) (rivalConfigs.take 1) false).run? cancelledOnly).map
        (·.stage) = some (.returned (.completed abandonedResults 7)) := by decide
    obtain ⟨b, hrun, hret⟩ := Option.map_eq_some_iff.1 h
    have hunseen : cancelledOnly.any Event.seesDeadline = false := rfl
    obtain ⟨-, -, hprompt⟩ := interrupted_results hrun hret rfl
    exact ⟨b, hrun, hret, hunseen, hprompt hunseen⟩

end Fine

end Batch

end SemanticHighlight
