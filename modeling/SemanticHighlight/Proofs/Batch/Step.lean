import SemanticHighlight.Batch.Basic
import SemanticHighlight.Proofs.Rows

/-!
# Steps of a batch, case by case

`Batch.step?` says of each event what it makes of a batch. `Batch.Step` says the same as a
relation with one constructor for each thing that can happen, guards included, and
`step?_eq_some_iff` is that the two agree. What a step keeps is proved by cases on `Step`;
what every row of steps keeps follows by `run_induction`.
-/

namespace SemanticHighlight.Batch

/-- What a step can do to a batch. -/
inductive Step (b : Batch) : Event → Batch → Prop
  /-- There is no pair left to visit. -/
  | visitEnd (hs : b.stage = .visiting) (hp : b.pairs[b.slots.length]? = none) :
      Step b .visit { b with stage := .looking }
  /-- The next pair has no text. -/
  | visitSkip (p : Pair) (hs : b.stage = .visiting) (hp : b.pairs[b.slots.length]? = some p)
      (hc : p.context = none) :
      Step b .visit { b with slots := b.slots ++ [some p.skipped] }
  /-- The next pair has a text, but nothing is submitted any more. -/
  | visitPass (p : Pair) (hs : b.stage = .visiting) (hp : b.pairs[b.slots.length]? = some p)
      (hc : p.context ≠ none) (hstop : (b.expired || b.cancelled) = true) :
      Step b .visit { b with slots := b.slots ++ [none] }
  /-- The next pair has a text, and its task is to be submitted. -/
  | visitOpen (p : Pair) (hs : b.stage = .visiting) (hp : b.pairs[b.slots.length]? = some p)
      (hc : p.context ≠ none) (hgo : (b.expired || b.cancelled) = false) :
      Step b .visit
        { b with slots := b.slots ++ [none], stage := .submitting b.slots.length }
  | accept (slot : Nat) (hs : b.stage = .submitting slot) :
      Step b (.submit (.ok ()))
        { b with stage := .visiting, pending := b.pending + 1, queued := b.queued ++ [slot] }
  /-- The deadline came before the task had a place in the pool. -/
  | late (slot n : Nat) (hs : b.stage = .submitting slot) :
      Step b (.submit (.error (.late n))) { b with stage := .visiting, expired := true }
  | refuse (slot : Nat) (reason : Refusal) (hs : b.stage = .submitting slot)
      (hr : ∀ n, reason ≠ .late n) :
      Step b (.submit (.error reason)) { b with stage := .failing reason }
  | fail (reason : Refusal) (hs : b.stage = .failing reason) :
      Step b .fail { b with abandoned := true, stage := .returned (.refused reason) }
  | lookEnd (hs : b.stage = .looking) (hw : b.pending = 0 ∨ b.cancelled = true) :
      Step b .look { b with stage := .draining }
  | lookOn (hs : b.stage = .looking) (hn : b.pending ≠ 0) (hc : b.cancelled = false) :
      Step b .look { b with stage := .receiving }
  | expire (hs : b.stage = .looking) (hn : 0 < b.pending) (hc : b.cancelled = false) :
      Step b .expire { b with expired := true, stage := .draining }
  | receive (slot : Nat) (result : FieldResult) (rest : List (Nat × FieldResult))
      (hs : b.stage = .receiving) (hm : b.messages = (slot, result) :: rest)
      (hl : slot < b.slots.length) :
      Step b .receive
        { b with
          messages := rest, stage := .looking
          slots := b.slots.set slot (some result), pending := b.pending - 1 }
  /-- A message that names no slot is dropped. -/
  | receiveStray (slot : Nat) (result : FieldResult) (rest : List (Nat × FieldResult))
      (hs : b.stage = .receiving) (hm : b.messages = (slot, result) :: rest)
      (hl : ¬ slot < b.slots.length) :
      Step b .receive { b with messages := rest, stage := .looking }
  | idle (hs : b.stage = .receiving) (hm : b.messages = []) :
      Step b .idle { b with stage := .looking }
  | disconnect (hs : b.stage = .receiving) (hm : b.messages = []) (hq : b.isSilent = true) :
      Step b .disconnect { b with stage := .draining }
  | drain (slot : Nat) (result : FieldResult) (rest : List (Nat × FieldResult))
      (hs : b.stage = .draining) (hm : b.messages = (slot, result) :: rest) :
      Step b .drain
        { b with messages := rest, slots := b.slots.set slot (some result) }
  | settle (hs : b.stage = .draining) (hm : b.messages = []) :
      Step b .settle { b with stage := .concluding }
  | conclude (waitedMs elapsedNs : UInt64) (hs : b.stage = .concluding) :
      Step b (.conclude waitedMs elapsedNs) (b.conclude waitedMs elapsedNs)
  /-- The task finds the request cancelled. -/
  | startCancelled (slot : Nat) (durationMs : UInt64) (p : Pair)
      (hp : b.pairs[slot]? = some p) (hq : slot ∈ b.queued) (hc : b.cancelled = true) :
      Step b (.start slot durationMs)
        { b with
          queued := b.queued.erase slot
          reporting := b.reporting ++ [(slot, p.cancelled durationMs)] }
  /-- The task finds the batch given up. -/
  | startAbandoned (slot : Nat) (durationMs : UInt64) (p : Pair)
      (hp : b.pairs[slot]? = some p) (hq : slot ∈ b.queued) (hc : b.cancelled = false)
      (ha : b.abandoned = true) :
      Step b (.start slot durationMs)
        { b with
          queued := b.queued.erase slot
          reporting := b.reporting ++ [(slot, p.abandoned durationMs)] }
  /-- The task calls the backend. -/
  | startCall (slot : Nat) (durationMs : UInt64) (p : Pair)
      (hp : b.pairs[slot]? = some p) (hq : slot ∈ b.queued) (hc : b.cancelled = false)
      (ha : b.abandoned = false) :
      Step b (.start slot durationMs)
        { b with
          queued := b.queued.erase slot
          calling := b.calling ++ [slot], calls := b.calls ++ [slot] }
  | reply (slot : Nat) (p : Pair) (reply : Inference.Reply) (durationMs : UInt64)
      (hp : b.pairs[slot]? = some p) (hq : slot ∈ b.calling) :
      Step b (.reply slot reply durationMs)
        { b with
          calling := b.calling.erase slot
          reporting := b.reporting ++ [(slot, p.result reply durationMs)] }
  /-- The task breaks off, and nothing of it will arrive. -/
  | lose (slot : Nat) (hq : slot ∈ b.calling) :
      Step b (.lose slot) { b with calling := b.calling.erase slot, lost := b.lost ++ [slot] }
  | report (slot : Nat) (result : FieldResult)
      (hf : b.reporting.find? (·.1 = slot) = some (slot, result)) :
      Step b (.report slot)
        { b with
          reporting := b.reporting.erase (slot, result)
          messages := b.messages ++ [(slot, result)] }
  | cancel : Step b .cancel { b with cancelled := true }

variable {b b' : Batch} {e : Event}

/-- Whatever the function makes of a batch, the relation allows. -/
theorem Step.of_step? (h : b.step? e = some b') : Step b e b' := by
  cases e with
  | visit =>
    simp only [step?, Option.ite_none_right_eq_some, Option.some.injEq] at h
    obtain ⟨hs, rfl⟩ := h
    unfold visit
    split
    · next hp => exact .visitEnd hs hp
    · next p hp =>
      split
      · next hc => exact .visitSkip p hs hp (by simpa using hc)
      · next hc =>
        have hc : p.context ≠ none := by simpa using hc
        by_cases hgo : (b.expired || b.cancelled) = true
        · rw [if_pos hgo, ← hs]
          exact .visitPass p hs hp hc hgo
        · rw [if_neg hgo]
          exact .visitOpen p hs hp hc (by simpa using hgo)
  | submit answer =>
    simp only [step?] at h
    split at h
    · next slot hs =>
      cases h
      match answer with
      | .ok () => exact .accept slot hs
      -- being late is the one failed submission that does not end the batch
      | .error (.late n) => exact .late slot n hs
      | .error .shutDown => exact .refuse slot _ hs (by simp)
      | .error (.saturated n) => exact .refuse slot _ hs (by simp)
    · cases h
  | fail =>
    simp only [step?] at h
    split at h
    · next reason hs => cases h; exact .fail reason hs
    · cases h
  | look =>
    simp only [step?, Option.ite_none_right_eq_some, Option.some.injEq] at h
    obtain ⟨hs, rfl⟩ := h
    unfold look
    by_cases hw : b.pending = 0 ∨ b.cancelled = true
    · rw [if_pos (by simpa using hw)]
      exact .lookEnd hs hw
    · rw [if_neg (by simpa using hw)]
      obtain ⟨hn, hc⟩ := not_or.1 hw
      exact .lookOn hs hn (by simpa using hc)
  | expire =>
    simp only [step?, Option.ite_none_right_eq_some, Option.some.injEq] at h
    obtain ⟨⟨hs, hn, hc⟩, rfl⟩ := h
    exact .expire hs hn hc
  | receive =>
    simp only [step?] at h
    split at h
    · next slot result rest hs hm =>
      split at h
      · next hl => cases h; exact .receive slot result rest hs hm hl
      · next hl => cases h; exact .receiveStray slot result rest hs hm hl
    · cases h
  | idle =>
    simp only [step?, Option.ite_none_right_eq_some, Option.some.injEq] at h
    obtain ⟨⟨hs, hm⟩, rfl⟩ := h
    exact .idle hs hm
  | disconnect =>
    simp only [step?, Option.ite_none_right_eq_some, Option.some.injEq] at h
    obtain ⟨⟨hs, hm, hq⟩, rfl⟩ := h
    exact .disconnect hs hm hq
  | drain =>
    simp only [step?] at h
    split at h
    · next slot result rest hs hm => cases h; exact .drain slot result rest hs hm
    · cases h
  | settle =>
    simp only [step?, Option.ite_none_right_eq_some, Option.some.injEq] at h
    obtain ⟨⟨hs, hm⟩, rfl⟩ := h
    exact .settle hs hm
  | conclude waitedMs elapsedNs =>
    simp only [step?, Option.ite_none_right_eq_some, Option.some.injEq] at h
    obtain ⟨hs, rfl⟩ := h
    exact .conclude waitedMs elapsedNs hs
  | start slot durationMs =>
    simp only [step?] at h
    split at h
    · next p hp =>
      simp only [Option.ite_none_right_eq_some, Option.some.injEq] at h
      obtain ⟨hq, rfl⟩ := h
      unfold start
      by_cases hc : b.cancelled = true
      · rw [if_pos hc]
        exact .startCancelled slot durationMs p hp hq hc
      · rw [if_neg hc]
        have hc : b.cancelled = false := by simpa using hc
        by_cases ha : b.abandoned = true
        · rw [if_pos ha]
          exact .startAbandoned slot durationMs p hp hq hc ha
        · rw [if_neg ha]
          exact .startCall slot durationMs p hp hq hc (by simpa using ha)
    · cases h
  | reply slot reply durationMs =>
    simp only [step?] at h
    split at h
    · next p hp =>
      simp only [Option.ite_none_right_eq_some, Option.some.injEq] at h
      obtain ⟨hq, rfl⟩ := h
      exact .reply slot p reply durationMs hp hq
    · cases h
  | lose slot =>
    simp only [step?, Option.ite_none_right_eq_some, Option.some.injEq] at h
    obtain ⟨hq, rfl⟩ := h
    exact .lose slot hq
  | report slot =>
    simp only [step?] at h
    split at h
    · next message hf =>
      cases h
      obtain ⟨slot', result⟩ := message
      have hslot : slot' = slot := by simpa using List.find?_some hf
      subst hslot
      exact .report slot' result hf
    · cases h
  | cancel =>
    simp only [step?] at h
    cases h
    exact .cancel

/-- Whatever the relation allows, the function makes of a batch. -/
theorem Step.step?_eq (h : Step b e b') : b.step? e = some b' := by
  cases h with
  | refuse slot reason hs hr =>
    cases reason with
    | late n => exact absurd rfl (hr n)
    | _ => simp [step?, hs, submitted]
  | receiveStray slot result rest hs hm hl => simp [step?, hs, hm, hl]
  | _ => simp_all [step?, visit, submitted, look, start, fill]

/-- The relation says what the function does. -/
theorem step?_eq_some_iff : b.step? e = some b' ↔ Step b e b' :=
  ⟨Step.of_step?, Step.step?_eq⟩

/-- A batch that has returned stays so. -/
theorem Step.stage_of_returned {ending : Ending} (h : Step b e b')
    (hret : b.stage = .returned ending) : b'.stage = .returned ending := by
  cases h with
  | startCancelled | startAbandoned | startCall | reply | lose | report | cancel => exact hret
  | visitEnd hs | visitSkip _ hs | visitPass _ hs | visitOpen _ hs | accept _ hs
  | late _ _ hs | refuse _ _ hs | fail _ hs | lookEnd hs | lookOn hs | expire hs
  | receive _ _ _ hs | receiveStray _ _ _ hs | idle hs | disconnect hs | drain _ _ _ hs
  | settle hs | conclude _ _ hs => rw [hs] at hret; cases hret

/-! ## Rows of steps -/

theorem run?_concat (b : Batch) (events : List Event) (e : Event) :
    b.run? (events ++ [e]) = (b.run? events).bind (·.step? e) :=
  Rows.foldlM_concat b events e

/-- What holds at the start and is kept by each step holds after every row of steps. It may
speak of the steps taken so far. -/
theorem run_induction {I : List Event → Batch → Prop} {b₀ : Batch} (start : I [] b₀)
    (step : ∀ events b e b', b₀.run? events = some b → I events b → Step b e b' →
      I (events ++ [e]) b') :
    ∀ events b, b₀.run? events = some b → I events b :=
  fun _ _ => Rows.induction start fun {events b e b'} hrun h hstep =>
    step events b e b' hrun h (step?_eq_some_iff.1 hstep)

end SemanticHighlight.Batch
