import SemanticHighlight.Batch.Basic

/-!
# Batches at a finer grain

A task looks at the flags of its batch one after the other: whether the request is
cancelled and, if not, whether the batch was given up. `Batch.step?` takes both looks for
one step. `Fine.step?` takes them apart, so that the caller, other tasks and a cancellation
can come in between.
-/

namespace SemanticHighlight.Batch

/-- A batch whose tasks look at its flags one after the other. A task counts as queued until
it has looked at both. -/
structure Fine extends Batch where
  /-- The slots of the tasks that found the request not cancelled and are to look again. -/
  between : List Nat := []
deriving DecidableEq, Repr

namespace Fine

/-- What can happen next. -/
inductive Event where
  /-- Anything but the start of a task. -/
  | other (event : Batch.Event)
  /-- A worker starts the task of a slot, which looks whether the request is cancelled. It
  took so long if that is its end. -/
  | look (slot : Nat) (durationMs : UInt64)
  /-- The task of a slot looks whether the batch was given up. It took so long if that is its
  end. -/
  | lookAgain (slot : Nat) (durationMs : UInt64)

/-- The batch over hits and configurations before its first step. -/
def begin (hits : List HitData) (configs : List FieldConfig) (cancelled : Bool) : Fine :=
  { toBatch := .begin hits configs cancelled }

/-- The task of a slot looks whether the request is cancelled. -/
def look (b : Fine) (slot : Nat) (p : Pair) (durationMs : UInt64) : Fine :=
  if b.cancelled then
    { b with
      queued := b.queued.erase slot
      reporting := b.reporting ++ [(slot, p.cancelled durationMs)] }
  else { b with between := b.between ++ [slot] }

/-- The task of a slot looks whether the batch was given up, and calls the backend if not. -/
def lookAgain (b : Fine) (slot : Nat) (p : Pair) (durationMs : UInt64) : Fine :=
  let b := { b with between := b.between.erase slot, queued := b.queued.erase slot }
  if b.abandoned then
    { b with reporting := b.reporting ++ [(slot, p.abandoned durationMs)] }
  else { b with calling := b.calling ++ [slot], calls := b.calls ++ [slot] }

/-- A step of the caller or of a task, if it is possible. -/
def step? (b : Fine) : Event → Option Fine
  | .other (.start _ _) => none
  | .other event => (b.toBatch.step? event).map fun b' => { b with toBatch := b' }
  | .look slot durationMs =>
    match b.pairs[slot]? with
    | some p =>
      if slot ∈ b.queued ∧ slot ∉ b.between then some (b.look slot p durationMs) else none
    | none => none
  | .lookAgain slot durationMs =>
    match b.pairs[slot]? with
    | some p => if slot ∈ b.between then some (b.lookAgain slot p durationMs) else none
    | none => none

/-- What a row of steps leads to, if all of them are possible. -/
def run? (b : Fine) (events : List Event) : Option Fine := events.foldlM step? b

theorem run?_append (b : Fine) (first second : List Event) :
    b.run? (first ++ second) = (b.run? first).bind (·.run? second) := by
  simp [run?, List.foldlM_append]

end Fine

end SemanticHighlight.Batch
