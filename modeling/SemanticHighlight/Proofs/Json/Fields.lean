import SemanticHighlight.Json.Basic

/-!
# Looking up what was written

A record is written as the members of those fields that are present (`Json.present`), and read
by looking up keys (`Json.member?`). `member?_present` says what is found among the members
that were written, field by field. `bind_eq_ok_iff` and `map_eq_ok_iff` take a computation that
may fail apart.
-/

namespace SemanticHighlight

/-- A computation in two steps succeeds exactly if both do. -/
theorem bind_eq_ok_iff {ε α β : Type} {x : Except ε α} {f : α → Except ε β} {b : β} :
    (x >>= f) = .ok b ↔ ∃ a, x = .ok a ∧ f a = .ok b := by
  cases x with
  | error e =>
    refine ⟨fun h => ?_, fun ⟨a, ha, _⟩ => ?_⟩
    · cases h
    · cases ha
  | ok a =>
    refine ⟨fun h => ⟨a, rfl, h⟩, fun ⟨a', ha, h⟩ => ?_⟩
    cases ha
    exact h

/-- What is made of the result of a computation is there exactly if the computation succeeds. -/
theorem map_eq_ok_iff {ε α β : Type} {x : Except ε α} {f : α → β} {b : β} :
    x.map f = .ok b ↔ ∃ a, x = .ok a ∧ f a = b := by
  cases x <;> simp [Except.map]

/-- A computation that has a result with a certain property, of those one can compute, succeeds. -/
theorem toOption_map_eq_some_iff {ε α β : Type} {x : Except ε α} {f : α → β} {b : β} :
    x.toOption.map f = some b ↔ ∃ a, x = .ok a ∧ f a = b := by
  cases x <;> simp [Except.toOption]

namespace Json

variable {α : Type}

@[simp] theorem present_nil : present [] = [] := rfl

@[simp] theorem present_none (key : String) (fields : List (String × Option Json)) :
    present ((key, none) :: fields) = present fields := rfl

@[simp] theorem present_some (key : String) (j : Json) (fields : List (String × Option Json)) :
    present ((key, some j) :: fields) = (key, j) :: present fields := rfl

theorem present_append (fields rest : List (String × Option Json)) :
    present (fields ++ rest) = present fields ++ present rest := List.filterMap_append

@[simp] theorem member?_nil (key : String) : member? ([] : List (String × α)) key = none := rfl

@[simp] theorem member?_cons (k : String) (a : α) (ms : List (String × α)) (key : String) :
    member? ((k, a) :: ms) key = if k = key then some a else member? ms key := rfl

/-- What is found under a key among the fields that are present. -/
theorem member?_present (k : String) (j? : Option Json) (fields : List (String × Option Json))
    (key : String) :
    member? (present ((k, j?) :: fields)) key =
      if k = key then j?.or (member? (present fields) key) else member? (present fields) key := by
  cases j? with
  | some j => rw [present_some, member?_cons, Option.some_or]
  | none => rw [present_none, Option.none_or, ite_self]

end Json

end SemanticHighlight
