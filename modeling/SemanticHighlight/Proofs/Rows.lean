import Mathlib.Data.List.Induction

/-!
# Rows of steps

Batches, requests and pools take one step after another, and a step that is not possible leads
nowhere. `Rows.induction` is the one induction that such rows need: it goes from the end, for a
step comes after the others, and what it carries may speak of the steps taken so far.

`Rows.notes` is a record kept beside a row: something may be noted of each step, by the state in
which it is taken. Most steps change one entry of a list, a slot or a caller, and
`Rows.getElem?_of_set` tells the new entry from the old ones.
-/

namespace SemanticHighlight.Rows

variable {α σ ε β : Type} {step : σ → ε → Option σ} {note : σ → ε → Option β}

/-- What a list holds after one entry was set it held before, or it is the one that was set. -/
theorem getElem?_of_set {l : List α} {i j : Nat} {new a : α} (h : (l.set i new)[j]? = some a) :
    (i ≠ j ∧ l[j]? = some a) ∨ (j = i ∧ a = new) := by
  by_cases he : i = j
  · subst he
    have hlt := (List.getElem?_eq_some_iff.1 h).1
    rw [List.length_set] at hlt
    rw [List.getElem?_set_self hlt] at h
    exact .inr ⟨rfl, (Option.some.inj h).symm⟩
  · rw [List.getElem?_set_ne he] at h
    exact .inl ⟨he, h⟩

/-- A row of steps ends with its last one. -/
theorem foldlM_concat (s : σ) (events : List ε) (e : ε) :
    (events ++ [e]).foldlM step s = (events.foldlM step s).bind (step · e) := by
  rw [List.foldlM_append]
  congr 1
  funext s'
  rw [List.foldlM_cons]
  exact Option.bind_fun_some _

/-- What holds at the start and is kept by each step holds after every row of steps. -/
theorem induction {I : List ε → σ → Prop} {s₀ : σ} (start : I [] s₀)
    (next : ∀ {events : List ε} {s : σ} {e : ε} {s' : σ}, events.foldlM step s₀ = some s →
      I events s → step s e = some s' → I (events ++ [e]) s')
    {events : List ε} {s : σ} (hrun : events.foldlM step s₀ = some s) : I events s := by
  induction events using List.reverseRecOn generalizing s with
  | nil =>
    cases hrun
    exact start
  | append_singleton events e ih =>
    rw [foldlM_concat] at hrun
    obtain ⟨s', hbefore, hstep⟩ := Option.bind_eq_some_iff.1 hrun
    exact next hbefore (ih hbefore) hstep

/-- What is noted of a row of steps, the first one first. -/
def notes (step : σ → ε → Option σ) (note : σ → ε → Option β) (s : σ) : List ε → List β
  | [] => []
  | e :: events =>
    (note s e).toList ++
      match step s e with
      | some s' => notes step note s' events
      | none => []

/-- The record of a longer row is that of the row before, and what the last step adds to it. -/
theorem notes_concat {s s' : σ} {events : List ε} (hrun : events.foldlM step s = some s')
    (e : ε) :
    notes step note s (events ++ [e]) = notes step note s events ++ (note s' e).toList := by
  induction events generalizing s with
  | nil =>
    obtain rfl : s = s' := Option.some.inj hrun
    show (note s e).toList ++ _ = _
    cases step s e <;> simp [notes]
  | cons first events ih =>
    obtain ⟨between, hfirst, hrun⟩ := Option.bind_eq_some_iff.1 hrun
    rw [List.cons_append, notes, notes, hfirst]
    dsimp only
    rw [ih hrun, List.append_assoc]

end SemanticHighlight.Rows
