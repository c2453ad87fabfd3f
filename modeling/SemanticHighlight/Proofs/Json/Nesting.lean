import SemanticHighlight.Proofs.Json.Texts
import SemanticHighlight.Proofs.Json.Value

/-!
# How deeply a document nests

A text is read for its value only up to a limit of arrays and objects inside one another.
`limitNesting` leaves a document alone that keeps to the limit (`limitNesting_eq`) and makes some
place of any other unreadable (`nesting_le_of_isReadable`); both are by recursion on the document
with its items and members.

Main statement (`readValue_compact`): the text of a value is read exactly if the value keeps to
the limit, and then as what is the same but for the numbers.
-/

namespace SemanticHighlight.Json

mutual

/-- How many arrays and objects stand inside one another. -/
def nesting : Json → Nat
  | .array js => nestingItems js + 1
  | .object ms => nestingMembers ms + 1
  | _ => 0

def nestingItems : List Json → Nat
  | [] => 0
  | j :: js => max (nesting j) (nestingItems js)

def nestingMembers : List (String × Json) → Nat
  | [] => 0
  | (_, j) :: ms => max (nesting j) (nestingMembers ms)

end

/-! ## The limit -/

theorem limitNesting_array (depth : Nat) (js : List Json) :
    limitNesting (depth + 1) (.array js) = .array (limitItems depth js) := rfl

theorem limitNesting_object (depth : Nat) (ms : List (String × Json)) :
    limitNesting (depth + 1) (.object ms) = .object (limitMembers depth ms) := rfl

mutual

/-- A document that keeps to the limit is left alone. -/
theorem limitNesting_eq : ∀ {j : Json} {depth : Nat}, nesting j ≤ depth → limitNesting depth j = j
  | .null, depth, _ | .bool _, depth, _ | .number _, depth, _ | .string _, depth, _
  | .unreadable, depth, _ => by
    cases depth <;> rfl
  | .array js, depth + 1, h => by
    rw [limitNesting_array, limitItems_eq (Nat.le_of_succ_le_succ h)]
  | .object ms, depth + 1, h => by
    rw [limitNesting_object, limitMembers_eq (Nat.le_of_succ_le_succ h)]

/-- The limit leaves a list alone that keeps within it. -/
theorem limitItems_eq : ∀ {js : List Json} {depth : Nat}, nestingItems js ≤ depth →
    limitItems depth js = js
  | [], _, _ => rfl
  | j :: js, depth, h => by
    obtain ⟨hj, hjs⟩ := Nat.max_le.1 h
    rw [limitItems, limitNesting_eq hj, limitItems_eq hjs]

/-- The limit leaves the members of an object alone that keep within it. -/
theorem limitMembers_eq : ∀ {ms : List (String × Json)} {depth : Nat}, nestingMembers ms ≤ depth →
    limitMembers depth ms = ms
  | [], _, _ => rfl
  | (key, j) :: ms, depth, h => by
    obtain ⟨hj, hms⟩ := Nat.max_le.1 h
    rw [limitMembers, limitNesting_eq hj, limitMembers_eq hms]

end

mutual

/-- A document that does not keep to the limit is unreadable at some place. -/
theorem nesting_le_of_isReadable : ∀ {j : Json} {depth : Nat},
    (limitNesting depth j).isReadable = true → nesting j ≤ depth
  | .null, _, _ | .bool _, _, _ | .number _, _, _ | .string _, _, _ | .unreadable, _, _ =>
    Nat.zero_le _
  | .array js, 0, h | .object ms, 0, h => by
    cases h
  | .array js, depth + 1, h => by
    rw [limitNesting_array] at h
    exact Nat.succ_le_succ (nestingItems_le h)
  | .object ms, depth + 1, h => by
    rw [limitNesting_object] at h
    exact Nat.succ_le_succ (nestingMembers_le h)

/-- What is readable after the limit was applied kept within it: the items of a list. -/
theorem nestingItems_le : ∀ {js : List Json} {depth : Nat},
    areReadable (limitItems depth js) = true → nestingItems js ≤ depth
  | [], _, _ => Nat.zero_le _
  | j :: js, depth, h => by
    obtain ⟨hj, hjs⟩ := Bool.and_eq_true_iff.1 h
    exact Nat.max_le.2 ⟨nesting_le_of_isReadable hj, nestingItems_le hjs⟩

/-- The same for the members of an object. -/
theorem nestingMembers_le : ∀ {ms : List (String × Json)} {depth : Nat},
    areMembersReadable (limitMembers depth ms) = true → nestingMembers ms ≤ depth
  | [], _, _ => Nat.zero_le _
  | (key, j) :: ms, depth, h => by
    obtain ⟨hj, hms⟩ := Bool.and_eq_true_iff.1 h
    exact Nat.max_le.2 ⟨nesting_le_of_isReadable hj, nestingMembers_le hms⟩

end

/-! ## Other numbers, the same document -/

variable {R : Number → Number → Prop}

mutual

/-- Exchanging numbers does not change how deep a document is nested, which goes by its lists and
objects. -/
theorem Renumbered.nesting_eq : ∀ {j j' : Json}, Renumbered R j j' → nesting j' = nesting j
  | _, _, .null | _, _, .bool _ | _, _, .number _ | _, _, .string _ => rfl
  | _, _, .array h => congrArg (· + 1) h.nestingItems_eq
  | _, _, .object h => congrArg (· + 1) h.nestingMembers_eq

theorem RenumberedItems.nestingItems_eq : ∀ {js js' : List Json}, RenumberedItems R js js' →
    nestingItems js' = nestingItems js
  | _, _, .nil => rfl
  | _, _, .cons h hs => by
    rw [nestingItems, nestingItems, h.nesting_eq, hs.nestingItems_eq]

theorem RenumberedMembers.nestingMembers_eq : ∀ {ms ms' : List (String × Json)},
    RenumberedMembers R ms ms' → nestingMembers ms' = nestingMembers ms
  | _, _, .nil => rfl
  | _, _, .cons h hs => by
    rw [nestingMembers, nestingMembers, h.nesting_eq, hs.nestingMembers_eq]

end

theorem RenumberedMembers.keys_eq : ∀ {ms ms' : List (String × Json)},
    RenumberedMembers R ms ms' → keys ms' = keys ms
  | _, _, .nil => rfl
  | _, _, .cons h hs => by rw [keys_cons, keys_cons, hs.keys_eq]

mutual

/-- A document stays one that could be held in memory when its numbers are exchanged. -/
theorem Renumbered.isValue : ∀ {j j' : Json}, Renumbered R j j' → j.IsValue → j'.IsValue
  | _, _, .null, h | _, _, .bool _, h | _, _, .string _, h => h
  | _, _, .number _, _ => isValue_number _
  | _, _, .array hs, h => isValue_array_iff.2 (hs.isValue (isValue_array_iff.1 h))
  | _, _, .object hs, h => by
    obtain ⟨hkeys, hvalues⟩ := isValue_object_iff.1 h
    exact isValue_object_iff.2 ⟨hs.keys_eq.symm ▸ hkeys, hs.isValue hvalues⟩

/-- The same for the items of a list. -/
theorem RenumberedItems.isValue : ∀ {js js' : List Json}, RenumberedItems R js js' →
    (∀ j ∈ js, j.IsValue) → ∀ j ∈ js', j.IsValue
  | _, _, .nil, _ => fun _ hj => absurd hj List.not_mem_nil
  | _, _, .cons hj hjs, h => by
    obtain ⟨hhead, htail⟩ := List.forall_mem_cons.1 h
    exact List.forall_mem_cons.2 ⟨hj.isValue hhead, hjs.isValue htail⟩

/-- The same for the members of an object. -/
theorem RenumberedMembers.isValue : ∀ {ms ms' : List (String × Json)},
    RenumberedMembers R ms ms' → (∀ m ∈ ms, m.2.IsValue) → ∀ m ∈ ms', m.2.IsValue
  | _, _, .nil, _ => fun _ hm => absurd hm List.not_mem_nil
  | _, _, .cons hj hms, h => by
    obtain ⟨hhead, htail⟩ := List.forall_mem_cons.1 h
    exact List.forall_mem_cons.2 ⟨hj.isValue hhead, hms.isValue htail⟩

end

/-! ## Reading a text for its value -/

/-- **The text of a value is read** exactly if the value keeps to the limit, and then as what is
the same but for its numbers. -/
theorem readValue_compact {j j' : Json} (h : Renumbered Number.Reads j j') (hj : j.IsValue) :
    readValue j.compact =
      if j.nesting ≤ nestingLimit then .ok j' else .error .malformed := by
  unfold readValue read
  rw [parse?_compact h]
  show Decode.value (j'.limitNesting nestingLimit) = _
  split
  · next hle =>
    rw [limitNesting_eq (by rw [h.nesting_eq]; exact hle)]
    exact (h.isValue hj).value_eq
  · next hdeep =>
    unfold Decode.value
    rw [if_neg]
    intro hreadable
    exact hdeep (h.nesting_eq ▸ nesting_le_of_isReadable hreadable)

end SemanticHighlight.Json
