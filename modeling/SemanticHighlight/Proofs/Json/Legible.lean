import SemanticHighlight.Proofs.Json.Nesting

/-!
# Documents that survive their text

A document is *legible* if each number in it is read back from its text. It is then read back from
its own compact text, as far as it keeps to the limit on nesting. A value that is read back from
its text is legible (`legible_of_readValue`), and records, lists and objects are legible if their
parts are; so a document is read back that carries such values among texts and numbers of 64 bits.
-/

namespace SemanticHighlight.Json

/-- Whether each number of a document is read back from its text. -/
def Legible (j : Json) : Prop := Renumbered Number.Reads j j

/-- Whether a field, if it is present, holds a legible document. -/
def HoldsLegible (j? : Option Json) : Prop := ∀ j, j? = some j → j.Legible

variable {α : Type} {j v w : Json}

/-! ## Reading -/

/-- A value is read exactly if it keeps to the limit and its numbers are read as numbers, and then
as what is the same but for these. -/
theorem readValue_compact_eq_ok_iff (hv : v.IsValue) :
    readValue v.compact = .ok w ↔ v.nesting ≤ nestingLimit ∧ Renumbered Number.Reads v w := by
  constructor
  · intro h
    unfold readValue read at h
    rw [parse?_compact_eq] at h
    have hread : Decode.value (v.placed.limitNesting nestingLimit) = .ok w := h
    -- what was read is readable, so it kept within the limit of nesting
    have hreadable : (v.placed.limitNesting nestingLimit).isReadable = true := by
      unfold Decode.value at hread
      split at hread
      · assumption
      · cases hread
    have hle := nesting_le_of_isReadable hreadable
    rw [limitNesting_eq hle] at hread hreadable
    have hsame := renumbered_placed hv.readable hreadable
    rw [(hsame.isValue hv).value_eq] at hread
    cases hread
    exact ⟨hsame.nesting_eq ▸ hle, hsame⟩
  · rintro ⟨hle, h⟩
    rw [readValue_compact h hv, if_pos hle]

/-- What is read back from its text is a value, and legible. -/
theorem legible_of_readValue (h : readValue v.compact = .ok v) : v.IsValue ∧ v.Legible := by
  obtain ⟨j, -, hj⟩ := bind_eq_ok_iff.1 h
  have hv := isValue_of_value hj
  exact ⟨hv, ((readValue_compact_eq_ok_iff hv).1 h).2⟩

/-! ## Parts -/

/-- A list of legible documents is legible. -/
theorem legible_array {js : List Json} (h : ∀ j ∈ js, j.Legible) : (array js).Legible := by
  refine .array ?_
  induction js with
  | nil => exact .nil
  | cons j js ih =>
    obtain ⟨hj, hjs⟩ := List.forall_mem_cons.1 h
    exact .cons hj (ih hjs)

/-- An object is legible exactly if every value in it is; keys always are. -/
theorem legible_object_iff {ms : List (String × Json)} :
    (object ms).Legible ↔ ∀ m ∈ ms, m.2.Legible := by
  constructor
  · intro h
    cases h with
    | object h =>
      -- on the members, whose keys play no part
      induction ms with
      | nil => exact fun _ hm => absurd hm List.not_mem_nil
      | cons m ms ih =>
        cases h with
        | cons hm hms => exact List.forall_mem_cons.2 ⟨hm, ih hms⟩
  · intro h
    refine .object ?_
    induction ms with
    | nil => exact .nil
    | cons m ms ih =>
      obtain ⟨hm, hms⟩ := List.forall_mem_cons.1 h
      exact .cons hm (ih hms)

theorem legible_string (s : String) : (string s).Legible := .string s

theorem legible_ofStrings (ss : List String) : (ofStrings ss).Legible := by
  refine legible_array fun j hj => ?_
  obtain ⟨s, -, rfl⟩ := List.mem_map.1 hj
  exact legible_string s

theorem legible_ofUInt64 (n : UInt64) : (ofUInt64 n).Legible := by
  have hn := n.toNat_lt
  exact .number (Number.reads_integer (by omega) (by omega))

theorem holdsLegible_map {encode : α → Json} {x : Option α} (h : ∀ a, (encode a).Legible) :
    HoldsLegible (x.map encode) := by
  intro j hj
  obtain ⟨a, -, rfl⟩ := Option.map_eq_some_iff.1 hj
  exact h a

theorem holdsLegible_some (h : j.Legible) : HoldsLegible (some j) := by
  rintro _ ⟨⟩
  exact h

theorem legible_ofFields {fields : List (String × Option Json)}
    (h : ∀ field ∈ fields, HoldsLegible field.2) : (ofFields fields).Legible :=
  legible_object_iff.2 fun m hm => h _ (mem_present.1 hm) m.2 rfl

end SemanticHighlight.Json
