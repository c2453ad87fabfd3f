import SemanticHighlight.Proofs.Dictionary.Put
import SemanticHighlight.Proofs.Json.Record

/-!
# Dictionaries are read back

If no key is given twice, a dictionary holds what it was made of (`find?_ofEntries`), so a
dictionary is made of its own entries (`ofEntries_entries`). It is written as an object with a
member for each entry, and read back from it (`decode_object`). For the other direction, an entry
of a dictionary that was read comes from a member of an object (`exists_of_decode`).

Options, and the unknown members of a hit, are dictionaries of values: `HoldsValues`.
-/

namespace SemanticHighlight.Dictionary

variable {α : Type} {d : Dictionary α} {entries : List (String × α)} {key name : String}
  {decoder : Json.Decoder α} {encode : α → Json}

/-- No key has two entries. -/
theorem nodup_keys (d : Dictionary α) : (Json.keys d.entries).Nodup := by
  refine List.pairwise_map.2 (d.ordered.imp fun {a b} hlt heq => ?_)
  have heq : a.1 = b.1 := heq
  exact String.lt_irrefl b.1 (heq ▸ hlt)

/-- The step of an induction from the end. -/
theorem ofEntries_concat (entries : List (String × α)) (entry : String × α) :
    ofEntries (entries ++ [entry]) = (ofEntries entries).put entry.1 entry.2 := by
  unfold ofEntries
  rw [List.foldl_append]
  rfl

/-- A dictionary made of entries holds none but these. -/
theorem mem_of_mem_ofEntries {entry : String × α} (h : entry ∈ (ofEntries entries).entries) :
    entry ∈ entries := by
  induction entries using List.reverseRecOn with
  | nil => exact h
  | append_singleton entries last ih =>
    rw [ofEntries_concat] at h
    rcases mem_insert h with rfl | h
    · exact List.mem_append_right _ List.mem_cons_self
    · exact List.mem_append_left _ (ih h)

/-- If no key is given twice, each has the value it is given with. -/
theorem find?_ofEntries (hnodup : (Json.keys entries).Nodup) (key : String) :
    (ofEntries entries).find? key = Json.member? entries key := by
  have hlast := find?_putAll entries empty key
  rw [find?_empty, Option.or_none] at hlast
  rw [← Json.distinct_eq_self hnodup, Json.member?_distinct, Json.distinct_eq_self hnodup]
  exact hlast

/-- A dictionary is made of its own entries. -/
theorem ofEntries_entries (d : Dictionary α) : ofEntries d.entries = d :=
  ext fun key => find?_ofEntries d.nodup_keys key

/-! ## Written and read -/

theorem keys_map {β : Type} (f : α → β) (d : Dictionary α) :
    Json.keys (d.map f).entries = Json.keys d.entries :=
  List.map_map

theorem forall_mem_map {β : Type} {f : α → β} {P : β → Prop} :
    (∀ entry ∈ (d.map f).entries, P entry.2) ↔ ∀ entry ∈ d.entries, P (f entry.2) :=
  List.forall_mem_map

/-- A dictionary is read back from the object of its entries. -/
theorem decode_object (h : ∀ entry ∈ d.entries, decoder (encode entry.2) = .ok entry.2) :
    decode decoder (.object (d.map encode).entries) = .ok d :=
  map_eq_ok_iff.2 ⟨d.entries, Json.eachMember_map h, d.ofEntries_entries⟩

/-- A dictionary that is left out when it is empty. -/
theorem defaulted_at {r : Json.Record} {fields : List (String × Option Json)}
    (hr : Json.Record.Holds r fields) (i : Nat)
    (hi : fields[i]? = some (name, d.toJson? encode))
    (h : ∀ entry ∈ d.entries, decoder (encode entry.2) = .ok entry.2) :
    r.defaulted name empty (decode decoder) = .ok d := by
  unfold Json.Record.defaulted
  rw [hr.member?_at i hi]
  unfold toJson? Json.nonempty
  by_cases hempty : (d.map encode).entries.isEmpty = true
  · have hnil : d.entries = [] := List.map_eq_nil_iff.1 (List.isEmpty_iff.1 hempty)
    rw [if_pos hempty]
    exact congrArg Except.ok (eq_of_entries hnil.symm)
  · rw [if_neg hempty]
    exact decode_object h

/-- What stands in a dictionary that was read comes from a document. -/
theorem exists_of_decode {j : Json} (h : decode decoder j = .ok d) :
    ∀ entry ∈ d.entries, ∃ j, decoder j = .ok entry.2 := by
  obtain ⟨entries, hentries, rfl⟩ := map_eq_ok_iff.1 h
  intro entry hentry
  cases j with
  | object ms =>
    obtain ⟨m, -, -, hm⟩ :=
      Json.exists_of_forall₂ (Json.eachMember_eq_ok_iff.1 hentries) entry
        (mem_of_mem_ofEntries hentry)
    exact ⟨m.2, hm⟩
  | null | bool | number | string | array | unreadable => cases hentries

/-- Every value of a dictionary that was read comes from a document that was. -/
theorem exists_of_defaulted {r : Json.Record}
    (h : r.defaulted name empty (decode decoder) = .ok d) :
    ∀ entry ∈ d.entries, ∃ j, decoder j = .ok entry.2 := by
  rcases Json.Record.of_defaulted h with rfl | ⟨j, -, hj⟩
  · exact fun _ hentry => absurd hentry List.not_mem_nil
  · exact exists_of_decode hj

/-- A dictionary as an object is a value if its entries are. -/
theorem isValue_object (h : ∀ entry ∈ d.entries, (encode entry.2).IsValue) :
    (Json.object (d.map encode).entries).IsValue := by
  refine Json.isValue_object_iff.2 ⟨?_, fun m hm => forall_mem_map.2 h m hm⟩
  rw [keys_map]
  exact d.nodup_keys

theorem holdsValue_toJson? (h : ∀ entry ∈ d.entries, (encode entry.2).IsValue) :
    Json.HoldsValue (d.toJson? encode) :=
  Json.holdsValue_nonempty (isValue_object h)

/-! ## Dictionaries of values -/

/-- Whether each entry has a value. -/
def HoldsValues (d : Dictionary Json) : Prop := ∀ entry ∈ d.entries, entry.2.IsValue

/-- Entries that were read have values. -/
theorem holdsValues_of_defaulted {r : Json.Record} {d : Dictionary Json}
    (h : r.defaulted name empty (decode Json.Decode.value) = .ok d) : d.HoldsValues := by
  intro entry hentry
  obtain ⟨j, hj⟩ := exists_of_defaulted h entry hentry
  exact Json.isValue_of_value hj

theorem HoldsValues.value_eq {d : Dictionary Json} (h : d.HoldsValues) :
    ∀ entry ∈ d.entries, Json.Decode.value (id entry.2) = .ok entry.2 :=
  fun entry hentry => (h entry hentry).value_eq

theorem HoldsValues.holdsValue {d : Dictionary Json} (h : d.HoldsValues) :
    Json.HoldsValue (d.toJson? id) :=
  holdsValue_toJson? h

end SemanticHighlight.Dictionary
