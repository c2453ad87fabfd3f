import SemanticHighlight.Block
import SemanticHighlight.Proofs.Dictionary.Entries

/-!
# Highlight blocks are read back

A block that was read has options that are values, in order, for itself and for each of its
directives (`Block.IsRead`). It is read back from its document, which repeats a field as often as
the block does (`Block.decode_document`). As a value a block has one entry for each field, and
what is read back is what the value keeps: of the directives for a field the last, in the place
of the first (`Block.perField`, `Block.decode_toJson`). That is the block itself exactly if no
field has two directives (`Block.perField_eq_self_iff`).
-/

namespace SemanticHighlight

namespace Directive

variable {d : Directive} {ds : List Directive} {j : Json}

/-! ## One directive -/

theorem nodup_parts : parts.Nodup := by decide

/-- A directive is read back, but for its field, which is no part of its object. -/
theorem decode_toJson (h : d.options.HoldsValues) :
    decode d.toJson = .ok { d with field := "" } := by
  obtain ⟨r, hrecord, hr⟩ : ∃ r, Json.record parts [] d.toJson = .ok r ∧ r.Holds _ :=
    Json.exists_record rfl nodup_parts fun _ _ => rfl
  unfold decode
  refine bind_eq_ok_iff.2 ⟨r, hrecord, ?_⟩
  refine bind_eq_ok_iff.2 ⟨_, hr.optional_at 0 rfl fun s _ => Json.readsBack_text s, ?_⟩
  refine bind_eq_ok_iff.2 ⟨_, hr.optional_at 1 rfl fun ss _ => Json.readsBack_strings ss, ?_⟩
  refine bind_eq_ok_iff.2 ⟨_, hr.optional_at 2 rfl fun ss _ => Json.readsBack_strings ss, ?_⟩
  refine bind_eq_ok_iff.2 ⟨_, hr.optional_at 3 rfl fun n _ => Json.readsBack_uint64 n, ?_⟩
  refine bind_eq_ok_iff.2 ⟨_, hr.optional_at 4 rfl fun n _ => Json.readsBack_uint64 n, ?_⟩
  refine bind_eq_ok_iff.2 ⟨_, Dictionary.defaulted_at hr 5 rfl h.value_eq, ?_⟩
  rfl

/-- The options of a directive that was read are values. -/
theorem holdsValues_of_decode (h : decode j = .ok d) : d.options.HoldsValues := by
  unfold decode at h
  obtain ⟨r, -, h⟩ := bind_eq_ok_iff.1 h
  obtain ⟨highlighter, -, h⟩ := bind_eq_ok_iff.1 h
  obtain ⟨preTags, -, h⟩ := bind_eq_ok_iff.1 h
  obtain ⟨postTags, -, h⟩ := bind_eq_ok_iff.1 h
  obtain ⟨fragmentSize, -, h⟩ := bind_eq_ok_iff.1 h
  obtain ⟨fragmentCount, -, h⟩ := bind_eq_ok_iff.1 h
  obtain ⟨options, hoptions, h⟩ := bind_eq_ok_iff.1 h
  cases h
  exact Dictionary.holdsValues_of_defaulted hoptions

/-- A directive prints as a value if its options are values. -/
theorem isValue_toJson (h : d.options.HoldsValues) : d.toJson.IsValue := by
  refine Json.isValue_ofFields nodup_parts ?_
  simp only [List.forall_mem_cons]
  refine ⟨Json.holdsValue_map fun s _ => Json.isValue_string s,
    Json.holdsValue_map fun ss _ => Json.isValue_ofStrings ss,
    Json.holdsValue_map fun ss _ => Json.isValue_ofStrings ss,
    Json.holdsValue_map fun _ _ => Json.isValue_number _,
    Json.holdsValue_map fun _ _ => Json.isValue_number _,
    h.holdsValue, fun _ hf => absurd hf List.not_mem_nil⟩

/-! ## Many directives -/

/-- The entries of an object of directives. -/
def entries (ds : List Directive) : List (String × Directive) := ds.map fun d => (d.field, d)

theorem keys_entries (ds : List Directive) : Json.keys (entries ds) = ds.map (·.field) :=
  List.map_map

theorem map_entries (ds : List Directive) : (entries ds).map (·.2) = ds := by
  unfold entries
  rw [List.map_map]
  exact List.map_id ds

/-- An object with a member for each directive is read as the directives, in their order. -/
theorem decodeAll_members (h : ∀ d ∈ ds, d.options.HoldsValues) :
    decodeAll (.object (ds.map fun d => (d.field, d.toJson))) = .ok ds := by
  have hread : Json.Decode.eachMember decode (ds.map fun d => (d.field, d.toJson)) =
      .ok (ds.map fun d => (d.field, { d with field := "" })) := by
    rw [Json.eachMember_eq_ok_iff, List.forall₂_map_left_iff, List.forall₂_map_right_iff]
    exact List.forall₂_same.2 fun d hd => ⟨rfl, decode_toJson (h d hd)⟩
  refine map_eq_ok_iff.2 ⟨_, hread, ?_⟩
  rw [List.map_map]
  exact List.map_id ds

/-- Directives that were read, in either form, have options that are values. -/
theorem holdsValues_of_decodeAll (h : decodeAll j = .ok ds) : ∀ d ∈ ds, d.options.HoldsValues := by
  intro d hd
  cases j with
  | object ms =>
    obtain ⟨as, has, rfl⟩ := map_eq_ok_iff.1 h
    obtain ⟨a, ha, rfl⟩ := List.mem_map.1 hd
    obtain ⟨m, -, -, hm⟩ := Json.exists_of_forall₂ (Json.eachMember_eq_ok_iff.1 has) a ha
    have hoptions : a.2.options.HoldsValues := holdsValues_of_decode hm
    exact hoptions
  -- each item is an object of directives itself, mostly of one
  | array js =>
    obtain ⟨groups, hgroups, rfl⟩ := map_eq_ok_iff.1 h
    obtain ⟨group, hgroup, hd⟩ := List.mem_flatten.1 hd
    obtain ⟨j, -, hj⟩ := Json.exists_of_forall₂ (Json.each_eq_ok_iff.1 hgroups) group hgroup
    obtain ⟨as, has, rfl⟩ := map_eq_ok_iff.1 hj
    obtain ⟨a, ha, rfl⟩ := List.mem_map.1 hd
    obtain ⟨j', hj'⟩ := Dictionary.exists_of_decode has a ha
    have hoptions : a.2.options.HoldsValues := holdsValues_of_decode hj'
    exact hoptions
  | null | bool | number | string | unreadable => cases h

/-! ## One directive for each field -/

/-- Of the directives for a field, the last, in the place of the first. -/
def perField (ds : List Directive) : List Directive := (Json.distinct (entries ds)).map (·.2)

/-- The entries of an object keep the field of their directive as their key. -/
theorem distinct_entries (ds : List Directive) :
    Json.distinct (entries ds) = entries (perField ds) := by
  unfold perField
  conv_rhs => unfold entries
  rw [List.map_map]
  refine (Json.map_eq_self_iff.2 fun m hm => ?_).symm
  obtain ⟨d, -, rfl⟩ := List.mem_map.1 (Json.mem_of_mem_distinct hm)
  rfl

/-- The fields are those of the directives, in the order in which they stand first. -/
theorem fields_perField (ds : List Directive) :
    (perField ds).map (·.field) = (ds.map (·.field)).eraseDups := by
  rw [← keys_entries, ← distinct_entries, Json.keys_distinct, keys_entries]

theorem nodup_perField (ds : List Directive) : ((perField ds).map (·.field)).Nodup := by
  rw [← keys_entries, ← distinct_entries]
  exact Json.nodup_distinct _

theorem mem_of_mem_perField (h : d ∈ perField ds) : d ∈ ds := by
  obtain ⟨m, hm, rfl⟩ := List.mem_map.1 h
  obtain ⟨d, hd, rfl⟩ := List.mem_map.1 (Json.mem_of_mem_distinct hm)
  exact hd

/-- The directive that is kept for a field is the last one for it. -/
theorem mem_perField_iff :
    d ∈ perField ds ↔ ds.reverse.find? (·.field = d.field) = some d := by
  have hfind : Json.member? (Json.distinct (entries ds)) d.field =
      ds.reverse.find? (·.field = d.field) := by
    unfold entries
    rw [Json.member?_distinct, ← List.map_reverse, List.find?_map, Option.map_map]
    exact Option.map_id_apply
  rw [← hfind, distinct_entries]
  constructor
  · intro hd
    refine Json.member?_of_mem ?_ (List.mem_map_of_mem hd)
    rw [keys_entries]
    exact nodup_perField ds
  · intro hm
    obtain ⟨d', hd', heq⟩ := List.mem_map.1 (Json.mem_of_member? hm)
    rw [← (Prod.mk.inj heq).2]
    exact hd'

/-- All directives are kept exactly if no field is repeated. -/
theorem perField_eq_self_iff : perField ds = ds ↔ (ds.map (·.field)).Nodup := by
  rw [← keys_entries, ← Json.distinct_eq_self_iff]
  constructor
  · intro h
    rw [distinct_entries, h]
  · intro h
    unfold perField
    rw [h, map_entries]

/-- Some directive is kept where there is one. -/
theorem perField_eq_nil_iff : perField ds = [] ↔ ds = [] := by
  have hfields := fields_perField ds
  cases ds with
  | nil => exact ⟨fun _ => rfl, fun _ => rfl⟩
  | cons d ds =>
    rw [List.map_cons, List.eraseDups_cons] at hfields
    refine ⟨fun h => ?_, fun h => by cases h⟩
    rw [h] at hfields
    cases hfields

end Directive

namespace Block

variable {b : Block} {j : Json} {ms : List (String × Json)} {ds : List Directive}

theorem nodup_parts : parts.Nodup := by decide

/-- What holds of a block that was read. -/
structure IsRead (b : Block) : Prop where
  options : b.options.HoldsValues
  directives : ∀ d ∈ b.directives, d.options.HoldsValues

/-- A block that was read holds values only, in its options and in those of its directives. -/
theorem isRead_of_decode (h : decode j = .ok b) : b.IsRead := by
  unfold decode at h
  obtain ⟨r, -, h⟩ := bind_eq_ok_iff.1 h
  obtain ⟨preTags, -, h⟩ := bind_eq_ok_iff.1 h
  obtain ⟨postTags, -, h⟩ := bind_eq_ok_iff.1 h
  obtain ⟨highlighter, -, h⟩ := bind_eq_ok_iff.1 h
  obtain ⟨fragmentSize, -, h⟩ := bind_eq_ok_iff.1 h
  obtain ⟨fragmentCount, -, h⟩ := bind_eq_ok_iff.1 h
  obtain ⟨options, hoptions, h⟩ := bind_eq_ok_iff.1 h
  obtain ⟨directives, hdirectives, h⟩ := bind_eq_ok_iff.1 h
  cases h
  refine ⟨Dictionary.holdsValues_of_defaulted hoptions, ?_⟩
  rcases Json.Record.of_defaulted hdirectives with rfl | ⟨j, -, hj⟩
  · exact fun d hd => absurd hd List.not_mem_nil
  · exact Directive.holdsValues_of_decodeAll hj

/-- The settings of a block are read back, with the directives that its members are read as. -/
theorem decode_render (h : b.options.HoldsValues)
    (hms : Directive.decodeAll (.object ms) = .ok ds) :
    decode (b.render ms) = .ok { b with directives := ds } := by
  obtain ⟨r, hrecord, hr⟩ : ∃ r, Json.record parts [] (b.render ms) = .ok r ∧ r.Holds _ :=
    Json.exists_record rfl nodup_parts fun _ _ => rfl
  unfold decode
  refine bind_eq_ok_iff.2 ⟨r, hrecord, ?_⟩
  refine bind_eq_ok_iff.2 ⟨_, hr.optional_at 0 rfl fun ss _ => Json.readsBack_strings ss, ?_⟩
  refine bind_eq_ok_iff.2 ⟨_, hr.optional_at 1 rfl fun ss _ => Json.readsBack_strings ss, ?_⟩
  refine bind_eq_ok_iff.2 ⟨_, hr.optional_at 2 rfl fun s _ => Json.readsBack_text s, ?_⟩
  refine bind_eq_ok_iff.2 ⟨_, hr.optional_at 3 rfl fun n _ => Json.readsBack_uint64 n, ?_⟩
  refine bind_eq_ok_iff.2 ⟨_, hr.optional_at 4 rfl fun n _ => Json.readsBack_uint64 n, ?_⟩
  refine bind_eq_ok_iff.2 ⟨_, Dictionary.defaulted_at hr 5 rfl h.value_eq, ?_⟩
  refine bind_eq_ok_iff.2 ⟨_, hr.given_at 6 rfl hms, ?_⟩
  rfl

/-- A block is read back from its document. -/
theorem decode_document (h : b.IsRead) : decode b.document = .ok b :=
  decode_render h.options (Directive.decodeAll_members h.directives)

theorem readsBack_document (h : b.IsRead) : Json.ReadsBack decode document b :=
  ⟨by simp [document, render, Json.ofFields], decode_document h⟩

/-! ## Blocks as values -/

/-- The block with one directive for each field. -/
def perField (b : Block) : Block := { b with directives := Directive.perField b.directives }

/-- A block keeps all its directives exactly if no field is repeated. -/
theorem perField_eq_self_iff : b.perField = b ↔ (b.directives.map (·.field)).Nodup := by
  rw [← Directive.perField_eq_self_iff]
  constructor
  · intro h
    exact congrArg directives h
  · intro h
    unfold perField
    rw [h]

/-- Among the directives of the block with one for each field, none is new, so it is read, too. -/
theorem IsRead.perField (h : b.IsRead) : b.perField.IsRead :=
  ⟨h.options, fun d hd => h.directives d (Directive.mem_of_mem_perField hd)⟩

/-- As a value, a block is the document of what it keeps. -/
theorem toJson_eq_document (b : Block) : b.toJson = b.perField.document := by
  have hmembers : Json.distinct b.members = b.perField.members := by
    have hmap : b.members = (Directive.entries b.directives).map fun m => (m.1, m.2.toJson) := by
      unfold members Directive.entries
      rw [List.map_map]
      rfl
    rw [hmap, Json.distinct_map, Directive.distinct_entries]
    unfold Directive.entries
    rw [List.map_map]
    rfl
  unfold toJson document
  rw [hmembers]
  rfl

/-- A block prints as it does with one directive for each field, since printing keeps no more. -/
theorem toJson_perField (b : Block) : b.perField.toJson = b.toJson := by
  have hsame : b.perField.perField = b.perField :=
    perField_eq_self_iff.2 (Directive.nodup_perField b.directives)
  rw [toJson_eq_document, hsame, toJson_eq_document]

/-- From a block as a value, what it keeps is read back. -/
theorem decode_toJson (h : b.IsRead) : decode b.toJson = .ok b.perField := by
  rw [toJson_eq_document]
  exact decode_document h.perField

/-- A block that holds values prints as one. -/
theorem isValue_toJson (h : b.IsRead) : b.toJson.IsValue := by
  -- the object of directives has one key for each field
  have hfields : (Json.object b.perField.members).IsValue := by
    refine Json.isValue_object_iff.2 ⟨?_, fun m hm => ?_⟩
    · have hkeys : Json.keys b.perField.members = b.perField.directives.map (·.field) :=
        List.map_map
      rw [hkeys]
      exact Directive.nodup_perField b.directives
    · obtain ⟨d, hd, rfl⟩ := List.mem_map.1 hm
      exact Directive.isValue_toJson (h.perField.directives d hd)
  rw [toJson_eq_document]
  refine Json.isValue_ofFields nodup_parts ?_
  simp only [List.forall_mem_cons]
  refine ⟨Json.holdsValue_map fun ss _ => Json.isValue_ofStrings ss,
    Json.holdsValue_map fun ss _ => Json.isValue_ofStrings ss,
    Json.holdsValue_map fun s _ => Json.isValue_string s,
    Json.holdsValue_map fun _ _ => Json.isValue_number _,
    Json.holdsValue_map fun _ _ => Json.isValue_number _,
    h.options.holdsValue, Json.holdsValue_some hfields, fun _ hf => absurd hf List.not_mem_nil⟩

end Block

end SemanticHighlight
