import SemanticHighlight.Proofs.Block.RoundTrip
import SemanticHighlight.Proofs.Json.Legible

/-!
# Highlight blocks and their texts

The directives of a block are written as an object with an entry for each of them. They may also
be given as an array with an object for each entry (`Block.listed`), and what is read is the same,
errors included, whatever the entries are and whatever stands beside them (`Block.decode_listed`).
Options that are read back from their text are so as parts of a block (`Block.legible_document`).

Main statement (`Block.ofText_spellings`).
-/

namespace SemanticHighlight

namespace Dictionary

/-- Whether each entry has a value that is read back from its text. -/
def Printable (d : Dictionary Json) : Prop :=
  ∀ entry ∈ d.entries, Json.readValue entry.2.compact = .ok entry.2

variable {d : Dictionary Json}

instance (d : Dictionary Json) : Decidable d.Printable :=
  inferInstanceAs (Decidable (∀ entry ∈ d.entries, _))

theorem Printable.holdsValues (h : d.Printable) : d.HoldsValues :=
  fun entry hentry => (Json.legible_of_readValue (h entry hentry)).1

/-- A printable dictionary prints as something legible, where it prints at all. -/
theorem Printable.holdsLegible (h : d.Printable) : Json.HoldsLegible (d.toJson? id) := by
  unfold toJson? Json.nonempty
  split
  · exact fun _ hnone => by cases hnone
  · refine Json.holdsLegible_some (Json.legible_object_iff.2 fun m hm => ?_)
    obtain ⟨entry, hentry, rfl⟩ := List.mem_map.1 hm
    exact (Json.legible_of_readValue (h entry hentry)).2

end Dictionary

namespace Directive

variable {d : Directive} {j : Json}

/-- A directive prints legibly if its options do. -/
theorem legible_toJson (h : d.options.Printable) : d.toJson.Legible := by
  refine Json.legible_ofFields ?_
  simp only [List.forall_mem_cons]
  exact ⟨Json.holdsLegible_map Json.legible_string, Json.holdsLegible_map Json.legible_ofStrings,
    Json.holdsLegible_map Json.legible_ofStrings, Json.holdsLegible_map Json.legible_ofUInt64,
    Json.holdsLegible_map Json.legible_ofUInt64, h.holdsLegible,
    fun _ hf => absurd hf List.not_mem_nil⟩

/-! ## Objects and arrays of directives -/

/-- The entries of an object, each in an object of its own. -/
def listed : Json → Json
  | .object entries => .array (entries.map fun entry => .object [entry])
  | j => j

/-- An object with one directive in it is read as that directive. -/
theorem decodeGroup_singleton (key : String) (j : Json) :
    decodeGroup (.object [(key, j)]) = (decode j).map fun d => [forField (key, d)] := by
  have hmember : Json.Decode.eachMember decode [(key, j)] =
      (decode j).map fun d => [(key, d)] := by
    unfold Json.Decode.eachMember
    cases decode j <;> rfl
  show ((Json.Decode.eachMember decode [(key, j)]).map Dictionary.ofEntries).map _ = _
  rw [hmember]
  cases decode j <;> rfl

/-- Directives are read alike from an object and from an array of its entries. -/
theorem decodeAll_listed (j : Json) : decodeAll (listed j) = decodeAll j := by
  cases j with
  | null | bool | number | string | array | unreadable => rfl
  | object entries =>
    show (Json.Decode.each decodeGroup (entries.map fun entry => .object [entry])).map
        List.flatten =
      (Json.Decode.eachMember decode entries).map (·.map forField)
    -- on the entries: reading them together and one object at a time meet the same fault first
    induction entries with
    | nil => rfl
    | cons entry entries ih =>
      obtain ⟨key, j⟩ := entry
      rw [List.map_cons]
      unfold Json.Decode.each Json.Decode.eachMember
      rw [decodeGroup_singleton]
      cases decode j with
      | error e => rfl
      | ok d =>
        let rest := entries.map fun entry => Json.object [entry]
        calc
          _ = ((Json.Decode.each decodeGroup rest).map List.flatten).map
              (forField (key, d) :: ·) := by
            cases Json.Decode.each decodeGroup rest <;> rfl
          _ = ((Json.Decode.eachMember decode entries).map (·.map forField)).map
              (forField (key, d) :: ·) := by
            rw [ih]
          _ = _ := by
            cases Json.Decode.eachMember decode entries <;> rfl

/-- Putting each entry into an object of its own keeps a document legible. -/
theorem legible_listed (h : j.Legible) : (listed j).Legible := by
  cases j with
  | null | bool | number | string | array | unreadable => exact h
  | object entries =>
    refine Json.legible_array fun item hitem => ?_
    obtain ⟨entry, hentry, rfl⟩ := List.mem_map.1 hitem
    refine Json.legible_object_iff.2 fun m hm => ?_
    rw [List.mem_singleton.1 hm]
    exact Json.legible_object_iff.1 h entry hentry

/-- Putting each entry into an object of its own does not make a document less deep, so a bound for
the list is one for the object. -/
theorem nesting_le_listed (j : Json) : j.nesting ≤ (listed j).nesting := by
  cases j with
  | null | bool | number | string | array | unreadable => exact Nat.le_refl _
  | object entries =>
    refine Nat.succ_le_succ ?_
    induction entries with
    | nil => exact Nat.le_refl _
    | cons entry entries ih =>
      have hentry : entry.2.nesting ≤ (Json.object [entry]).nesting :=
        Nat.le_succ_of_le (Nat.le_max_left _ _)
      exact Nat.max_le.2 ⟨Nat.le_trans hentry (Nat.le_max_left _ _),
        Nat.le_trans ih (Nat.le_max_right _ _)⟩

end Directive

namespace Block

variable {b : Block} {j : Json} {ms : List (String × Json)}

/-! ## Blocks with their directives in an array -/

/-- The members of a block with its directives in an array, if they are in an object. -/
def listMember (m : String × Json) : String × Json :=
  (m.1, if m.1 = "fields" then Directive.listed m.2 else m.2)

/-- The document of a block with its directives in an array, if they are in an object. -/
def listed : Json → Json
  | .object ms => .object (ms.map listMember)
  | j => j

/-- Looking up a member finds it listed if it is the directives, and else as it was. -/
theorem member?_listMember (ms : List (String × Json)) (key : String) :
    Json.member? (ms.map listMember) key =
      (Json.member? ms key).map fun j => if key = "fields" then Directive.listed j else j := by
  induction ms with
  | nil => rfl
  | cons m ms ih =>
    rw [List.map_cons, Json.member?_cons, Json.member?_cons]
    by_cases hkey : m.1 = key
    · rw [if_pos hkey, if_pos (show (listMember m).1 = key from hkey), ← hkey]
      rfl
    · rw [if_neg hkey, if_neg (show (listMember m).1 ≠ key from hkey), ih]

/-- Which fields a record gives depends on the keys alone. -/
theorem declared_listMember (names : List String) (ms : List (String × Json)) :
    Json.Record.declared names [] (ms.map listMember) =
      (Json.Record.declared names [] ms).map (·.map listMember) := by
  induction ms with
  | nil => rfl
  | cons m ms ih =>
    obtain ⟨key, j⟩ := m
    rw [List.map_cons]
    unfold Json.Record.declared
    rw [ih]
    cases Json.Record.declared names [] ms with
    | error e => rfl
    | ok r =>
      -- a key is repeated in the one spelling exactly if it is in the other
      have hsame : (Json.member? (r.map listMember) key).isSome = (Json.member? r key).isSome := by
        rw [member?_listMember, Option.isSome_map]
      show (if key ∈ names then if (Json.member? (r.map listMember) key).isSome then _ else _
        else _) = Except.map _ (if key ∈ names then if (Json.member? r key).isSome then _ else _
        else _)
      rw [hsame]
      split
      · split <;> rfl
      · rfl

/-- Every other field of a block reads the same. -/
theorem defaulted_listMember {α : Type} (r : Json.Record) {name : String} (hname : name ≠ "fields")
    (default : α) (d : Json.Decoder α) :
    Json.Record.defaulted (r.map listMember) name default d = r.defaulted name default d := by
  unfold Json.Record.defaulted
  rw [member?_listMember]
  cases Json.member? r name with
  | none => rfl
  | some j =>
    show d (if name = "fields" then _ else j) = d j
    rw [if_neg hname]

/-- The directives read the same from either spelling. -/
theorem defaulted_fields (r : Json.Record) (default : List Directive) :
    Json.Record.defaulted (r.map listMember) "fields" default Directive.decodeAll =
      r.defaulted "fields" default Directive.decodeAll := by
  unfold Json.Record.defaulted
  rw [member?_listMember]
  cases Json.member? r "fields" with
  | none => rfl
  | some j => exact Directive.decodeAll_listed j

/-- **A block is read alike** whether its directives are in an object or in an array. -/
theorem decode_listed (j : Json) : decode (listed j) = decode j := by
  cases j with
  | null | bool | number | string | array | unreadable => rfl
  | object ms =>
    unfold decode
    show (Json.Record.declared parts [] (ms.map listMember) >>= _) =
      (Json.Record.declared parts [] ms >>= _)
    rw [declared_listMember]
    cases Json.Record.declared parts [] ms with
    | error e => rfl
    | ok r =>
      -- every field but the directives reads what it read before
      have hoptional {α : Type} {name : String} (hname : name ≠ "fields") (d : Json.Decoder α) :
          Json.Record.optional (r.map listMember) name d = r.optional name d :=
        defaulted_listMember r hname none (Json.Decode.optional d)
      dsimp only [Except.map, bind, Except.bind]
      rw [hoptional (by decide), hoptional (by decide), hoptional (by decide),
        hoptional (by decide), hoptional (by decide), defaulted_listMember r (by decide),
        defaulted_fields]

/-! ## Texts -/

/-- A block whose options are read back from their texts. -/
structure Printable (b : Block) : Prop where
  options : b.options.Printable
  directives : ∀ d ∈ b.directives, d.options.Printable

instance (b : Block) : Decidable b.Printable :=
  decidable_of_iff (b.options.Printable ∧ ∀ d ∈ b.directives, d.options.Printable)
    ⟨fun h => ⟨h.1, h.2⟩, fun h => ⟨h.options, h.directives⟩⟩

theorem Printable.isRead (h : b.Printable) : b.IsRead :=
  ⟨h.options.holdsValues, fun d hd => (h.directives d hd).holdsValues⟩

/-- A printable block prints legibly. -/
theorem legible_document (h : b.Printable) : b.document.Legible := by
  have hfields : (Json.object b.members).Legible := by
    refine Json.legible_object_iff.2 fun m hm => ?_
    obtain ⟨d, hd, rfl⟩ := List.mem_map.1 hm
    exact Directive.legible_toJson (h.directives d hd)
  refine Json.legible_ofFields ?_
  simp only [List.forall_mem_cons]
  exact ⟨Json.holdsLegible_map Json.legible_ofStrings,
    Json.holdsLegible_map Json.legible_ofStrings, Json.holdsLegible_map Json.legible_string,
    Json.holdsLegible_map Json.legible_ofUInt64, Json.holdsLegible_map Json.legible_ofUInt64,
    h.options.holdsLegible, Json.holdsLegible_some hfields,
    fun _ hf => absurd hf List.not_mem_nil⟩

/-- So it does with its directives in an array. -/
theorem legible_listed (h : j.Legible) : (listed j).Legible := by
  cases j with
  | null | bool | number | string | array | unreadable => exact h
  | object ms =>
    refine Json.legible_object_iff.2 fun m' hm' => ?_
    obtain ⟨m, hm, rfl⟩ := List.mem_map.1 hm'
    have hlegible := Json.legible_object_iff.1 h m hm
    unfold listMember
    dsimp only
    split
    · exact Directive.legible_listed hlegible
    · exact hlegible

/-- The array makes a block no less deep. -/
theorem nesting_le_listed (j : Json) : j.nesting ≤ (listed j).nesting := by
  cases j with
  | null | bool | number | string | array | unreadable => exact Nat.le_refl _
  | object ms =>
    refine Nat.succ_le_succ ?_
    induction ms with
    | nil => exact Nat.le_refl _
    | cons m ms ih =>
      have hm : m.2.nesting ≤ (listMember m).2.nesting := by
        unfold listMember
        dsimp only
        split
        · exact Directive.nesting_le_listed m.2
        · exact Nat.le_refl _
      exact Nat.max_le.2 ⟨Nat.le_trans hm (Nat.le_max_left _ _),
        Nat.le_trans ih (Nat.le_max_right _ _)⟩

/-- A text that keeps to the limit is read as its document. -/
theorem ofText_eq {text : String} (htext : Json.parse? text = some j)
    (hnesting : j.nesting ≤ Json.nestingLimit) : ofText text = decode j := by
  unfold ofText Json.read
  rw [htext]
  show decode (j.limitNesting Json.nestingLimit) = decode j
  rw [Json.limitNesting_eq hnesting]

/-- **Blocks and their texts.** A block is read back from its text with all its directives in
their order, whether these are written as an object or as an array of objects with one entry each,
as long as its options are read back from theirs. And of any two texts that differ in no more than
this, one is read as the other is, be it as a block or as a fault. The texts are to keep to the
limit on nesting. -/
theorem ofText_spellings :
    (∀ {b : Block}, b.Printable →
      (b.document.nesting ≤ Json.nestingLimit → ofText b.document.compact = .ok b) ∧
      ((listed b.document).nesting ≤ Json.nestingLimit →
        ofText (listed b.document).compact = .ok b)) ∧
    ∀ {text text' : String} {j : Json}, Json.parse? text = some j →
      Json.parse? text' = some (listed j) → (listed j).nesting ≤ Json.nestingLimit →
        ofText text' = ofText text := by
  refine ⟨fun {b} hb => ⟨fun hnesting => ?_, fun hnesting => ?_⟩, ?_⟩
  · rw [ofText_eq (Json.parse?_compact (legible_document hb)) hnesting]
    exact decode_document hb.isRead
  · rw [ofText_eq (Json.parse?_compact (legible_listed (legible_document hb))) hnesting,
      decode_listed]
    exact decode_document hb.isRead
  · intro text text' j htext htext' hnesting
    rw [ofText_eq htext' hnesting, decode_listed,
      ofText_eq htext (Nat.le_trans (nesting_le_listed j) hnesting)]

/-- A block with a field that is repeated, lists without tags and a null among the options. -/
def repeatedField : Block :=
  { empty with
    preTags := some []
    options := .ofEntries [("model_id", .null), ("score", .array [.ofInt 1, .string "x"])]
    directives :=
      [{ Directive.plain "title" with highlighter := some "plain" },
       { Directive.plain "body" with
         postTags := some [], options := .ofEntries [("model_id", .null)] },
       { Directive.plain "title" with fragmentSize := some 3 }] }

/-- It is read back from both its texts. And a text with blanks that gives a field twice is read as
the text with an array in place of the object. -/
theorem ofText_spellings_repeated :
    ofText repeatedField.document.compact = .ok repeatedField ∧
      ofText (listed repeatedField.document).compact = .ok repeatedField ∧
      ofText "\x7b\"fields\":[\x7b\"a\":\x7b\x7d\x7d, \x7b\"a\":null\x7d]\x7d" =
        ofText "\x7b \"fields\": \x7b\"a\": \x7b\x7d, \"a\": null\x7d \x7d" := by
  have hprintable : repeatedField.Printable := by decide +kernel
  obtain ⟨hread, hlisted⟩ := ofText_spellings.1 hprintable
  refine ⟨hread (by decide), hlisted (by decide), ?_⟩
  let j : Json := .object [("fields", .object [("a", .object []), ("a", .null)])]
  exact ofText_spellings.2 (j := j) (by decide +kernel) (by decide +kernel) (by decide)

end Block

end SemanticHighlight
