import Mathlib.Data.List.Induction
import SemanticHighlight.Json.Decode
import SemanticHighlight.Proofs.Json.Fields

/-!
# Values

`distinct` keeps of each key the first place (`keys_distinct`) and the last value
(`member?_distinct`), and leaves members alone whose keys are distinct already
(`distinct_eq_self`).

A *value* (`IsValue`) is a document that stands for something at every place and repeats no key.
Reading any document for its value gives one (`isValue_of_value`), and a value is read as itself
(`IsValue.value_eq`); so what was read once is carried unchanged by every later reading. The
documents of records are values if their fields are (`isValue_ofFields`).
-/

namespace SemanticHighlight.Json

variable {α β : Type} {key : String} {value : α} {ms : List (String × α)}

/-! ## Keys -/

/-- The keys of members, in order. -/
def keys (ms : List (String × α)) : List String := ms.map (·.1)

theorem keys_cons (m : String × α) (ms : List (String × α)) : keys (m :: ms) = m.1 :: keys ms := rfl

theorem keys_append (ms ms' : List (String × α)) : keys (ms ++ ms') = keys ms ++ keys ms' :=
  List.map_append

theorem mem_keys_of_mem {m : String × α} (h : m ∈ ms) : m.1 ∈ keys ms := List.mem_map_of_mem h

/-- Nothing is found under a key that is not there. -/
theorem member?_eq_none_iff : member? ms key = none ↔ key ∉ keys ms := by
  induction ms with
  | nil => simp [keys]
  | cons m ms ih =>
    rw [member?_cons, keys_cons, List.mem_cons, not_or]
    by_cases hk : m.1 = key
    · simp [hk]
    · rw [if_neg hk, ih]
      exact ⟨fun h => ⟨Ne.symm hk, h⟩, fun h => h.2⟩

/-- What is found under a key stands there with it. -/
theorem mem_of_member? (h : member? ms key = some value) : (key, value) ∈ ms := by
  induction ms with
  | nil => cases h
  | cons m ms ih =>
    rw [member?_cons] at h
    by_cases hk : m.1 = key
    · rw [if_pos hk] at h
      cases h
      exact hk ▸ List.mem_cons_self
    · rw [if_neg hk] at h
      exact List.mem_cons_of_mem _ (ih h)

/-- Of distinct keys, each has the value it stands with. -/
theorem member?_of_mem (hd : (keys ms).Nodup) (h : (key, value) ∈ ms) :
    member? ms key = some value := by
  induction ms with
  | nil => cases h
  | cons m ms ih =>
    have hm : m.1 ∉ keys ms := (List.nodup_cons.1 hd).1
    rw [member?_cons]
    rcases List.mem_cons.1 h with rfl | h
    · exact if_pos rfl
    · have hne : m.1 ≠ key := fun hk => hm (hk.symm ▸ mem_keys_of_mem h)
      rw [if_neg hne, ih (List.nodup_cons.1 hd).2 h]

/-- A key is looked up among the members with such keys. -/
theorem member?_filter {p : String → Bool} (hkey : p key = true) :
    member? (ms.filter fun m => p m.1) key = member? ms key := by
  induction ms with
  | nil => rfl
  | cons m ms ih =>
    obtain ⟨k, a⟩ := m
    rw [List.filter_cons, member?_cons]
    by_cases hk : p k = true
    · rw [if_pos hk, member?_cons, ih]
    · have hne : k ≠ key := fun heq => hk (heq ▸ hkey)
      rw [if_neg hk, if_neg hne, ih]

/-! ## Setting members -/

/-- Setting a key that is new appends it. -/
theorem setMember_of_not_mem (h : key ∉ keys ms) :
    setMember key value ms = ms ++ [(key, value)] := by
  induction ms with
  | nil => rfl
  | cons m ms ih =>
    rw [keys_cons, List.mem_cons, not_or] at h
    show (if m.1 = key then _ else _) = _
    rw [if_neg (Ne.symm h.1), ih h.2]
    rfl

/-- Setting a key that is there changes neither the keys nor their order. -/
theorem keys_setMember_of_mem (h : key ∈ keys ms) : keys (setMember key value ms) = keys ms := by
  induction ms with
  | nil => cases h
  | cons m ms ih =>
    show keys (if m.1 = key then _ else _) = _
    by_cases hk : m.1 = key
    · rw [if_pos hk]
      rfl
    · rw [if_neg hk, keys_cons, keys_cons]
      rcases List.mem_cons.1 h with rfl | h
      · exact absurd rfl hk
      · rw [ih h]

/-- Setting a key brings nothing in but its own member. -/
theorem mem_setMember {m : String × α} (h : m ∈ setMember key value ms) :
    m = (key, value) ∨ m ∈ ms := by
  induction ms with
  | nil => exact .inl (List.mem_singleton.1 h)
  | cons first ms ih =>
    have h : m ∈ if first.1 = key then (first.1, value) :: ms
        else first :: setMember key value ms := h
    by_cases hk : first.1 = key
    · rw [if_pos hk] at h
      exact (List.mem_cons.1 h).imp (fun hm => hk ▸ hm) (List.mem_cons_of_mem _)
    · rw [if_neg hk] at h
      rcases List.mem_cons.1 h with rfl | h
      · exact .inr List.mem_cons_self
      · exact (ih h).imp_right (List.mem_cons_of_mem _)

/-- After a key is set, the last value is found under it, and under every other key what was there.
-/
theorem member?_setMember (key : String) (value : α) (ms : List (String × α)) (k : String) :
    member? (setMember key value ms) k = if key = k then some value else member? ms k := by
  induction ms with
  | nil => rfl
  | cons m ms ih =>
    show member? (if m.1 = key then (m.1, value) :: ms else m :: setMember key value ms) k = _
    by_cases hm : m.1 = key
    · rw [if_pos hm, member?_cons, member?_cons, hm]
      by_cases hk : key = k
      · rw [if_pos hk, if_pos hk]
      · rw [if_neg hk, if_neg hk, if_neg hk]
    · rw [if_neg hm, member?_cons, member?_cons, ih]
      by_cases hk : m.1 = k
      · rw [if_pos hk, if_pos hk, if_neg fun h => hm (hk.trans h.symm)]
      · rw [if_neg hk, if_neg hk]

/-- Setting a key goes together with changing all values by one function. -/
theorem setMember_map (f : α → β) (key : String) (value : α) (ms : List (String × α)) :
    setMember key (f value) (ms.map fun m => (m.1, f m.2)) =
      (setMember key value ms).map fun m => (m.1, f m.2) := by
  induction ms with
  | nil => rfl
  | cons m ms ih =>
    show (if m.1 = key then _ else _) = List.map _ (if m.1 = key then _ else _)
    by_cases hk : m.1 = key
    · rw [if_pos hk, if_pos hk]
      rfl
    · rw [if_neg hk, if_neg hk, ih]
      rfl

/-! ## Members with each key once -/

/-- The last member is set on what is left of those before it: the step of an induction from
the end. -/
theorem distinct_concat (ms : List (String × α)) (m : String × α) :
    distinct (ms ++ [m]) = setMember m.1 m.2 (distinct ms) := by
  unfold distinct
  rw [List.foldl_append]
  rfl

/-- The keys are those of the members, each where it stands first. -/
theorem keys_distinct (ms : List (String × α)) : keys (distinct ms) = (keys ms).eraseDups := by
  induction ms using List.reverseRecOn with
  | nil => rfl
  | append_singleton ms m ih =>
    rw [distinct_concat, keys_append, List.eraseDups_append]
    by_cases hm : m.1 ∈ keys ms
    · have hold : m.1 ∈ keys (distinct ms) := by rw [ih, List.mem_eraseDups]; exact hm
      rw [keys_setMember_of_mem hold, ih]
      simp [keys, List.removeAll, show m.1 ∈ ms.map (·.1) from hm]
    · have hnew : m.1 ∉ keys (distinct ms) := by rw [ih, List.mem_eraseDups]; exact hm
      rw [setMember_of_not_mem hnew, keys_append, ih]
      have hm : m.1 ∉ ms.map (·.1) := hm
      simp [keys, List.removeAll, List.eraseDups_cons, hm]

/-- Once the members are made distinct no key occurs twice. -/
theorem nodup_distinct (ms : List (String × α)) : (keys (distinct ms)).Nodup := by
  induction ms using List.reverseRecOn with
  | nil => exact List.nodup_nil
  | append_singleton ms m ih =>
    rw [distinct_concat]
    by_cases hm : m.1 ∈ keys (distinct ms)
    · rw [keys_setMember_of_mem hm]
      exact ih
    · rw [setMember_of_not_mem hm, keys_append]
      refine List.nodup_append.2 ⟨ih, List.pairwise_singleton .., fun k hk l hl hkl => hm ?_⟩
      rwa [hkl, List.mem_singleton.1 hl] at hk

/-- The value of a key is that of its last member. -/
theorem member?_distinct (ms : List (String × α)) (key : String) :
    member? (distinct ms) key = (ms.reverse.find? (·.1 = key)).map (·.2) := by
  induction ms using List.reverseRecOn with
  | nil => rfl
  | append_singleton ms m ih =>
    rw [distinct_concat, member?_setMember, ih, List.reverse_append, List.reverse_singleton,
      List.singleton_append, List.find?_cons]
    by_cases hk : m.1 = key <;> simp [hk]

/-- Making members distinct brings none in. -/
theorem mem_of_mem_distinct {m : String × α} (h : m ∈ distinct ms) : m ∈ ms := by
  induction ms using List.reverseRecOn with
  | nil => exact h
  | append_singleton ms last ih =>
    rw [distinct_concat] at h
    rcases mem_setMember h with rfl | h
    · exact List.mem_append_right _ List.mem_cons_self
    · exact List.mem_append_left _ (ih h)

/-- Members with distinct keys stay as they are. -/
theorem distinct_eq_self (h : (keys ms).Nodup) : distinct ms = ms := by
  induction ms using List.reverseRecOn with
  | nil => rfl
  | append_singleton ms m ih =>
    rw [keys_append] at h
    have hnew : m.1 ∉ keys ms := fun hm =>
      (List.nodup_append.1 h).2.2 m.1 hm m.1 List.mem_cons_self rfl
    rw [distinct_concat, ih (List.nodup_append.1 h).1, setMember_of_not_mem hnew]

theorem distinct_eq_self_iff : distinct ms = ms ↔ (keys ms).Nodup :=
  ⟨fun h => h ▸ nodup_distinct ms, distinct_eq_self⟩

/-- Making members distinct goes together with changing all values by one function. -/
theorem distinct_map (f : α → β) (ms : List (String × α)) :
    distinct (ms.map fun m => (m.1, f m.2)) = (distinct ms).map fun m => (m.1, f m.2) := by
  induction ms using List.reverseRecOn with
  | nil => rfl
  | append_singleton ms m ih =>
    rw [List.map_append, List.map_singleton, distinct_concat, distinct_concat, ih]
    exact setMember_map f m.1 m.2 (distinct ms)

/-! ## Values -/

/-- A list is left alone by a function that leaves its items alone. -/
theorem map_eq_self_iff {f : α → α} {xs : List α} : xs.map f = xs ↔ ∀ x ∈ xs, f x = x := by
  rw [← List.map_inj_left, List.map_id']

/-- A document that stands for something at every place and repeats no key. -/
structure IsValue (j : Json) : Prop where
  readable : j.isReadable = true
  collapsed : j.collapse = j

/-- What an optional value may be: absent, or any value but null. -/
def IsOptionalValue (j? : Option Json) : Prop := ∀ j, j? = some j → j.IsValue ∧ j ≠ .null

theorem isValue_null : IsValue .null := ⟨rfl, rfl⟩

theorem isValue_bool (b : Bool) : IsValue (.bool b) := ⟨rfl, rfl⟩

theorem isValue_number (n : Number) : IsValue (.number n) := ⟨rfl, rfl⟩

theorem isValue_string (s : String) : IsValue (.string s) := ⟨rfl, rfl⟩

/-- A list is readable if each of its items is. -/
theorem areReadable_iff {js : List Json} :
    areReadable js = true ↔ ∀ j ∈ js, j.isReadable = true := by
  induction js with
  | nil => exact ⟨fun _ j hj => absurd hj List.not_mem_nil, fun _ => rfl⟩
  | cons j js ih =>
    show (j.isReadable && areReadable js) = true ↔ _
    rw [Bool.and_eq_true, ih, List.forall_mem_cons]

/-- The members of an object are readable if each value is. -/
theorem areMembersReadable_iff {ms : List (String × Json)} :
    areMembersReadable ms = true ↔ ∀ m ∈ ms, m.2.isReadable = true := by
  induction ms with
  | nil => exact ⟨fun _ m hm => absurd hm List.not_mem_nil, fun _ => rfl⟩
  | cons m ms ih =>
    show (m.2.isReadable && areMembersReadable ms) = true ↔ _
    rw [Bool.and_eq_true, ih, List.forall_mem_cons]

/-- Collapsing a list collapses each of its items. -/
theorem collapseItems_eq_map (js : List Json) : collapseItems js = js.map collapse := by
  induction js with
  | nil => rfl
  | cons j js ih =>
    show j.collapse :: collapseItems js = _
    rw [ih, List.map_cons]

/-- Collapsing the values of members leaves their keys. -/
theorem collapseValues_eq_map (ms : List (String × Json)) :
    collapseValues ms = ms.map fun m => (m.1, m.2.collapse) := by
  induction ms with
  | nil => rfl
  | cons m ms ih =>
    show (m.1, m.2.collapse) :: collapseValues ms = _
    rw [ih, List.map_cons]

theorem keys_collapseValues (ms : List (String × Json)) : keys (collapseValues ms) = keys ms := by
  rw [collapseValues_eq_map]
  exact List.map_map

/-- A list is a value exactly if each of its items is. -/
theorem isValue_array_iff {js : List Json} : IsValue (.array js) ↔ ∀ j ∈ js, j.IsValue := by
  constructor
  · rintro ⟨hreadable, hcollapsed⟩ j hj
    have hitems : js.map collapse = js := by
      rw [← collapseItems_eq_map]
      exact Json.array.inj hcollapsed
    exact ⟨areReadable_iff.1 hreadable j hj, map_eq_self_iff.1 hitems j hj⟩
  · intro h
    refine ⟨areReadable_iff.2 fun j hj => (h j hj).readable, congrArg array ?_⟩
    rw [collapseItems_eq_map]
    exact map_eq_self_iff.2 fun j hj => (h j hj).collapsed

/-- An object is a value exactly if its keys are distinct and each value in it is a value. -/
theorem isValue_object_iff {ms : List (String × Json)} :
    IsValue (.object ms) ↔ (keys ms).Nodup ∧ ∀ m ∈ ms, m.2.IsValue := by
  constructor
  · rintro ⟨hreadable, hcollapsed⟩
    have hms : distinct (collapseValues ms) = ms := Json.object.inj hcollapsed
    have hkeys : (keys ms).Nodup := hms ▸ nodup_distinct _
    rw [distinct_eq_self ((keys_collapseValues ms).symm ▸ hkeys), collapseValues_eq_map,
      map_eq_self_iff] at hms
    exact ⟨hkeys, fun m hm =>
      ⟨areMembersReadable_iff.1 hreadable m hm, congrArg Prod.snd (hms m hm)⟩⟩
  · rintro ⟨hkeys, hvalues⟩
    refine ⟨areMembersReadable_iff.2 fun m hm => (hvalues m hm).readable, congrArg object ?_⟩
    rw [distinct_eq_self ((keys_collapseValues ms).symm ▸ hkeys), collapseValues_eq_map,
      map_eq_self_iff]
    exact fun m hm => Prod.ext rfl (hvalues m hm).collapsed

mutual

/-- A readable document is a value once its repeated keys are collapsed. -/
theorem isValue_collapse : ∀ {j : Json}, j.isReadable = true → j.collapse.IsValue
  | .null, _ => isValue_null
  | .bool b, _ => isValue_bool b
  | .number n, _ => isValue_number n
  | .string s, _ => isValue_string s
  | .array _, h => isValue_array_iff.2 (isValue_collapseItems h)
  | .object _, h => isValue_object_iff.2
    ⟨nodup_distinct _, fun m hm => isValue_collapseValues h m (mem_of_mem_distinct hm)⟩

/-- Readable items collapse to values. -/
theorem isValue_collapseItems : ∀ {js : List Json}, areReadable js = true →
    ∀ j ∈ collapseItems js, j.IsValue
  | [], _ => fun _ hj => absurd hj List.not_mem_nil
  | _ :: _, h => List.forall_mem_cons.2
    ⟨isValue_collapse (Bool.and_eq_true_iff.1 h).1,
      isValue_collapseItems (Bool.and_eq_true_iff.1 h).2⟩

/-- The values of readable members collapse to values. -/
theorem isValue_collapseValues : ∀ {ms : List (String × Json)}, areMembersReadable ms = true →
    ∀ m ∈ collapseValues ms, m.2.IsValue
  | [], _ => fun _ hm => absurd hm List.not_mem_nil
  | (_, _) :: _, h => List.forall_mem_cons.2
    ⟨isValue_collapse (Bool.and_eq_true_iff.1 h).1,
      isValue_collapseValues (Bool.and_eq_true_iff.1 h).2⟩

end

/-! ## Reading values -/

/-- Any readable document is read as a value, which is what it collapses to. -/
theorem value_eq_ok_iff {j v : Json} :
    Decode.value j = .ok v ↔ j.isReadable = true ∧ j.collapse = v := by
  unfold Decode.value
  by_cases h : j.isReadable = true <;> simp [h]

/-- What is read for its value is a value. -/
theorem isValue_of_value {j v : Json} (h : Decode.value j = .ok v) : v.IsValue := by
  obtain ⟨hreadable, rfl⟩ := value_eq_ok_iff.1 h
  exact isValue_collapse hreadable

/-- A value is read as itself. -/
theorem IsValue.value_eq {v : Json} (h : v.IsValue) : Decode.value v = .ok v :=
  value_eq_ok_iff.2 ⟨h.readable, h.collapsed⟩

/-- Only null has the value null. -/
theorem value_ne_null {j v : Json} (h : Decode.value j = .ok v) (hj : j ≠ .null) : v ≠ .null := by
  obtain ⟨-, rfl⟩ := value_eq_ok_iff.1 h
  intro hnull
  cases j with
  | null => exact hj rfl
  | bool | number | string | array | object | unreadable => cases hnull

/-! ## Documents of records -/

theorem isValue_ofStrings (ss : List String) : (ofStrings ss).IsValue := by
  refine isValue_array_iff.2 fun j hj => ?_
  obtain ⟨s, -, rfl⟩ := List.mem_map.1 hj
  exact isValue_string s

/-- A single is written as a value, a number or null. -/
theorem isValue_ofSingle (x : Numeric.Single) : (ofSingle x).IsValue := by
  unfold ofSingle
  split
  · exact isValue_number _
  · exact isValue_null

/-- Whether a field, if it is present, holds a value. -/
def HoldsValue (j? : Option Json) : Prop := ∀ j, j? = some j → j.IsValue

theorem holdsValue_none : HoldsValue none := fun _ h => by cases h

theorem holdsValue_some {j : Json} (h : j.IsValue) : HoldsValue (some j) := by
  rintro _ ⟨⟩
  exact h

theorem holdsValue_map {encode : α → Json} {x : Option α}
    (h : ∀ a, x = some a → (encode a).IsValue) : HoldsValue (x.map encode) := by
  intro j hj
  obtain ⟨a, ha, rfl⟩ := Option.map_eq_some_iff.1 hj
  exact h a ha

/-- A list that is left out when it is empty holds a value if it is written as one. -/
theorem holdsValue_nonempty {encode : List α → Json} {xs : List α} (h : (encode xs).IsValue) :
    HoldsValue (nonempty encode xs) := by
  unfold nonempty
  split
  · exact holdsValue_none
  · exact holdsValue_some h

/-- A single, written as null when it is absent. -/
theorem holdsValue_single (x : Option Numeric.Single) :
    HoldsValue (some ((x.map ofSingle).getD .null)) := by
  cases x with
  | none => exact holdsValue_some isValue_null
  | some x => exact holdsValue_some (isValue_ofSingle x)

theorem holdsValue_onlyTrue (b : Bool) : HoldsValue (onlyTrue b) := by
  cases b with
  | false => exact holdsValue_none
  | true => exact holdsValue_some (isValue_bool true)

theorem IsOptionalValue.holdsValue {j? : Option Json} (h : IsOptionalValue j?) : HoldsValue j? :=
  fun j hj => (h j hj).1

/-- The members of a record are its fields that are present. -/
theorem mem_present {m : String × Json} {fields : List (String × Option Json)} :
    m ∈ present fields ↔ (m.1, some m.2) ∈ fields := by
  unfold present
  rw [List.mem_filterMap]
  constructor
  · rintro ⟨⟨k, j?⟩, hmem, hm⟩
    obtain ⟨j, rfl, rfl⟩ := Option.map_eq_some_iff.1 hm
    exact hmem
  · intro h
    exact ⟨_, h, rfl⟩

/-- The keys of the fields that are present are among those of all fields, in order. -/
theorem keys_present_sublist (fields : List (String × Option Json)) :
    (keys (present fields)).Sublist (keys fields) := by
  induction fields with
  | nil => exact List.Sublist.refl _
  | cons field fields ih =>
    obtain ⟨k, j?⟩ := field
    cases j? with
    | none =>
      rw [present_none, keys_cons]
      exact ih.cons k
    | some j =>
      rw [present_some, keys_cons, keys_cons]
      exact ih.cons_cons k

/-- The document of a record is a value if its fields have different keys and hold values. -/
theorem isValue_ofFields {fields : List (String × Option Json)} (hkeys : (keys fields).Nodup)
    (h : ∀ field ∈ fields, HoldsValue field.2) : (ofFields fields).IsValue :=
  isValue_object_iff.2 ⟨hkeys.sublist (keys_present_sublist fields),
    fun m hm => h _ (mem_present.1 hm) m.2 rfl⟩

end SemanticHighlight.Json
