import Mathlib.Data.List.Forall2
import SemanticHighlight.Proofs.Json.Value
import SemanticHighlight.Proofs.Numeric.Conversion

/-!
# Records are read back

A record is written as the fields that are present, each under its name (`ofFields`), and read
as the declared fields among the members (`record`). What is read holds the fields that were
written (`Record.Holds`, `exists_record`), so a field is read back if what its encoder writes is
(`ReadsBack`): `optional_at`, `list_at`, `flag_at` and `given_at` say so for the field at a
position, one for each way a field may be left out.

For the other direction, `of_optional` and `of_defaulted` say where what was read comes from.
-/

namespace SemanticHighlight.Json

open Numeric

variable {α : Type}

/-! ## Single values -/

/-- What `encode` writes for `a` is not null, and `d` reads `a` from it. -/
structure ReadsBack (d : Decoder α) (encode : α → Json) (a : α) : Prop where
  ne_null : encode a ≠ .null
  read : d (encode a) = .ok a

/-- What reads back and is not null reads back as something that may be left out. -/
theorem ReadsBack.optional {d : Decoder α} {encode : α → Json} {a : α} (h : ReadsBack d encode a) :
    Decode.optional d (encode a) = .ok (some a) := by
  unfold Decode.optional
  split
  next hnull => exact absurd hnull h.ne_null
  next =>
    rw [h.read]
    rfl

theorem readsBack_text (s : String) : ReadsBack Decode.text .string s := ⟨by simp, rfl⟩

theorem readsBack_boolean (b : Bool) : ReadsBack Decode.boolean .bool b := ⟨by simp, rfl⟩

theorem readsBack_value {v : Json} (h : v.IsValue) (hv : v ≠ .null) :
    ReadsBack Decode.value id v := ⟨hv, h.value_eq⟩

/-- Reading an object and reading any value agree on objects. -/
theorem object_eq_ok_iff {j : Json} {ms : List (String × Json)} :
    Decode.object j = .ok ms ↔ Decode.value j = .ok (.object ms) := by
  constructor
  · intro h
    obtain ⟨v, hv, h⟩ := bind_eq_ok_iff.1 h
    cases v with
    | object => cases h; exact hv
    | null | bool | number | string | array | unreadable => cases h
  · intro h
    exact bind_eq_ok_iff.2 ⟨_, h, rfl⟩

theorem readsBack_object {ms : List (String × Json)} (h : (object ms).IsValue) :
    ReadsBack Decode.object .object ms := ⟨by simp, object_eq_ok_iff.2 h.value_eq⟩

/-- A natural number below the bound is read as itself. -/
theorem natural?_ofNat {bound n : Nat} (h : n < bound) :
    (Number.integer (n : Int)).natural? bound = some n := by
  have hin : (decide ((0 : Int) ≤ n) && decide ((n : Int) < bound)) = true := by
    rw [Bool.and_eq_true, decide_eq_true_eq, decide_eq_true_eq]
    omega
  unfold Number.natural?
  dsimp only
  rw [if_pos hin, Int.toNat_natCast]

theorem naturalBelow_ofNat {bound n : Nat} (h : n < bound) :
    Decode.naturalBelow bound (.ofNat n) = .ok n := by
  unfold Decode.naturalBelow ofNat
  dsimp only
  rw [natural?_ofNat h]

/-- Unsigned numbers of 64 bits read back. -/
theorem readsBack_uint64 (n : UInt64) : ReadsBack Decode.uint64 .ofUInt64 n := by
  refine ⟨by simp [ofUInt64, ofNat], ?_⟩
  unfold Decode.uint64 ofUInt64
  rw [naturalBelow_ofNat n.toNat_lt]
  show Except.ok (UInt64.ofNat n.toNat) = _
  rw [UInt64.ofNat_toNat]

/-- Unsigned numbers of 32 bits read back. -/
theorem readsBack_uint32 (n : UInt32) : ReadsBack Decode.uint32 .ofUInt32 n := by
  refine ⟨by simp [ofUInt32, ofNat], ?_⟩
  unfold Decode.uint32 ofUInt32
  rw [naturalBelow_ofNat n.toNat_lt]
  show Except.ok (UInt32.ofNat n.toNat) = _
  rw [UInt32.ofNat_toNat]

theorem readsBack_int64 (n : Int64) : ReadsBack Decode.int64 .ofInt64 n := by
  refine ⟨by simp [ofInt64, ofInt], ?_⟩
  unfold Decode.int64 ofInt64 ofInt
  dsimp only
  rw [if_pos ⟨n.le_toInt, n.toInt_lt⟩, Int64.ofInt_toInt]

theorem ofSingle_eq {x : Single} {y : Finite .double} (h : x.convert .double = .finite y) :
    ofSingle x = .number (.double y) := by
  unfold ofSingle
  rw [h]

theorem single_double (y : Finite .double) :
    Decode.single (.number (.double y)) = .ok (y.convert .single) := rfl

/-- A finite single is widened when it is written, and narrowed when it is read. -/
theorem readsBack_single {x : Single} (hx : x.isFinite = true) :
    ReadsBack Decode.single ofSingle x := by
  cases x with
  | finite x =>
    obtain ⟨y, hwiden, hnarrow⟩ := widen_narrow x
    have hj : ofSingle (.finite x) = .number (.double y) := ofSingle_eq hwiden
    refine ⟨by simp [hj], ?_⟩
    rw [hj, single_double, hnarrow]
  | infinite | nan => cases hx

/-- A name of a choice is read as what it stands for. -/
theorem choice_name {names : List (String × α)} {name : String} {a : α}
    (h : member? names name = some a) : Decode.choice names (.string name) = .ok a := by
  unfold Decode.choice
  dsimp only
  rw [Option.bind_some, h]

/-! ## Lists -/

/-- A list reads back if each of its items does. -/
theorem each_map {d : Decoder α} {encode : α → Json} {as : List α}
    (h : ∀ a ∈ as, d (encode a) = .ok a) : Decode.each d (as.map encode) = .ok as := by
  induction as with
  | nil => rfl
  | cons a as ih =>
    rw [List.map_cons]
    unfold Decode.each
    rw [h a List.mem_cons_self, ih fun a ha => h a (List.mem_cons_of_mem _ ha)]
    rfl

theorem list_map {d : Decoder α} {encode : α → Json} {as : List α}
    (h : ∀ a ∈ as, d (encode a) = .ok a) : Decode.list d (.array (as.map encode)) = .ok as :=
  each_map h

theorem readsBack_strings (ss : List String) : ReadsBack (Decode.list Decode.text) ofStrings ss :=
  ⟨by simp [ofStrings], list_map fun s _ => (readsBack_text s).read⟩

theorem list_values {vs : List Json} (h : ∀ v ∈ vs, v.IsValue) :
    Decode.list Decode.value (.array vs) = .ok vs := by
  have hread : Decode.list Decode.value (.array (vs.map id)) = .ok vs :=
    list_map fun v hv => (h v hv).value_eq
  rwa [List.map_id] at hread

/-- Reading each of a list succeeds exactly if reading every single one does, in order. -/
theorem each_eq_ok_iff {d : Decoder α} {js : List Json} {as : List α} :
    Decode.each d js = .ok as ↔ List.Forall₂ (fun j a => d j = .ok a) js as := by
  induction js generalizing as with
  | nil =>
    rw [List.forall₂_nil_left_iff]
    exact ⟨fun h => (Except.ok.inj h).symm, fun h => congrArg Except.ok h.symm⟩
  | cons j js ih =>
    unfold Decode.each
    rw [bind_eq_ok_iff, List.forall₂_cons_left_iff]
    constructor
    · rintro ⟨a, ha, h⟩
      obtain ⟨as, has, h⟩ := bind_eq_ok_iff.1 h
      exact ⟨a, as, ha, ih.1 has, (Except.ok.inj h).symm⟩
    · rintro ⟨a, as, ha, has, rfl⟩
      exact ⟨a, ha, bind_eq_ok_iff.2 ⟨as, ih.2 has, rfl⟩⟩

/-- What is related to a list has, for each of its items, one that is related to it. -/
theorem exists_of_forall₂ {β : Type} {R : α → β → Prop} {as : List α} {bs : List β}
    (h : List.Forall₂ R as bs) : ∀ b ∈ bs, ∃ a ∈ as, R a b := by
  induction h with
  | nil => exact fun b hb => absurd hb List.not_mem_nil
  | cons hr _ ih =>
    refine List.forall_mem_cons.2 ⟨⟨_, List.mem_cons_self, hr⟩, fun b hb => ?_⟩
    obtain ⟨a, ha, hr⟩ := ih b hb
    exact ⟨a, List.mem_cons_of_mem _ ha, hr⟩

theorem exists_of_forall₂_left {β : Type} {R : α → β → Prop} {as : List α} {bs : List β}
    (h : List.Forall₂ R as bs) : ∀ a ∈ as, ∃ b ∈ bs, R a b :=
  @exists_of_forall₂ β α (fun b a => R a b) bs as h.flip

/-- The items of a list come from the items of an array. -/
theorem exists_of_list {d : Decoder α} {j : Json} {as : List α} (h : Decode.list d j = .ok as) :
    ∀ a ∈ as, ∃ j, d j = .ok a := by
  intro a ha
  cases j with
  | array js =>
    obtain ⟨j, -, hj⟩ := exists_of_forall₂ (each_eq_ok_iff.1 h) a ha
    exact ⟨j, hj⟩
  | null | bool | number | string | object | unreadable => cases h

theorem isValue_of_list {j : Json} {vs : List Json} (h : Decode.list Decode.value j = .ok vs) :
    ∀ v ∈ vs, v.IsValue := by
  intro v hv
  obtain ⟨j, hj⟩ := exists_of_list h v hv
  exact isValue_of_value hj

/-! ## Members -/

/-- Members are read one by one and keep their keys. -/
theorem eachMember_eq_ok_iff {d : Decoder α} {ms : List (String × Json)}
    {as : List (String × α)} : Decode.eachMember d ms = .ok as ↔
      List.Forall₂ (fun m a => m.1 = a.1 ∧ d m.2 = .ok a.2) ms as := by
  induction ms generalizing as with
  | nil =>
    rw [List.forall₂_nil_left_iff]
    exact ⟨fun h => (Except.ok.inj h).symm, fun h => congrArg Except.ok h.symm⟩
  | cons m ms ih =>
    obtain ⟨k, j⟩ := m
    unfold Decode.eachMember
    rw [bind_eq_ok_iff, List.forall₂_cons_left_iff]
    constructor
    · rintro ⟨a, ha, h⟩
      obtain ⟨as, has, h⟩ := bind_eq_ok_iff.1 h
      exact ⟨(k, a), as, ⟨rfl, ha⟩, ih.1 has, (Except.ok.inj h).symm⟩
    · rintro ⟨⟨l, a⟩, as, ⟨rfl, ha⟩, has, rfl⟩
      exact ⟨a, ha, bind_eq_ok_iff.2 ⟨as, ih.2 has, rfl⟩⟩

theorem eachMember_map {d : Decoder α} {encode : α → Json} {as : List (String × α)}
    (h : ∀ a ∈ as, d (encode a.2) = .ok a.2) :
    Decode.eachMember d (as.map fun a => (a.1, encode a.2)) = .ok as := by
  rw [eachMember_eq_ok_iff, List.forall₂_map_left_iff]
  exact List.forall₂_same.2 fun a ha => ⟨rfl, h a ha⟩

theorem eachMember_values {ms : List (String × Json)} (h : ∀ m ∈ ms, m.2.IsValue) :
    Decode.eachMember Decode.value ms = .ok ms := by
  rw [eachMember_eq_ok_iff]
  exact List.forall₂_same.2 fun m hm => ⟨rfl, (h m hm).value_eq⟩

/-- Reading the members of an object keeps their keys, in order. -/
theorem keys_of_eachMember {d : Decoder α} {ms : List (String × Json)} {as : List (String × α)}
    (h : Decode.eachMember d ms = .ok as) : keys as = keys ms := by
  have hsame := eachMember_eq_ok_iff.1 h
  clear h
  induction hsame with
  | nil => rfl
  | cons hm _ ih => rw [keys_cons, keys_cons, ih, hm.1]

/-! ## Records -/

variable {names : List String} {aliases : List (String × String)} {ms : List (String × Json)}
  {fields : List (String × Option Json)} {name : String}

/-- Of members that repeat no declared name, the declared ones are the record. -/
theorem declared_eq_filter (haliases : ∀ key ∈ keys ms, member? aliases key = none)
    (hnodup : (keys (ms.filter (·.1 ∈ names))).Nodup) :
    Record.declared names aliases ms = .ok (ms.filter (·.1 ∈ names)) := by
  induction ms with
  | nil => rfl
  | cons m ms ih =>
    obtain ⟨key, j⟩ := m
    obtain ⟨hkey, haliases⟩ := List.forall_mem_cons.1 haliases
    -- without aliases each key is its own name
    have hname : Record.canonical aliases key = key := by
      unfold Record.canonical
      rw [hkey, Option.getD_none]
    unfold Record.declared
    by_cases hmem : key ∈ names
    · rw [List.filter_cons_of_pos (by simpa using hmem)] at hnodup ⊢
      obtain ⟨hnew, hnodup⟩ := List.nodup_cons.1 hnodup
      have hnone : member? (ms.filter (·.1 ∈ names)) key = none := member?_eq_none_iff.2 hnew
      refine bind_eq_ok_iff.2 ⟨_, ih haliases hnodup, ?_⟩
      rw [hname, if_pos hmem, hnone]
      rfl
    · rw [List.filter_cons_of_neg (by simpa using hmem)] at hnodup ⊢
      refine bind_eq_ok_iff.2 ⟨_, ih haliases hnodup, ?_⟩
      rw [hname, if_neg hmem]

/-- Without aliases, a record is the declared ones of the members. -/
theorem eq_filter_of_declared {r : Record} (h : Record.declared names [] ms = .ok r) :
    r = ms.filter (·.1 ∈ names) := by
  induction ms generalizing r with
  | nil => exact (Except.ok.inj h).symm
  | cons m ms ih =>
    obtain ⟨key, j⟩ := m
    unfold Record.declared at h
    obtain ⟨rest, hrest, h⟩ := bind_eq_ok_iff.1 h
    have hname : Record.canonical [] key = key := rfl
    rw [hname] at h
    by_cases hmem : key ∈ names
    · -- a member that is declared is kept, unless its name comes again
      rw [if_pos hmem] at h
      rw [List.filter_cons_of_pos (by simpa using hmem), ← ih hrest]
      split at h
      · cases h
      · exact (Except.ok.inj h).symm
    · rw [if_neg hmem] at h
      rw [List.filter_cons_of_neg (by simpa using hmem), ← ih hrest]
      exact (Except.ok.inj h).symm

/-- What a record of an object holds under a declared name is the member with that key. -/
theorem member?_declared {r : Record} (h : Record.declared names [] ms = .ok r)
    (hname : name ∈ names) : member? r name = member? ms name := by
  rw [eq_filter_of_declared h]
  exact member?_filter (p := fun key => key ∈ names) (decide_eq_true hname)

/-- Whether each field is found under its name, or nothing if it was left out. -/
def Record.Holds (r : Record) (fields : List (String × Option Json)) : Prop :=
  ∀ field ∈ fields, member? r field.1 = field.2

/-- The fields that are present are found under their names. -/
theorem holds_present (hnodup : (keys fields).Nodup) : Record.Holds (present fields) fields := by
  have hpresent : (keys (present fields)).Nodup := hnodup.sublist (keys_present_sublist fields)
  rintro ⟨name, j?⟩ hmem
  cases j? with
  | some j => exact member?_of_mem hpresent (mem_present.2 hmem)
  | none =>
    refine member?_eq_none_iff.2 fun hkey => ?_
    obtain ⟨⟨_, j⟩, hj, rfl⟩ := List.mem_map.1 hkey
    -- the field would be there twice, once without a document and once with one
    have hnone := member?_of_mem hnodup hmem
    rw [member?_of_mem hnodup (mem_present.1 hj)] at hnone
    cases hnone

/-- What was written with the declared names is read as a record that holds it. -/
theorem exists_record (hkeys : keys fields = names) (hnodup : names.Nodup)
    (haliases : ∀ name ∈ names, member? aliases name = none) :
    ∃ r, record names aliases (ofFields fields) = .ok r ∧ Record.Holds r fields := by
  have hsub := keys_present_sublist fields
  rw [hkeys] at hsub
  have hall : (present fields).filter (·.1 ∈ names) = present fields :=
    List.filter_eq_self.2 fun m hm => decide_eq_true (hsub.subset (mem_keys_of_mem hm))
  have hdeclared : Record.declared names aliases (present fields) =
      .ok ((present fields).filter (·.1 ∈ names)) :=
    declared_eq_filter (fun key hkey => haliases key (hsub.subset hkey))
      (by rw [hall]; exact hnodup.sublist hsub)
  rw [hall] at hdeclared
  exact ⟨present fields, hdeclared, holds_present (hkeys ▸ hnodup)⟩

namespace Record

section Written

variable {r : Record} (hr : r.Holds fields) (i : Nat)

include hr

/-- What the field at a position was written as is found under its name. -/
theorem Holds.member?_at {j? : Option Json} (hi : fields[i]? = some (name, j?)) :
    member? r name = j? := hr _ (List.mem_of_getElem? hi)

/-- A field that is left out when it is absent. -/
theorem Holds.optional_at {d : Decoder α} {encode : α → Json} {x : Option α}
    (hi : fields[i]? = some (name, x.map encode)) (h : ∀ a, x = some a → ReadsBack d encode a) :
    optional r name d = .ok x := by
  unfold optional defaulted
  rw [hr.member?_at i hi]
  cases x with
  | none => rfl
  | some a => exact (h a rfl).optional

/-- A field for any value, left out when it is absent. -/
theorem Holds.value_at {v? : Option Json} (hi : fields[i]? = some (name, v?))
    (h : IsOptionalValue v?) : optional r name Decode.value = .ok v? := by
  have hi : fields[i]? = some (name, v?.map id) := by rw [Option.map_id_fun, id_eq, hi]
  exact hr.optional_at i hi fun v hv => readsBack_value (h v hv).1 (h v hv).2

/-- A single, written as null when it is absent. -/
theorem Holds.single_at {x : Option Single}
    (hi : fields[i]? = some (name, some ((x.map ofSingle).getD .null)))
    (h : ∀ y, x = some y → y.isFinite = true) :
    optional r name Decode.single = .ok x := by
  unfold optional defaulted
  rw [hr.member?_at i hi]
  cases x with
  | none => rfl
  | some y => exact (readsBack_single (h y rfl)).optional

/-- A list that is left out when it is empty. -/
theorem Holds.list_at {d : Decoder (List α)} {encode : List α → Json} {xs : List α}
    (hi : fields[i]? = some (name, nonempty encode xs)) (h : d (encode xs) = .ok xs) :
    defaulted r name [] d = .ok xs := by
  unfold defaulted
  rw [hr.member?_at i hi]
  cases xs with
  | nil => rfl
  | cons x xs => exact h

/-- A flag that is left out unless it is set. -/
theorem Holds.flag_at {b : Bool} (hi : fields[i]? = some (name, onlyTrue b)) :
    defaulted r name false Decode.boolean = .ok b := by
  unfold defaulted
  rw [hr.member?_at i hi]
  cases b <;> rfl

/-- A field that is always written, and may be missing where it is read. -/
theorem Holds.given_at {d : Decoder α} {default a : α} {j : Json}
    (hi : fields[i]? = some (name, some j)) (h : d j = .ok a) :
    defaulted r name default d = .ok a := by
  unfold defaulted
  rw [hr.member?_at i hi]
  exact h

/-- A field that is always written and must be given. -/
theorem Holds.required_at {d : Decoder α} {a : α} {j : Json}
    (hi : fields[i]? = some (name, some j)) (h : d j = .ok a) :
    required r name d = .ok a := by
  unfold required
  rw [hr.member?_at i hi]
  exact h

end Written

section Read

variable {r : Record} {d : Decoder α}

/-- What a field holds is read from the document that is given for it, or is the default. -/
theorem of_defaulted {default a : α} (h : r.defaulted name default d = .ok a) :
    a = default ∨ ∃ j, member? r name = some j ∧ d j = .ok a := by
  unfold defaulted at h
  cases hj : member? r name with
  | none =>
    rw [hj] at h
    exact .inl (Except.ok.inj h).symm
  | some j =>
    rw [hj] at h
    exact .inr ⟨j, rfl, h⟩

/-- What an optional field holds is read from a document other than null. -/
theorem of_optional {x : Option α} (h : r.optional name d = .ok x) :
    ∀ a, x = some a → ∃ j, j ≠ .null ∧ d j = .ok a := by
  rintro a rfl
  rcases of_defaulted h with h | ⟨j, -, h⟩
  · cases h
  · unfold Decode.optional at h
    split at h
    · cases h
    next hne =>
      obtain ⟨b, hb, hsome⟩ := map_eq_ok_iff.1 h
      cases hsome
      exact ⟨j, hne, hb⟩

/-- What is read from a field that may be left out is a value other than null. -/
theorem isOptionalValue_of_optional {v? : Option Json}
    (h : r.optional name Decode.value = .ok v?) : IsOptionalValue v? := by
  intro v hv
  obtain ⟨j, hne, hj⟩ := of_optional h v hv
  exact ⟨isValue_of_value hj, value_ne_null hj hne⟩

/-- What is read from a list that may be left out holds values only, since the default is empty. -/
theorem isValue_of_defaulted {vs : List Json}
    (h : r.defaulted name [] (Decode.list Decode.value) = .ok vs) : ∀ v ∈ vs, v.IsValue := by
  rcases of_defaulted h with rfl | ⟨j, -, hj⟩
  · exact fun v hv => absurd hv List.not_mem_nil
  · exact isValue_of_list hj

end Read

end Record

end SemanticHighlight.Json
