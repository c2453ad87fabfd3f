import SemanticHighlight.Json.Decode

/-!
# Dictionaries

A dictionary lists its entries in the order of their keys, each key once. Keys are
compared by code points, which is also the order of their UTF-8 bytes. A dictionary
is its entries together with the proof that they are in this order.
-/

namespace SemanticHighlight

namespace Dictionary

variable {α : Type} {k key : String} {v value : α} {entries : List (String × α)}

/-- Whether entries are in the order of their keys, each key once. -/
def Ordered (entries : List (String × α)) : Prop := entries.Pairwise fun a b => a.1 < b.1

instance : Decidable (Ordered entries) :=
  inferInstanceAs (Decidable (entries.Pairwise fun a b => a.1 < b.1))

/-- The entries with `key` set to `value`. -/
def insert (key : String) (value : α) : List (String × α) → List (String × α)
  | [] => [(key, value)]
  | (k, v) :: rest =>
    if k < key then (k, v) :: insert key value rest
    else if k = key then (key, value) :: rest
    else (key, value) :: (k, v) :: rest

theorem insert_of_lt (h : k < key) :
    insert key value ((k, v) :: entries) = (k, v) :: insert key value entries := if_pos h

theorem insert_self (key : String) (value v : α) (entries : List (String × α)) :
    insert key value ((key, v) :: entries) = (key, value) :: entries := by
  unfold insert
  rw [if_neg (String.lt_irrefl key), if_pos rfl]

theorem insert_of_gt (h : key < k) :
    insert key value ((k, v) :: entries) = (key, value) :: (k, v) :: entries := by
  have hne : k ≠ key := fun heq => String.lt_irrefl key (heq ▸ h)
  unfold insert
  rw [if_neg (String.lt_asymm h), if_neg hne]

/-- An entry is the one that was set, or was there before. -/
theorem mem_insert {entry : String × α} (h : entry ∈ insert key value entries) :
    entry = (key, value) ∨ entry ∈ entries := by
  induction entries with
  | nil => exact .inl (List.mem_singleton.1 h)
  | cons head rest ih =>
    obtain ⟨k, v⟩ := head
    rcases Std.lt_trichotomy k key with hlt | rfl | hgt
    · rw [insert_of_lt hlt] at h
      rcases List.mem_cons.1 h with rfl | h
      · exact .inr (List.mem_cons_self ..)
      · exact (ih h).imp_right (List.mem_cons_of_mem _)
    · rw [insert_self] at h
      exact (List.mem_cons.1 h).imp_right (List.mem_cons_of_mem _)
    · rw [insert_of_gt hgt] at h
      exact List.mem_cons.1 h

/-- Setting a key keeps the order. -/
theorem Ordered.insert (h : Ordered entries) (key : String) (value : α) :
    Ordered (insert key value entries) := by
  induction entries with
  | nil => exact List.pairwise_singleton ..
  | cons head rest ih =>
    obtain ⟨k, v⟩ := head
    obtain ⟨hhead, htail⟩ := List.pairwise_cons.1 h
    rcases Std.lt_trichotomy k key with hlt | rfl | hgt
    · rw [insert_of_lt hlt]
      refine List.pairwise_cons.2 ⟨fun entry hentry => ?_, ih htail⟩
      rcases mem_insert hentry with rfl | hentry
      · exact hlt
      · exact hhead entry hentry
    · rw [insert_self]
      exact List.pairwise_cons.2 ⟨hhead, htail⟩
    · rw [insert_of_gt hgt]
      refine List.pairwise_cons.2 ⟨fun entry hentry => ?_, h⟩
      rcases List.mem_cons.1 hentry with rfl | hentry
      · exact hgt
      · exact String.lt_trans hgt (hhead entry hentry)

end Dictionary

/-- Entries in the order of their keys. -/
structure Dictionary (α : Type) where
  entries : List (String × α)
  ordered : Dictionary.Ordered entries
deriving DecidableEq

namespace Dictionary

variable {α β : Type}

/-- The dictionary without entries. -/
def empty : Dictionary α := ⟨[], .nil⟩

/-- The dictionary with `key` set to `value`. -/
def put (d : Dictionary α) (key : String) (value : α) : Dictionary α where
  entries := insert key value d.entries
  ordered := d.ordered.insert key value

/-- The dictionary without a key. -/
def erase (d : Dictionary α) (key : String) : Dictionary α where
  entries := d.entries.filter (·.1 ≠ key)
  ordered := d.ordered.filter _

/-- The dictionary with other values under the same keys. -/
def map (f : α → β) (d : Dictionary α) : Dictionary β where
  entries := d.entries.map fun entry => (entry.1, f entry.2)
  ordered := by
    refine List.pairwise_map.2 ?_
    exact d.ordered

/-- The value of a key. -/
def find? (d : Dictionary α) (key : String) : Option α := Json.member? d.entries key

/-- Whether a key has a value. -/
def has (d : Dictionary α) (key : String) : Bool := (d.find? key).isSome

/-- The dictionary of a list of entries, of which a later one replaces an earlier one. -/
def ofEntries (entries : List (String × α)) : Dictionary α :=
  entries.foldl (fun d (key, value) => d.put key value) empty

/-- The dictionary as an object, absent when it is empty. -/
def toJson? (encode : α → Json) (d : Dictionary α) : Option Json :=
  Json.nonempty .object (d.map encode).entries

/-- An object read as a dictionary. -/
def decode (d : Json.Decoder α) : Json.Decoder (Dictionary α) := fun j =>
  (Json.Decode.members d j).map ofEntries

end Dictionary

end SemanticHighlight
