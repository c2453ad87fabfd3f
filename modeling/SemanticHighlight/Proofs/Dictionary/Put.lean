import SemanticHighlight.Dictionary
import SemanticHighlight.Proofs.Json.Value

/-!
# Setting keys of a dictionary

A dictionary is what is found in it (`ext`), and `put` changes what is found under one key
(`find?_put`). From these two follow the laws of `put`: two settings of one key leave the last
(`put_put`), and settings of different keys may change places (`put_comm`). And from the laws:
of the entries that are put one after the other (`putAll`), the last for a key counts
(`find?_putAll`), and entries that are all put over later leave no trace (`putAll_absorbed`).
-/

namespace SemanticHighlight.Dictionary

variable {α : Type} {d e : Dictionary α} {k l key : String} {v w : α}
  {xs ys entries later : List (String × α)}

@[simp] theorem find?_empty (key : String) : find? (empty : Dictionary α) key = none := rfl

/-! ## One key -/

/-- Among the entries, setting a key changes what is found under it and nothing else. -/
theorem member?_insert (k : String) (v : α) (xs : List (String × α)) (key : String) :
    Json.member? (insert k v xs) key = if k = key then some v else Json.member? xs key := by
  induction xs with
  | nil => rfl
  | cons entry xs ih =>
    obtain ⟨l, w⟩ := entry
    -- by where the new key stands: behind this entry, on it, or before it
    rcases Std.lt_trichotomy l k with hlt | rfl | hgt
    · rw [insert_of_lt hlt, Json.member?_cons, Json.member?_cons, ih]
      by_cases hl : l = key
      · -- the entry is found before the key that is set
        have hk : k ≠ key := by
          rintro rfl
          exact String.lt_irrefl k (hl ▸ hlt)
        rw [if_pos hl, if_neg hk, if_pos hl]
      · rw [if_neg hl, if_neg hl]
    · rw [insert_self, Json.member?_cons, Json.member?_cons]
      by_cases hl : l = key
      · rw [if_pos hl, if_pos hl]
      · rw [if_neg hl, if_neg hl, if_neg hl]
    · rw [insert_of_gt hgt, Json.member?_cons]

/-- Setting a key changes what is found under it and nothing else. -/
theorem find?_put (d : Dictionary α) (k : String) (v : α) (key : String) :
    (d.put k v).find? key = if k = key then some v else d.find? key :=
  member?_insert k v d.entries key

/-! ## A dictionary is what is found in it -/

/-- Nothing is found under a key below all others. -/
theorem member?_eq_none_of_forall_lt (h : ∀ entry ∈ xs, key < entry.1) :
    Json.member? xs key = none := by
  refine Json.member?_eq_none_iff.2 fun hmem => ?_
  obtain ⟨entry, hentry, rfl⟩ := List.mem_map.1 hmem
  exact String.lt_irrefl entry.1 (h entry hentry)

/-- Behind the first entry, nothing is found up to its key. -/
theorem Ordered.member?_tail (h : Ordered ((k, v) :: xs)) (hkey : key = k ∨ key < k) :
    Json.member? xs key = none := by
  refine member?_eq_none_of_forall_lt fun entry hentry => ?_
  have hlt := (List.pairwise_cons.1 h).1 entry hentry
  rcases hkey with rfl | hkey
  · exact hlt
  · exact String.lt_trans hkey hlt

/-- Entries in order among which the same is found are the same. -/
theorem Ordered.ext (hx : Ordered xs) (hy : Ordered ys)
    (h : ∀ key, Json.member? xs key = Json.member? ys key) : xs = ys := by
  -- on both lists at once: the lower of the two first keys has to be found on the other side
  induction xs generalizing ys with
  | nil =>
    cases ys with
    | nil => rfl
    | cons head ys =>
      have hnone := h head.1
      rw [Json.member?_nil, Json.member?_cons, if_pos rfl] at hnone
      cases hnone
  | cons head xs ih =>
    obtain ⟨k, v⟩ := head
    cases ys with
    | nil =>
      have hnone := h k
      rw [Json.member?_nil, Json.member?_cons, if_pos rfl] at hnone
      cases hnone
    | cons head ys =>
      obtain ⟨l, w⟩ := head
      have hk := h k
      have hl := h l
      simp only [Json.member?_cons, if_pos] at hk hl
      rcases Std.lt_trichotomy k l with hlt | rfl | hgt
      · -- the lower key is missing on the other side
        have hne : l ≠ k := fun heq => String.lt_irrefl k (heq ▸ hlt)
        rw [if_neg hne, hy.member?_tail (.inr hlt)] at hk
        cases hk
      · rw [if_pos rfl] at hk
        cases hk
        have htails : ∀ key, Json.member? xs key = Json.member? ys key := by
          intro key
          by_cases hkey : k = key
          · rw [hx.member?_tail (.inl hkey.symm), hy.member?_tail (.inl hkey.symm)]
          · have hrest := h key
            rw [Json.member?_cons, Json.member?_cons, if_neg hkey, if_neg hkey] at hrest
            exact hrest
        rw [ih (List.pairwise_cons.1 hx).2 (List.pairwise_cons.1 hy).2 htails]
      · have hne : k ≠ l := fun heq => String.lt_irrefl l (heq ▸ hgt)
        rw [if_neg hne, hx.member?_tail (.inr hgt)] at hl
        cases hl

/-- Dictionaries are equal if their entries are, since the order of the entries is a proof and
carries no data. -/
theorem eq_of_entries (h : d.entries = e.entries) : d = e := by
  cases d
  cases e
  cases h
  rfl

/-- Dictionaries in which the same is found are the same. -/
theorem ext (h : ∀ key, d.find? key = e.find? key) : d = e :=
  eq_of_entries (d.ordered.ext e.ordered h)

/-! ## The laws of setting a key -/

/-- Of two settings of one key the last counts. -/
theorem put_put (d : Dictionary α) (k : String) (v w : α) : (d.put k w).put k v = d.put k v := by
  refine ext fun key => ?_
  rw [find?_put, find?_put, find?_put]
  split <;> rfl

/-- Settings of different keys may change places. -/
theorem put_comm (h : k ≠ l) (d : Dictionary α) (v w : α) :
    (d.put l w).put k v = (d.put k v).put l w := by
  refine ext fun key => ?_
  rw [find?_put, find?_put, find?_put, find?_put]
  by_cases hk : k = key
  · have hl : l ≠ key := fun hl => h (hk.trans hl.symm)
    rw [if_pos hk, if_neg hl, if_pos hk]
  · rw [if_neg hk, if_neg hk]

/-! ## Many entries -/

/-- The dictionary with the entries put one after the other. -/
def putAll (entries : List (String × α)) (d : Dictionary α) : Dictionary α :=
  entries.foldl (fun d entry => d.put entry.1 entry.2) d

theorem putAll_cons (k : String) (v : α) (entries : List (String × α)) (d : Dictionary α) :
    putAll ((k, v) :: entries) d = putAll entries (d.put k v) := rfl

/-- Of the entries for a key, the last counts. -/
theorem find?_putAll (entries : List (String × α)) (d : Dictionary α) (key : String) :
    (putAll entries d).find? key =
      ((entries.reverse.find? (·.1 = key)).map (·.2)).or (d.find? key) := by
  induction entries generalizing d with
  | nil => rfl
  | cons entry entries ih =>
    obtain ⟨k, v⟩ := entry
    rw [putAll_cons, ih, find?_put, List.reverse_cons, List.find?_append]
    cases entries.reverse.find? (·.1 = key) with
    | some last => rfl
    | none => by_cases hk : k = key <;> simp [hk]

/-- An entry that is put over later leaves no trace. -/
theorem putAll_put (h : ∃ v, (k, v) ∈ entries) (w : α) (d : Dictionary α) :
    putAll entries (d.put k w) = putAll entries d := by
  induction entries generalizing d with
  | nil =>
    obtain ⟨v, hv⟩ := h
    cases hv
  | cons entry entries ih =>
    obtain ⟨l, u⟩ := entry
    rw [putAll_cons, putAll_cons]
    by_cases hl : l = k
    · rw [hl, put_put]
    · -- past an entry for another key, to one that is still to come
      rw [put_comm hl]
      refine ih ?_ _
      obtain ⟨v, hv⟩ := h
      rcases List.mem_cons.1 hv with heq | hv
      · exact absurd (congrArg Prod.fst heq).symm hl
      · exact ⟨v, hv⟩

/-- Entries that are all put over later leave no trace. -/
theorem putAll_absorbed (h : ∀ entry ∈ entries, ∃ v, (entry.1, v) ∈ later)
    (d : Dictionary α) : putAll later (putAll entries d) = putAll later d := by
  induction entries generalizing d with
  | nil => rfl
  | cons entry entries ih =>
    obtain ⟨k, w⟩ := entry
    rw [putAll_cons, ih fun entry hentry => h entry (List.mem_cons_of_mem _ hentry)]
    exact putAll_put (h (k, w) (List.mem_cons_self ..)) w d

end SemanticHighlight.Dictionary
