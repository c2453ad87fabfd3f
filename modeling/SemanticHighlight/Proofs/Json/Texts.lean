import SemanticHighlight.Proofs.Json.Numerals
import SemanticHighlight.Proofs.Json.Strings

/-!
# Documents are read from their text

The compact text of a document is read as the document with each number in it replaced by what
its own text is read as (`placed`). `document_print` says so for any text that may follow, by
recursion on the document with its items and members.

`Renumbered R` relates documents that are the same but for their numbers, and these by `R`. A
document whose numbers are read as numbers (`Number.Reads`) is read as one that is the same but
for its numbers, and so is no other one (`renumbered_placed`).

Main statement (`parse?_compact`).
-/

namespace SemanticHighlight.Json

/-! ## Documents that differ in their numbers -/

mutual

/-- Whether two documents are the same but for their numbers, which are related. -/
inductive Renumbered (R : Number → Number → Prop) : Json → Json → Prop
  | null : Renumbered R .null .null
  | bool (b : Bool) : Renumbered R (.bool b) (.bool b)
  | number {n n' : Number} (h : R n n') : Renumbered R (.number n) (.number n')
  | string (s : String) : Renumbered R (.string s) (.string s)
  | array {js js' : List Json} (h : RenumberedItems R js js') :
      Renumbered R (.array js) (.array js')
  | object {ms ms' : List (String × Json)} (h : RenumberedMembers R ms ms') :
      Renumbered R (.object ms) (.object ms')

inductive RenumberedItems (R : Number → Number → Prop) : List Json → List Json → Prop
  | nil : RenumberedItems R [] []
  | cons {j j' : Json} {js js' : List Json} (h : Renumbered R j j')
      (hs : RenumberedItems R js js') : RenumberedItems R (j :: js) (j' :: js')

inductive RenumberedMembers (R : Number → Number → Prop) :
    List (String × Json) → List (String × Json) → Prop
  | nil : RenumberedMembers R [] []
  | cons {key : String} {j j' : Json} {ms ms' : List (String × Json)} (h : Renumbered R j j')
      (hs : RenumberedMembers R ms ms') :
      RenumberedMembers R ((key, j) :: ms) ((key, j') :: ms')

end

section Relations

variable {R S : Number → Number → Prop}

mutual

/-- The two documents change places if their numbers do. -/
theorem Renumbered.converse (h : ∀ n n', R n n' → S n' n) : ∀ {j j' : Json},
    Renumbered R j j' → Renumbered S j' j
  | _, _, .null => .null
  | _, _, .bool b => .bool b
  | _, _, .number hn => .number (h _ _ hn)
  | _, _, .string s => .string s
  | _, _, .array hs => .array (hs.converse h)
  | _, _, .object hs => .object (hs.converse h)

theorem RenumberedItems.converse (h : ∀ n n', R n n' → S n' n) : ∀ {js js' : List Json},
    RenumberedItems R js js' → RenumberedItems S js' js
  | _, _, .nil => .nil
  | _, _, .cons hj hjs => .cons (hj.converse h) (hjs.converse h)

theorem RenumberedMembers.converse (h : ∀ n n', R n n' → S n' n) :
    ∀ {ms ms' : List (String × Json)}, RenumberedMembers R ms ms' → RenumberedMembers S ms' ms
  | _, _, .nil => .nil
  | _, _, .cons hj hms => .cons (hj.converse h) (hms.converse h)

end

theorem Renumbered.imp (h : ∀ n n', R n n' → S n n') {j j' : Json} (hj : Renumbered R j j') :
    Renumbered S j j' :=
  (@Renumbered.converse R (fun n n' => R n' n) (fun _ _ => id) _ _ hj).converse fun n n' => h n' n

end Relations

namespace Reader

/-! ## What a text starts with -/

/-- A character that starts a document. -/
structure Opens (c : Char) : Prop where
  notSpace : isSpace c = false
  notBracket : c ≠ ']'
  notBrace : c ≠ '}'

/-- What a number starts with starts a document. A digit is told from a blank or a bracket by its
code. -/
theorem opens_of_number {c : Char} (h : c = '-' ∨ c.isDigit = true) : Opens c := by
  obtain rfl | hdigit := h
  · exact ⟨rfl, by decide, by decide⟩
  · have hne (d : Char) (hd : d.isDigit = false) : c ≠ d := by
      rintro rfl
      rw [hdigit] at hd
      cases hd
    refine ⟨?_, hne ']' rfl, hne '}' rfl⟩
    unfold isSpace
    simp only [Bool.or_eq_false_iff, beq_eq_false_iff_ne]
    exact ⟨⟨⟨hne _ rfl, hne _ rfl⟩, hne _ rfl⟩, hne _ rfl⟩

theorem skip_cons {c : Char} (h : isSpace c = false) (cs : List Char) :
    skip (c :: cs) = c :: cs :=
  List.dropWhile_cons_of_neg (by rw [h]; exact Bool.false_ne_true)

/-- The text of a document starts as documents do. -/
theorem print_opens (j : Json) (rest : List Char) :
    ∃ c cs, print j rest = c :: cs ∧ Opens c := by
  have hopens (c : Char) (h : isSpace c = false ∧ c ≠ ']' ∧ c ≠ '}') : Opens c :=
    ⟨h.1, h.2.1, h.2.2⟩
  cases j with
  | null | unreadable => exact ⟨'n', _, rfl, hopens _ (by decide)⟩
  | bool b =>
    cases b with
    | true => exact ⟨'t', _, rfl, hopens _ (by decide)⟩
    | false => exact ⟨'f', _, rfl, hopens _ (by decide)⟩
  | number n =>
    obtain ⟨c, cs, hchars, hc⟩ := n.starts
    refine ⟨c, cs ++ rest, ?_, opens_of_number hc⟩
    show n.chars ++ rest = _
    rw [hchars]
    rfl
  | string s => exact ⟨'"', _, rfl, hopens _ (by decide)⟩
  | array js => cases js <;> exact ⟨'[', _, rfl, hopens _ (by decide)⟩
  | object ms => cases ms <;> exact ⟨'\x7b', _, rfl, hopens _ (by decide)⟩

theorem skip_print (j : Json) (rest : List Char) : skip (print j rest) = print j rest := by
  obtain ⟨c, cs, hprint, hc⟩ := print_opens j rest
  rw [hprint, skip_cons hc.notSpace]

/-! ## What stands between the parts -/

theorem stops_cons {c : Char} (h : c.isDigit = false ∧ c ≠ '.' ∧ c ≠ 'e' ∧ c ≠ 'E')
    (cs : List Char) : Stops (c :: cs) := by
  rintro _ ⟨⟩
  exact h

theorem stops_printItems (js : List Json) (rest : List Char) : Stops (printItems js rest) := by
  cases js with
  | nil => exact stops_cons (by decide) _
  | cons j js => exact stops_cons (by decide) _

theorem stops_printMembers (ms : List (String × Json)) (rest : List Char) :
    Stops (printMembers ms rest) := by
  cases ms with
  | nil => exact stops_cons (by decide) _
  | cons m ms => exact stops_cons (by decide) _

/-! ## Steps of the reader -/

theorem document_string (fuel : Nat) (s : String) (rest : List Char) :
    document (fuel + 1) (quote s rest) = some (.string s, rest) := by
  unfold quote
  rw [document, text_string]
  rfl

/-- Behind an opening bracket items are read, if there are any. -/
theorem document_array (fuel : Nat) {cs : List Char} (hcs : ∃ c cs', cs = c :: cs' ∧ Opens c) :
    document (fuel + 1) ('[' :: cs) =
      (items fuel cs).map fun (js, rest) => (.array js, rest) := by
  obtain ⟨c, cs, rfl, hc⟩ := hcs
  rw [document, skip_cons hc.notSpace]
  split
  · next heq => exact absurd (List.cons.inj heq).1 hc.notBracket
  · cases items fuel (c :: cs) <;> rfl

theorem skip_quote (s : String) (rest : List Char) : skip (quote s rest) = quote s rest :=
  skip_cons rfl _

/-- Behind an opening brace members are read, if there are any. -/
theorem document_object (fuel : Nat) (key : String) (rest : List Char) :
    document (fuel + 1) ('\x7b' :: quote key rest) =
      (members fuel (quote key rest)).map fun (ms, rest) =>
        ((ms.map Json.object).getD .unreadable, rest) := by
  rw [document, skip_quote]
  show (members fuel (quote key rest) >>= fun p => _) = _
  cases members fuel (quote key rest) <;> rfl

section Steps

variable {fuel : Nat} {cs rest : List Char} {j : Json}

theorem items_last (h : document fuel cs = some (j, ']' :: rest)) :
    items (fuel + 1) cs = some ([j], rest) := by
  rw [items, h]
  rfl

/-- Behind a comma the items go on. -/
theorem items_next {cs' : List Char} {js : List Json} (h : document fuel cs = some (j, ',' :: cs'))
    (hskip : skip cs' = cs') (hrest : items fuel cs' = some (js, rest)) :
    items (fuel + 1) cs = some (j :: js, rest) := by
  rw [items, h]
  show (items fuel (skip cs') >>= fun p => _) = _
  rw [hskip, hrest]
  rfl

/-- The last member is the one before the closing brace. -/
theorem members_last (key : String) (hskip : skip cs = cs)
    (h : document fuel cs = some (j, '}' :: rest)) :
    members (fuel + 1) (quote key (':' :: cs)) = some (some [(key, j)], rest) := by
  unfold quote
  rw [members, text_string]
  show (document fuel (skip cs) >>= fun p => _) = _
  rw [hskip, h]
  rfl

/-- Behind a comma the members go on. The blanks to be skipped are hypotheses, since printed text
has none. -/
theorem members_next (key : String) {cs' : List Char} {ms : List (String × Json)}
    (hskip : skip cs = cs) (h : document fuel cs = some (j, ',' :: cs')) (hskip' : skip cs' = cs')
    (hrest : members fuel cs' = some (some ms, rest)) :
    members (fuel + 1) (quote key (':' :: cs)) = some (some ((key, j) :: ms), rest) := by
  unfold quote
  rw [members, text_string]
  show (document fuel (skip cs) >>= fun p => _) = _
  rw [hskip, h]
  show (members fuel (skip cs') >>= fun p => _) = _
  rw [hskip', hrest]
  rfl

end Steps

end Reader

/-! ## Documents -/

mutual

/-- The text of a document is put in front of what follows. -/
theorem length_le_print : ∀ (j : Json) (rest : List Char), rest.length ≤ (print j rest).length
  | .null, rest | .unreadable, rest | .bool true, rest | .bool false, rest => by
    simp only [print, List.length_cons]
    omega
  | .number n, rest => by
    rw [print, List.length_append]
    exact Nat.le_add_left _ _
  | .string s, rest => Nat.le_trans (Nat.le_add_right _ 2) (Reader.length_quote s rest)
  | .array [], rest | .object [], rest => by
    simp only [print, List.length_cons]
    omega
  | .array (j :: js), rest => by
    have := length_le_print j (printItems js rest)
    have := length_le_printItems js rest
    simp only [print, List.length_cons]
    omega
  | .object ((key, j) :: ms), rest => by
    have := length_le_print j (printMembers ms rest)
    have := length_le_printMembers ms rest
    have := Reader.length_quote key (':' :: print j (printMembers ms rest))
    simp only [print, List.length_cons] at this ⊢
    omega

/-- Printing the rest of a list in front of a text makes it no shorter. -/
theorem length_le_printItems : ∀ (js : List Json) (rest : List Char),
    rest.length ≤ (printItems js rest).length
  | [], rest => Nat.le_succ _
  | j :: js, rest => by
    have := length_le_print j (printItems js rest)
    have := length_le_printItems js rest
    simp only [printItems, List.length_cons]
    omega

/-- Printing the rest of an object in front of a text makes it no shorter. -/
theorem length_le_printMembers : ∀ (ms : List (String × Json)) (rest : List Char),
    rest.length ≤ (printMembers ms rest).length
  | [], rest => Nat.le_succ _
  | (key, j) :: ms, rest => by
    have := length_le_print j (printMembers ms rest)
    have := length_le_printMembers ms rest
    have := Reader.length_quote key (':' :: print j (printMembers ms rest))
    simp only [printMembers, List.length_cons] at this ⊢
    omega

end

mutual

/-- The document with each number replaced by what its own text is read as. -/
def placed : Json → Json
  | .null | .unreadable => .null
  | .bool b => .bool b
  | .number n => n.place
  | .string s => .string s
  | .array js => .array (placedItems js)
  | .object ms => .object (placedMembers ms)

def placedItems : List Json → List Json
  | [] => []
  | j :: js => placed j :: placedItems js

def placedMembers : List (String × Json) → List (String × Json)
  | [] => []
  | (key, j) :: ms => (key, placed j) :: placedMembers ms

end

open Reader

-- an item takes a unit of fuel before its first character is looked at, so twice the length
mutual

/-- A document is read from its text, whatever may follow. -/
theorem document_print : ∀ (j : Json) {fuel : Nat} {rest : List Char}, Stops rest →
    2 * (print j rest).length ≤ fuel → document fuel (print j rest) = some (placed j, rest)
  | .null, fuel + 1, rest, _, _ => by simp [print, document, placed]
  | .unreadable, fuel + 1, rest, _, _ => by simp [print, document, placed]
  | .bool true, fuel + 1, rest, _, _ => by simp [print, document, placed]
  | .bool false, fuel + 1, rest, _, _ => by simp [print, document, placed]
  | .number n, fuel + 1, rest, hrest, _ => n.document_chars hrest fuel
  | .string s, fuel + 1, rest, _, _ => document_string fuel s rest
  | .array [], fuel + 1, rest, _, _ => by
    rw [print, document, skip_cons rfl]
    rfl
  | .array (j :: js), fuel + 1, rest, _, hfuel => by
    rw [print, document_array fuel (print_opens j _), items_print j js (by
        simp only [print, List.length_cons] at hfuel
        omega)]
    rfl
  | .object [], fuel + 1, rest, _, _ => by
    rw [print, document, skip_cons rfl]
    rfl
  | .object ((key, j) :: ms), fuel + 1, rest, _, hfuel => by
    rw [print, document_object, members_print key j ms (by
        simp only [print, List.length_cons] at hfuel
        omega)]
    rfl
  -- printed text is never empty, so the fuel is not used up
  | j, 0, rest, _, hfuel => by
    obtain ⟨c, cs, hprint, -⟩ := print_opens j rest
    rw [hprint] at hfuel
    exact absurd hfuel (by simp)

/-- The items of a printed list are read back with every number in its place. Fuel for twice the
length of the text is enough, since each call consumes a character. -/
theorem items_print : ∀ (j : Json) (js : List Json) {fuel : Nat} {rest : List Char},
    2 * (print j (printItems js rest)).length + 1 ≤ fuel →
      items fuel (print j (printItems js rest)) = some (placed j :: placedItems js, rest)
  | j, [], fuel + 1, rest, hfuel =>
    items_last (document_print j (stops_printItems [] rest) (by omega))
  | j, next :: js, fuel + 1, rest, hfuel => by
    have hbehind := length_le_print j (printItems (next :: js) rest)
    have hread := document_print j (stops_printItems (next :: js) rest)
      (show 2 * (print j (printItems (next :: js) rest)).length ≤ fuel from by omega)
    simp only [printItems, List.length_cons] at hbehind hfuel
    exact items_next hread (skip_print next _) (items_print next js (by omega))

/-- The members of a printed object are read back with every number in its place. -/
theorem members_print : ∀ (key : String) (j : Json) (ms : List (String × Json)) {fuel : Nat}
    {rest : List Char}, 2 * (quote key (':' :: print j (printMembers ms rest))).length + 1 ≤ fuel →
      members fuel (quote key (':' :: print j (printMembers ms rest))) =
        some (some ((key, placed j) :: placedMembers ms), rest)
  | key, j, [], fuel + 1, rest, hfuel => by
    have hquote := length_quote key (':' :: print j (printMembers [] rest))
    rw [List.length_cons] at hquote
    exact members_last key (skip_print j _)
      (document_print j (stops_printMembers [] rest) (by omega))
  | key, j, (next, k) :: ms, fuel + 1, rest, hfuel => by
    have hquote := length_quote key (':' :: print j (printMembers ((next, k) :: ms) rest))
    have hbehind := length_le_print j (printMembers ((next, k) :: ms) rest)
    rw [List.length_cons] at hquote
    have hread := document_print j (stops_printMembers ((next, k) :: ms) rest)
      (show 2 * (print j (printMembers ((next, k) :: ms) rest)).length ≤ fuel from by omega)
    simp only [printMembers, List.length_cons] at hbehind hquote hfuel
    exact members_next key (skip_print j _) hread (skip_quote next _)
      (members_print next k ms (by omega))

end

/-- A document is read from its compact text in one way. -/
theorem parse?_compact_eq (j : Json) : parse? j.compact = some j.placed := by
  unfold parse? compact
  dsimp only
  rw [String.toList_ofList, skip_print, document_print j stops_nil (by omega)]
  rfl

mutual

/-- If the numbers are read as numbers, these are what the document is read with. -/
theorem Renumbered.placed_eq : ∀ {j j' : Json}, Renumbered Number.Reads j j' → j.placed = j'
  | _, _, .null | _, _, .bool _ | _, _, .string _ => rfl
  | _, _, .number h => Number.reads_iff.1 h
  | _, _, .array h => congrArg Json.array h.placedItems_eq
  | _, _, .object h => congrArg Json.object h.placedMembers_eq

theorem RenumberedItems.placedItems_eq : ∀ {js js' : List Json},
    RenumberedItems Number.Reads js js' → placedItems js = js'
  | _, _, .nil => rfl
  | _, _, .cons h hs => by rw [placedItems, h.placed_eq, hs.placedItems_eq]

theorem RenumberedMembers.placedMembers_eq : ∀ {ms ms' : List (String × Json)},
    RenumberedMembers Number.Reads ms ms' → placedMembers ms = ms'
  | _, _, .nil => rfl
  | _, _, .cons h hs => by rw [placedMembers, h.placed_eq, hs.placedMembers_eq]

end

mutual

/-- If a document is read and stands for something at every place, its numbers are read as
numbers. -/
theorem renumbered_placed : ∀ {j : Json}, j.isReadable = true → j.placed.isReadable = true →
    Renumbered Number.Reads j j.placed
  | .null, _, _ => .null
  | .bool b, _, _ => .bool b
  | .string s, _, _ => .string s
  | .number n, _, h => by
    rcases n.place_cases with ⟨n', hn⟩ | hn
    · rw [placed, Number.reads_iff.1 hn]
      exact .number hn
    · rw [placed, hn] at h
      cases h
  | .array _, hj, h => .array (renumberedItems_placed hj h)
  | .object _, hj, h => .object (renumberedMembers_placed hj h)

/-- If everything found in the places of a list can be read, each number of it reads back. -/
theorem renumberedItems_placed : ∀ {js : List Json}, areReadable js = true →
    areReadable (placedItems js) = true → RenumberedItems Number.Reads js (placedItems js)
  | [], _, _ => .nil
  | _ :: _, hjs, h => by
    obtain ⟨hj, hjs⟩ := Bool.and_eq_true_iff.1 hjs
    obtain ⟨h, hs⟩ := Bool.and_eq_true_iff.1 h
    exact .cons (renumbered_placed hj h) (renumberedItems_placed hjs hs)

/-- The same for the members of an object. -/
theorem renumberedMembers_placed : ∀ {ms : List (String × Json)}, areMembersReadable ms = true →
    areMembersReadable (placedMembers ms) = true →
      RenumberedMembers Number.Reads ms (placedMembers ms)
  | [], _, _ => .nil
  | _ :: _, hms, h => by
    obtain ⟨hj, hms⟩ := Bool.and_eq_true_iff.1 hms
    obtain ⟨h, hs⟩ := Bool.and_eq_true_iff.1 h
    exact .cons (renumbered_placed hj h) (renumberedMembers_placed hms hs)

end

/-- **A document is read from its compact text** as the document that is the same but for its
numbers, each of which is what its own text is read as. -/
theorem parse?_compact {j j' : Json} (h : Renumbered Number.Reads j j') :
    parse? j.compact = some j' := by
  rw [parse?_compact_eq, h.placed_eq]

end SemanticHighlight.Json
