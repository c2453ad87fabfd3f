import SemanticHighlight.Json.Reader
import SemanticHighlight.Proofs.Json.Literals
import SemanticHighlight.Proofs.Numeric.Decimals

/-!
# Numbers are read from their text

A number is read digit run by digit run: the whole part, what follows a point, and the exponent.
`digits_append` says that a run is taken whole, for any text behind it that does not go on with
a digit, and the parts follow from it. So every number is written as a literal, behind its sign
(`Number.exists_writes`), and is read in one way, whatever follows (`Number.document_chars`).

`Number.Reads` relates a number to the one that its text is read as: an integer of 64 bits is read
as itself (`reads_integer`), and a double up to the singles as some double
(`exists_reads_double`), for the reader is not bound to find the nearest.
-/

namespace SemanticHighlight.Json

open Numeric

namespace Reader

/-! ## Runs of digits -/

/-- Whether a text is made of decimal digits. -/
def IsDigits (cs : List Char) : Prop := ∀ c ∈ cs, c.isDigit = true

/-- Whether a text does not start with a digit. -/
def EndsDigits (rest : List Char) : Prop := ∀ c, rest.head? = some c → c.isDigit = false

/-- Whether a text behind a number is no part of it. -/
def Stops (rest : List Char) : Prop :=
  ∀ c, rest.head? = some c → c.isDigit = false ∧ c ≠ '.' ∧ c ≠ 'e' ∧ c ≠ 'E'

theorem stops_nil : Stops [] := by
  rintro _ ⟨⟩

theorem Stops.endsDigits {rest : List Char} (h : Stops rest) : EndsDigits rest :=
  fun c hc => (h c hc).1

/-- The values of digits. -/
def values (cs : List Char) : List Nat := cs.map fun c => c.toNat - '0'.toNat

theorem length_values (cs : List Char) : (values cs).length = cs.length := List.length_map _

theorem isDigit_iff {c : Char} : c.isDigit = true ↔ '0' ≤ c ∧ c ≤ '9' := by
  simp [Char.isDigit, Char.le_def, UInt32.le_iff_toNat_le]

theorem digit?_of_isDigit {c : Char} (h : c.isDigit = true) :
    digit? c = some (c.toNat - '0'.toNat) := by
  unfold digit?
  rw [if_pos (isDigit_iff.1 h)]

theorem digit?_eq_none {c : Char} (h : c.isDigit = false) : digit? c = none := by
  unfold digit?
  rw [if_neg]
  rw [← isDigit_iff, h]
  exact Bool.false_ne_true

theorem IsDigits.append {cs ds : List Char} (hcs : IsDigits cs) (hds : IsDigits ds) :
    IsDigits (cs ++ ds) :=
  List.forall_mem_append.2 ⟨hcs, hds⟩

/-- Zeroes are digits, which is what a decimal is filled up with. -/
theorem isDigits_zeros (n : Nat) : IsDigits (List.replicate n '0') := by
  intro c hc
  rw [List.eq_of_mem_replicate hc]
  rfl

theorem isDigits_toDigits (n : Nat) : IsDigits (Nat.toDigits 10 n) :=
  fun _ hc => Nat.isDigit_of_mem_toDigits (by omega) (by omega) hc

/-- A run of digits is taken whole. -/
theorem digits_append {ds rest : List Char} (hds : IsDigits ds) (hrest : EndsDigits rest) :
    digits (ds ++ rest) = (values ds, rest) := by
  induction ds with
  | nil =>
    cases rest with
    | nil => rfl
    | cons c rest =>
      show digits (c :: rest) = _
      unfold digits
      rw [digit?_eq_none (hrest c rfl)]
      rfl
  | cons d ds ih =>
    obtain ⟨hd, hds⟩ := List.forall_mem_cons.1 hds
    rw [List.cons_append]
    unfold digits
    rw [digit?_of_isDigit hd, ih hds]
    rfl

/-- A run of digits is read up to its end. -/
theorem someDigits_append {ds rest : List Char} (hne : ds ≠ []) (hds : IsDigits ds)
    (hrest : EndsDigits rest) : someDigits (ds ++ rest) = some (values ds, rest) := by
  unfold someDigits
  rw [digits_append hds hrest]
  cases ds with
  | nil => exact absurd rfl hne
  | cons d ds => rfl

/-! ## Parts of a number -/

/-- Digits that can stand before a point: a zero alone, or digits that do not start with one. -/
structure IsWhole (ws : List Char) : Prop where
  nonempty : ws ≠ []
  digits : IsDigits ws
  noZero : ws.head? = some '0' → ws = ['0']

/-- The first of such digits can stand before a point too. -/
theorem IsWhole.take {ws : List Char} (h : IsWhole ws) (n : Nat) : IsWhole (ws.take (n + 1)) where
  nonempty := by
    rw [Ne, List.take_eq_nil_iff]
    simp [h.nonempty]
  digits := fun c hc => h.digits c (List.mem_of_mem_take hc)
  noZero hhead := by
    rw [List.head?_take, if_neg (Nat.succ_ne_zero n)] at hhead
    rw [h.noZero hhead, List.take_succ_cons, List.take_nil]

/-- The whole part of a numeral is read up to its end: it is a zero, or it goes on as long as there
are digits. -/
theorem whole_append {ws rest : List Char} (hws : IsWhole ws) (hrest : EndsDigits rest) :
    whole (ws ++ rest) = some (values ws, rest) := by
  cases ws with
  | nil => exact absurd rfl hws.nonempty
  | cons c ws =>
    by_cases hc : c = '0'
    · subst hc
      obtain rfl : ws = [] := (List.cons.inj (hws.noZero rfl)).2
      rfl
    · rw [List.cons_append]
      unfold whole
      split
      · next heq => exact absurd (List.cons.inj heq).1 hc
      · exact someDigits_append hws.nonempty hws.digits hrest

theorem fraction_append {fs rest : List Char} (hne : fs ≠ []) (hfs : IsDigits fs)
    (hrest : EndsDigits rest) : fraction ('.' :: (fs ++ rest)) = some (values fs, rest) :=
  someDigits_append hne hfs hrest

/-- Without a point there is no fraction, and nothing is consumed. -/
theorem fraction_none {rest : List Char} (h : rest.head? ≠ some '.') :
    fraction rest = some ([], rest) := by
  unfold fraction
  split
  · exact absurd rfl h
  · rfl

/-- Without an `e` there is no exponent, and nothing is consumed. -/
theorem exponent_none {rest : List Char} (h : Stops rest) : exponent rest = some (none, rest) := by
  unfold exponent
  split
  · exact absurd rfl (h _ rfl).2.2.1
  · exact absurd rfl (h _ rfl).2.2.2
  · rfl

/-- The number that the values of digits stand for is the one that the digits are taken for by the
library. -/
theorem ofDigits_values (cs : List Char) : ofDigits (values cs) = Nat.ofDigitChars 10 cs 0 := by
  unfold ofDigits values
  rw [Nat.ofDigitChars_eq_foldl, List.foldl_map]
  simp only [Nat.mul_comm]

theorem ofDigits_toDigits (n : Nat) : ofDigits (values (Nat.toDigits 10 n)) = n := by
  rw [ofDigits_values, Nat.ofDigitChars_ten_toDigits]

/-- An exponent is read from its sign and its digits. -/
theorem exponent_append (e : Int) {rest : List Char} (hrest : EndsDigits rest) :
    exponent ('e' :: (if e < 0 then '-' else '+') :: (Nat.toDigits 10 e.natAbs ++ rest)) =
      some (some e, rest) := by
  have hdigits := someDigits_append Nat.toDigits_ne_nil (isDigits_toDigits e.natAbs) hrest
  by_cases hneg : e < 0
  · rw [if_pos hneg]
    show ((someDigits _).map _).map _ = _
    rw [hdigits]
    simp only [Option.map_some, ofDigits_toDigits]
    rw [show -(e.natAbs : Int) = e from by omega]
  · rw [if_neg hneg]
    show ((someDigits _).map _).map _ = _
    rw [hdigits]
    simp only [Option.map_some, ofDigits_toDigits]
    rw [show (e.natAbs : Int) = e from by omega]

/-- A number is read part by part. -/
theorem unsigned_eq {negative : Bool} {cs cs' cs'' rest : List Char} {ws fs : List Nat}
    {e : Option Int} (hwhole : whole cs = some (ws, cs'))
    (hfraction : fraction cs' = some (fs, cs'')) (hexponent : exponent cs'' = some (e, rest)) : unsigned negative cs =
      some (((Number.ofLiteral? negative ws fs e).map Json.number).getD .unreadable, rest) := by
  unfold unsigned
  rw [hwhole]
  dsimp only [Option.bind_eq_bind, Option.bind_some]
  rw [hfraction]
  dsimp only [Option.bind_some]
  rw [hexponent]
  rfl

/-! ## Whole numbers -/

/-- The digits of a number do not start with a zero, unless it is zero. -/
theorem eq_zero_of_head?_toDigits {n : Nat} (h : (Nat.toDigits 10 n).head? = some '0') :
    n = 0 := by
  induction n using Nat.strongRecOn with
  | _ n ih =>
    rw [Nat.toDigits_eq_if (by omega)] at h
    split at h
    · exact Nat.digitChar_eq_zero.1 (Option.some.inj h)
    · next hlarge =>
      cases hdigits : Nat.toDigits 10 (n / 10) with
      | nil => exact absurd hdigits Nat.toDigits_ne_nil
      | cons c cs =>
        rw [hdigits] at h
        have := ih (n / 10) (by omega) (by rw [hdigits]; exact h)
        omega

/-- The decimal digits of a number are the whole part of a numeral: only zero starts with a zero. -/
theorem isWhole_toDigits (n : Nat) : IsWhole (Nat.toDigits 10 n) where
  nonempty := Nat.toDigits_ne_nil
  digits := isDigits_toDigits n
  noZero h := by
    rw [eq_zero_of_head?_toDigits h]
    rfl

/-! ## Literals -/

/-- The parts of a number that is written without its sign. -/
structure Literal where
  whole : List Nat
  fraction : List Nat
  exponent : Option Int

/-- What a literal is read as, with its sign. -/
def Literal.place (l : Literal) (negative : Bool) : Json :=
  ((Number.ofLiteral? negative l.whole l.fraction l.exponent).map Json.number).getD .unreadable

/-- Whether a text is read as a literal, for any text behind it that is no part of a number. -/
def Spells (cs : List Char) (l : Literal) : Prop :=
  ∀ rest, Stops rest → ∀ negative, unsigned negative (cs ++ rest) = some (l.place negative, rest)

theorem spells_digits {ds : List Char} (hds : IsWhole ds) : Spells ds ⟨values ds, [], none⟩ := by
  intro rest hrest negative
  have hpoint : rest.head? ≠ some '.' := fun h => (hrest '.' h).2.1 rfl
  exact unsigned_eq (whole_append hds hrest.endsDigits) (fraction_none hpoint)
    (exponent_none hrest)

/-- Digits with a point among them. -/
theorem spells_plain {ws fs : List Char} (hws : IsWhole ws) (hne : fs ≠ []) (hfs : IsDigits fs) :
    Spells (ws ++ '.' :: fs) ⟨values ws, values fs, none⟩ := by
  intro rest hrest negative
  have hdot : EndsDigits ('.' :: (fs ++ rest)) := by
    rintro c ⟨⟩
    rfl
  rw [List.append_assoc]
  exact unsigned_eq (whole_append hws hdot) (fraction_append hne hfs hrest.endsDigits)
    (exponent_none hrest)

/-! ## Decimals -/

/-- A literal that is not of digits alone, and the first digit of which has at most a given power
of ten. -/
structure Literal.IsDecimal (l : Literal) (e : Int) : Prop where
  kind : l.fraction ≠ [] ∨ l.exponent ≠ none
  size : l.exponent.getD 0 + l.whole.length ≤ e.toNat + 1

/-- A numeral with a fraction is not an integer, and its size is that of its whole part. -/
theorem isDecimal_plain {ws fs : List Char} {e : Int} (hne : fs ≠ [])
    (hsize : ws.length ≤ e.toNat + 1) :
    Literal.IsDecimal ⟨values ws, values fs, none⟩ e where
  kind := .inl (by simpa [values] using hne)
  size := by
    rw [length_values]
    show 0 + _ ≤ _
    omega

/-- Digits that are written without an exponent. -/
theorem exists_spells_layout {l : Layout} (hpoint : l.pointZero = true) {ds : List Char}
    (hds : IsWhole ds) {e : Int} (hzero : ds = ['0'] → e = 0) :
    ∃ literal, Spells (l.plain ds e) literal ∧ literal.IsDecimal e := by
  unfold Layout.plain
  by_cases hneg : e < 0
  · rw [if_pos hneg]
    have hzeros := isDigits_zeros ((-e).toNat - 1)
    have hne : List.replicate ((-e).toNat - 1) '0' ++ ds ≠ [] :=
      List.append_ne_nil_of_right_ne_nil _ hds.nonempty
    exact ⟨_, spells_plain (isWhole_toDigits 0) hne (hzeros.append hds.digits),
      isDecimal_plain hne (Nat.le_add_left _ _)⟩
  · -- filled up with zeroes, or cut by the point
    rw [if_neg hneg]
    dsimp only
    by_cases hshort : ds.length ≤ e.toNat + 1
    · have hws : IsWhole (ds ++ List.replicate (e.toNat + 1 - ds.length) '0') := by
        refine ⟨List.append_ne_nil_of_left_ne_nil hds.nonempty _,
          hds.digits.append (isDigits_zeros _), fun hhead => ?_⟩
        rw [List.head?_append, List.head?_eq_some_head hds.nonempty, Option.some_or,
          ← List.head?_eq_some_head] at hhead
        obtain rfl := hds.noZero hhead
        rw [hzero rfl]
        rfl
      rw [if_pos hshort, hpoint, if_pos rfl]
      refine ⟨_, spells_plain hws (List.cons_ne_nil '0' []) (isDigits_zeros 1),
        isDecimal_plain (List.cons_ne_nil '0' []) ?_⟩
      rw [List.length_append, List.length_replicate]
      omega
    · have hfs : IsDigits (ds.drop (e.toNat + 1)) :=
        fun c hc => hds.digits c (List.mem_of_mem_drop hc)
      have hne : ds.drop (e.toNat + 1) ≠ [] := by
        rw [Ne, List.drop_eq_nil_iff]
        exact hshort
      rw [if_neg hshort]
      refine ⟨_, spells_plain (hds.take e.toNat) hne hfs, isDecimal_plain hne ?_⟩
      rw [List.length_take]
      omega

/-- Digits that are written with an exponent. -/
theorem exists_spells_scientific {ds : List Char} (hds : IsWhole ds) (e : Int) :
    ∃ literal, Spells (Layout.scientific ds e) literal ∧ literal.IsDecimal e := by
  have hfs : IsDigits (ds.drop 1) := fun c hc => hds.digits c (List.mem_of_mem_drop hc)
  refine ⟨⟨values (ds.take 1), values (ds.drop 1), some e⟩, fun rest hrest negative => ?_,
    .inr (Option.some_ne_none e), ?_⟩
  · have hexponent := exponent_append e hrest.endsDigits
    have hends (c : Char) (hc : c.isDigit = false) (cs : List Char) : EndsDigits (c :: cs) := by
      rintro _ ⟨⟩
      exact hc
    unfold Layout.scientific
    simp only [List.append_assoc, List.cons_append]
    by_cases hone : ds.length ≤ 1
    · -- without a point, the exponent follows at once
      have hnone := @fraction_none ('e' :: (if e < 0 then '-' else '+') ::
        (Nat.toDigits 10 e.natAbs ++ rest)) (by simp)
      rw [List.drop_eq_nil_iff.2 hone, if_pos hone, List.nil_append]
      exact unsigned_eq (whole_append (hds.take 0) (hends _ rfl _)) hnone hexponent
    · have hne : ds.drop 1 ≠ [] := by
        rw [Ne, List.drop_eq_nil_iff]
        exact hone
      rw [if_neg hone, List.cons_append]
      exact unsigned_eq (whole_append (hds.take 0) (hends _ rfl _))
        (fraction_append hne hfs (hends _ rfl _)) hexponent
  · rw [length_values, List.length_take]
    show e + _ ≤ _
    omega

/-- A decimal that has no zero in front, unless it is zero. -/
theorem exists_spells_decimal {l : Layout} (hpoint : l.pointZero = true) {d : Decimal}
    (hd : d = ⟨0, 0⟩ ∨ 0 < d.significand) :
    ∃ literal, Spells (l.decimal d) literal ∧ literal.IsDecimal d.leading := by
  have hds : IsWhole d.digits := isWhole_toDigits d.significand
  have hzero (h : d.digits = ['0']) : d.leading = 0 := by
    obtain rfl | hpos := hd
    · rfl
    · have hsignificand : d.significand = 0 :=
        eq_zero_of_head?_toDigits (by rw [show Nat.toDigits 10 d.significand = ['0'] from h]; rfl)
      omega
  unfold Layout.decimal
  split
  · exact exists_spells_layout hpoint hds hzero
  · exact exists_spells_scientific hds d.leading

theorem IsWhole.starts {ws : List Char} (h : IsWhole ws) (rest : List Char) :
    ∃ c cs, ws ++ rest = c :: cs ∧ c.isDigit = true := by
  cases ws with
  | nil => exact absurd rfl h.nonempty
  | cons c ws => exact ⟨c, ws ++ rest, rfl, h.digits c List.mem_cons_self⟩

/-- However a decimal is laid out, its text starts with a digit. The cases are those of the layout:
with an exponent, below one, all whole, and with a point inside. -/
theorem decimal_starts (l : Layout) (d : Decimal) :
    ∃ c cs, l.decimal d = c :: cs ∧ c.isDigit = true := by
  have hds : IsWhole d.digits := isWhole_toDigits d.significand
  unfold Layout.decimal
  split
  · unfold Layout.plain
    split
    · exact ⟨'0', _, rfl, rfl⟩
    · dsimp only
      split
      · rw [List.append_assoc]
        exact hds.starts _
      · exact (hds.take _).starts _
  · unfold Layout.scientific
    rw [List.append_assoc]
    exact (hds.take 0).starts _

theorem document_minus (fuel : Nat) (rest : List Char) :
    document (fuel + 1) ('-' :: rest) = unsigned true rest := by
  simp [document]

/-- A document that starts with a digit is a number without a sign. -/
theorem document_digit (fuel : Nat) {c : Char} (hc : c.isDigit = true) (rest : List Char) :
    document (fuel + 1) (c :: rest) = unsigned false (c :: rest) := by
  rw [document]
  -- no other case starts with a digit
  all_goals
    intro rest' heq
    rw [(List.cons.inj heq).1] at hc
    exact absurd hc (by decide)

end Reader

/-! ## Numbers -/

open Reader

namespace Number

/-- The sign of a number, and the literal that its text is behind the sign. -/
structure Writes (n : Number) (negative : Bool) (l : Literal) : Prop where
  text : ∃ cs, n.chars = (if negative then ['-'] else []) ++ cs ∧
    (∃ c cs', cs = c :: cs' ∧ c.isDigit = true) ∧ Spells cs l

/-- The text of a number starts with a minus sign or a digit. -/
theorem Writes.starts {n : Number} {negative : Bool} {l : Literal} (h : n.Writes negative l) :
    ∃ c cs, n.chars = c :: cs ∧ (c = '-' ∨ c.isDigit = true) := by
  obtain ⟨_, hchars, ⟨c, cs, rfl, hc⟩, -⟩ := h.text
  cases negative with
  | false => exact ⟨c, cs, hchars, .inr hc⟩
  | true => exact ⟨'-', c :: cs, hchars, .inl rfl⟩

/-- A number is read from its sign and its digits. -/
theorem Writes.document {n : Number} {negative : Bool} {l : Literal} (h : n.Writes negative l)
    {rest : List Char} (hrest : Stops rest) (fuel : Nat) :
    Reader.document (fuel + 1) (n.chars ++ rest) = some (l.place negative, rest) := by
  obtain ⟨_, hchars, ⟨c, cs, rfl, hc⟩, hspells⟩ := h.text
  rw [hchars]
  cases negative with
  | false => exact (document_digit fuel hc _).trans (hspells rest hrest false)
  | true => exact (document_minus fuel _).trans (hspells rest hrest true)

/-- An integer is written as its sign and its digits. -/
theorem writes_integer (i : Int) :
    (integer i).Writes (decide (i < 0)) ⟨values (Nat.toDigits 10 i.natAbs), [], none⟩ where
  text := by
    have hwhole := isWhole_toDigits i.natAbs
    have hstart := hwhole.starts []
    rw [List.append_nil] at hstart
    refine ⟨_, ?_, hstart, spells_digits hwhole⟩
    show integerChars i = _
    unfold integerChars
    simp only [decide_eq_true_eq]

/-- The shortest decimal of a magnitude is written as a literal. -/
theorem exists_spells_shortest {f : Format} {l : Layout} (hpoint : l.pointZero = true)
    (x : Finite f) :
    ∃ literal, Spells (l.decimal (f.shortest l.tie x.magnitude)) literal ∧
      literal.IsDecimal (f.shortest l.tie x.magnitude).leading := by
  refine exists_spells_decimal hpoint ?_
  by_cases hzero : x.magnitude.val = 0
  · refine .inl ?_
    unfold Format.shortest
    rw [if_pos hzero]
  · -- any bound will do
    have hsize : x.units < 10 ^ x.units * 2 ^ f.unitBits :=
      Nat.lt_of_lt_of_le (Nat.lt_pow_self (by decide))
        (Nat.le_mul_of_pos_right _ (Nat.two_pow_pos _))
    exact .inr (Format.shortest_within hzero hsize).positive

/-- Every number is written as some literal, read back or not. -/
theorem exists_writes : ∀ n : Number, ∃ negative l, n.Writes negative l
  | .integer i => ⟨_, _, writes_integer i⟩
  | .double x =>
    let ⟨l, hspells, _⟩ := exists_spells_shortest (l := doubleLayout) rfl x
    ⟨x.negative, l, ⟨_, rfl, decimal_starts _ _, hspells⟩⟩
  | .single x =>
    let ⟨l, hspells, _⟩ := exists_spells_shortest (l := singleLayout) rfl x
    ⟨x.negative, l, ⟨_, rfl, decimal_starts _ _, hspells⟩⟩

/-- What the text of a number is read as. -/
def place (n : Number) : Json := ((Reader.document 1 n.chars).map (·.1)).getD .unreadable

/-- What is read back in place of a number is what its literal comes to. -/
theorem Writes.place_eq {n : Number} {negative : Bool} {l : Literal} (h : n.Writes negative l) :
    n.place = l.place negative := by
  have hread := h.document stops_nil 0
  rw [List.append_nil] at hread
  unfold place
  rw [hread]
  rfl

/-- A number is read in one way, for any text behind it that is no part of a number. -/
theorem document_chars (n : Number) {rest : List Char} (hrest : Stops rest) (fuel : Nat) :
    Reader.document (fuel + 1) (n.chars ++ rest) = some (n.place, rest) := by
  obtain ⟨negative, l, h⟩ := n.exists_writes
  rw [h.place_eq]
  exact h.document hrest fuel

theorem starts (n : Number) : ∃ c cs, n.chars = c :: cs ∧ (c = '-' ∨ c.isDigit = true) := by
  obtain ⟨negative, l, h⟩ := n.exists_writes
  exact h.starts

/-- Whether the text of a number is read as another, for any text behind it that is no part of
a number. -/
structure Reads (n n' : Number) : Prop where
  starts : ∃ c cs, n.chars = c :: cs ∧ (c = '-' ∨ c.isDigit = true)
  document : ∀ rest, Reader.Stops rest → ∀ fuel,
    Reader.document (fuel + 1) (n.chars ++ rest) = some (.number n', rest)

/-- That a number is read back as another is the same as finding that other in its place. -/
theorem reads_iff {n n' : Number} : n.Reads n' ↔ n.place = .number n' := by
  constructor
  · intro h
    have hread := h.document [] stops_nil 0
    rw [n.document_chars stops_nil 0] at hread
    exact congrArg Prod.fst (Option.some.inj hread)
  · intro h
    refine ⟨n.starts, fun rest hrest fuel => ?_⟩
    rw [n.document_chars hrest fuel, h]

/-- It is read as a number, or as a place that stands for nothing. -/
theorem place_cases (n : Number) : (∃ n', n.Reads n') ∨ n.place = .unreadable := by
  simp only [reads_iff]
  obtain ⟨negative, l, h⟩ := n.exists_writes
  rw [h.place_eq]
  unfold Literal.place
  cases ofLiteral? negative l.whole l.fraction l.exponent with
  | none => exact .inr rfl
  | some n' => exact .inl ⟨n', rfl⟩

/-- An integer of 64 bits is read as itself. -/
theorem reads_integer {i : Int} (hlow : -2 ^ (63 : Nat) ≤ i) (hhigh : i < 2 ^ (64 : Nat)) :
    (integer i).Reads (integer i) := by
  have hvalue : (values (Nat.toDigits 10 i.natAbs)).foldl (fun n d => n * 10 + d) 0 = i.natAbs :=
    ofDigits_toDigits i.natAbs
  have hgather : gather (values (Nat.toDigits 10 i.natAbs)) 0 = (i.natAbs, []) := by
    rw [gather_eq (by rw [hvalue]; omega), hvalue]
  -- a negative number within the range of the signed ones keeps its kind
  have hkept : (!decide (i < 0) || (0 < i.natAbs && i.natAbs ≤ 2 ^ (63 : Nat))) = true := by
    by_cases hneg : i < 0
    · have hpos : 0 < i.natAbs := by omega
      have hle : i.natAbs ≤ 2 ^ (63 : Nat) := by omega
      simp [hneg, hpos, hle]
    · simp [hneg]
  rw [reads_iff, (writes_integer i).place_eq]
  unfold Literal.place
  rw [ofLiteral?_integer hgather hkept]
  show Json.number (.integer (if decide (i < 0) = true then _ else _)) = _
  by_cases hneg : i < 0
  · rw [if_pos (decide_eq_true hneg), show -(i.natAbs : Int) = i from by omega]
  · rw [if_neg (by simpa using hneg), show (i.natAbs : Int) = i from by omega]

/-- A double that is not too large is read as some double. -/
theorem exists_reads_double {x : Finite .double}
    (hsize : x.units < 10 ^ (40 : Nat) * 2 ^ Format.double.unitBits) :
    ∃ y, (double x).Reads (double y) := by
  obtain ⟨l, hspells, hkind, hlength⟩ := exists_spells_shortest (l := doubleLayout) rfl x
  -- a decimal of that size starts within forty places, and its literal with it
  have hleading : (Format.double.shortest doubleLayout.tie x.magnitude).leading ≤ 40 := by
    by_cases hzero : x.magnitude.val = 0
    · unfold Format.shortest
      rw [if_pos hzero]
      decide
    · exact (Format.shortest_within hzero hsize).leading_le
  have hshort : l.exponent.getD 0 + l.whole.length ≤ 64 := by omega
  obtain ⟨y, hy⟩ := exists_ofLiteral x.negative hkind hshort
  have hwrites : (double x).Writes x.negative l := ⟨_, rfl, decimal_starts _ _, hspells⟩
  refine ⟨y, reads_iff.2 ?_⟩
  rw [hwrites.place_eq]
  unfold Literal.place
  rw [hy]
  rfl

/-- A single that is widened is not too large. -/
theorem exists_reads_widened {x : Finite .single} {y : Finite .double}
    (h : x.convert .double = .finite y) : ∃ y', (double y).Reads (double y') := by
  have hsingle : Format.single.unitBits = 149 := rfl
  have hdouble := unitBits_double
  have hunits : x.units < 2 ^ (128 + Format.single.unitBits) :=
    Nat.lt_of_lt_of_eq (Format.units_lt x.magnitude.isLt) (congrArg (2 ^ ·) (by decide))
  -- a single is so small among the doubles that nothing of it is lost or overflows
  have hle : x.units * 2 ^ (Format.double.unitBits - Format.single.unitBits) ≤
      2 ^ (128 + Format.double.unitBits) * 2 ^ (Format.single.unitBits - Format.double.unitBits) :=
    calc x.units * 2 ^ (Format.double.unitBits - Format.single.unitBits)
        ≤ 2 ^ (128 + Format.single.unitBits) *
            2 ^ (Format.double.unitBits - Format.single.unitBits) :=
          Nat.mul_le_mul_right _ (Nat.le_of_lt hunits)
      _ = 2 ^ (128 + Format.double.unitBits) *
            2 ^ (Format.single.unitBits - Format.double.unitBits) := by
          rw [← Nat.pow_add, ← Nat.pow_add]
          exact congrArg (2 ^ ·) (by omega)
  obtain ⟨z, hz, hsize⟩ := Binary.exists_ofUnits (by decide) (lt_reach_double (by omega))
    (Nat.two_pow_pos _) hle x.negative
  obtain rfl : y = z := Binary.finite.inj (h.symm.trans hz)
  refine exists_reads_double (Nat.lt_of_le_of_lt hsize ?_)
  rw [Nat.pow_add]
  exact Nat.mul_lt_mul_of_pos_right (by decide) (Nat.two_pow_pos _)

end Number

end SemanticHighlight.Json
