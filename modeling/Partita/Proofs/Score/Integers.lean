import Mathlib.Data.Nat.Digits.Lemmas
import Partita.Proofs.Performance.Exact
import Partita.Proofs.Score.Numerals

/-! The two readings of a token. An integer is read from a sign and the run of digits after it, a
number from the longest numeral; both begin at the same place. Digits count by their places, an
exponent moves the point, and a minus sign negates the whole. A token that has an integer has a
number, and without an exponent the integer is what is left of the number when its fraction is
cut off, whatever its sign and whatever script its digits are from. -/
namespace Partita.Score

open Text Numeral

/-- The number that a run of digits stands for, by the places of its digits. -/
def placeValue (ds : List Char) : ℕ := Nat.ofDigits 10 (ds.reverse.map fun c => (digitValue? c).getD 0)

def signed {β : Type} [Neg β] (negative : Bool) (x : β) : β := if negative then -x else x

/-- A text that starts with a run of digits, after a sign if there is one. The run is all digits
that stand there. -/
inductive Leads : List Char → Bool → List Char → Prop
  | intro {sign ds rest : List Char} {negative : Bool} : Sign sign negative → Digits ds → ds ≠ [] → Stops rest →
      Leads (sign ++ (ds ++ rest)) negative ds

section digits

theorem digitValue_lt (c : Char) : (digitValue? c).getD 0 < 10 := by
  unfold digitValue?
  split
  · split
    · rename_i ascii
      simp only [Char.isDigit, Bool.and_eq_true, decide_eq_true_eq] at ascii
      have : c.toNat ≤ 57 := ascii.2
      simp only [Option.getD_some]
      omega
    · decide
  · cases found : digitZeros.find? fun z => z ≤ c.toNat && c.toNat < z + 10 with
    | none => simp
    | some first =>
      have row := List.find?_some found
      simp only [Bool.and_eq_true, decide_eq_true_eq] at row
      simp only [Option.map_some, Option.getD_some]
      omega

theorem placeValue_append (xs ys : List Char) :
    placeValue (xs ++ ys) = placeValue xs * 10 ^ ys.length + placeValue ys := by
  rw [placeValue, List.reverse_append, List.map_append, Nat.ofDigits_append, List.length_map, List.length_reverse,
    ← placeValue, ← placeValue, Nat.add_comm, Nat.mul_comm]

/-- A run of digits stands for less than a one followed by as many zeros. -/
theorem placeValue_lt (ds : List Char) : placeValue ds < 10 ^ ds.length := by
  have bound := Nat.ofDigits_lt_base_pow_length (b := 10) (l := ds.reverse.map fun c => (digitValue? c).getD 0)
    (by decide) ?_
  · rwa [List.length_map, List.length_reverse] at bound
  · intro n member
    obtain ⟨c, -, rfl⟩ := List.mem_map.mp member
    exact digitValue_lt c

/-- Read one after the other, digits add up by their places. -/
theorem digitsValue_eq (ds : List Char) : digitsValue ds = placeValue ds := by
  induction ds using List.reverseRecOn with
  | nil => rfl
  | append_singleton ds c ih =>
    rw [placeValue_append, ← ih]
    simp only [digitsValue, List.foldl_append, List.foldl_cons, List.foldl_nil, placeValue, List.reverse_singleton,
      List.map_singleton, Nat.ofDigits_singleton, List.length_singleton, pow_one, Nat.mul_comm]

end digits

section leads

variable {input ds : List Char} {negative : Bool}

theorem leads_iff : Leads input negative ds ↔
    ds ≠ [] ∧ (readSign input).1 = negative ∧ (readSign input).2.takeWhile isDigit = ds := by
  constructor
  · rintro ⟨sign, digits, some, stops⟩
    rw [sign.read (digits.goesOn some _)]
    exact ⟨some, rfl, (span_eq digits stops).1⟩
  · rintro ⟨some, rfl, rfl⟩
    obtain ⟨sign, signed, shape⟩ := readSign_spells input
    have lead := Leads.intro signed (List.all_eq_true.mp List.all_takeWhile) some
      (head_dropWhile : Stops ((readSign input).2.dropWhile isDigit))
    rwa [List.takeWhile_append_dropWhile, ← shape] at lead

/-- The whole digits of a numeral are all that a text starts with. -/
theorem readMantissa_whole {body whole fraction rest : List Char}
    (read : readMantissa body = some (whole, fraction, rest)) : body.takeWhile isDigit = whole := by
  unfold readMantissa at read
  dsimp only at read
  split at read
  · exact congrArg Prod.fst (Option.some.inj (Option.ite_none_left_eq_some.mp read).2)
  · exact congrArg Prod.fst (Option.some.inj (Option.ite_none_left_eq_some.mp read).2)

/-- Where a text starts with digits, its longest numeral has the same sign and the same digits
before its point. -/
theorem Leads.consumes (leads : Leads input negative ds) :
    ∃ spelling n, Consumes input spelling n ∧ n.negative = negative ∧ n.whole = ds := by
  obtain ⟨sign, digits, some, stops⟩ := leads
  obtain ⟨fraction, rest, read, -⟩ := digits.readMantissa some stops
  obtain ⟨spelling, consumes⟩ := readFrom_consumes (readFrom_eq (sign.read (digits.goesOn some _)) read)
  exact ⟨spelling, _, consumes, rfl, rfl⟩

theorem Numeral.Consumes.leads {spelling : List Char} {n : Numeral} (consumes : Consumes input spelling n)
    (some : n.whole ≠ []) : Leads input n.negative n.whole := by
  have read := readFrom_eq_some_iff.mpr ⟨spelling, consumes⟩
  obtain ⟨⟨whole, fraction, rest⟩, digits, rfl⟩ := Option.map_eq_some_iff.mp read
  exact leads_iff.mpr ⟨some, rfl, readMantissa_whole digits⟩

theorem Numeral.Spells.exponent_eq_zero {spelling : List Char} {n : Numeral} (spells : Spells spelling n)
    (plain : 'e' ∉ spelling ∧ 'E' ∉ spelling) : n.exponent = 0 := by
  cases spells with
  | intro signed digits exponent =>
    cases exponent with
    | none => rfl
    | some is_mark =>
      rcases is_mark with rfl | rfl
      · exact absurd (by simp) plain.1
      · exact absurd (by simp) plain.2

end leads

section count

variable {token : String} {ds : List Char} {negative : Bool}

theorem count?_of_leads (leads : Leads (skipBlank token.toList) negative ds) (short : ds.length ≤ maxIntegerDigits) :
    count? token = .ok (some (signed negative (placeValue ds : ℤ))) := by
  obtain ⟨some, rfl, rfl⟩ := leads_iff.mp leads
  unfold count?
  simp only [List.isEmpty_iff, some, if_false, Nat.not_lt.mpr short, digitsValue_eq]
  rfl

theorem count?_of_none (without : ∀ negative ds, ¬ Leads (skipBlank token.toList) negative ds) :
    count? token = .ok none := by
  have empty : (readSign (skipBlank token.toList)).2.takeWhile isDigit = [] := by
    by_contra some
    exact without _ _ (leads_iff.mpr ⟨some, rfl, rfl⟩)
  unfold count?
  simp only [empty]
  rfl

end count

section value

/-- The number of a numeral is the one closest to all its digits, with the point moved back over
those that follow it and on by the exponent. -/
theorem Numeral.value_ofDecimal {α : Type} [Scalar α] (n : Numeral) : (n.value : α) =
    signed n.negative (Scalar.ofDecimal (placeValue (n.whole ++ n.fraction)) (n.exponent - n.fraction.length)) := by
  rw [value, digitsValue_eq]
  rfl

/-- In exact arithmetic it is what its parts say. -/
theorem Numeral.value_eq (n : Numeral) : (n.value : ℚ) = signed n.negative
    (((placeValue n.whole : ℚ) + placeValue n.fraction / 10 ^ n.fraction.length) * 10 ^ n.exponent) := by
  have ten : (10 : ℚ) ≠ 0 := by decide
  rw [value_ofDecimal]
  refine congrArg (signed n.negative) ?_
  change ((placeValue (n.whole ++ n.fraction) : ℕ) : ℚ) * 10 ^ (n.exponent - (n.fraction.length : ℤ)) = _
  rw [placeValue_append, zpow_sub₀ ten, zpow_natCast]
  push_cast
  field_simp

theorem Numeral.value_of_plain {n : Numeral} (plain : n.exponent = 0) : (n.value : ℚ) =
    signed n.negative ((placeValue n.whole : ℚ) + placeValue n.fraction / 10 ^ n.fraction.length) := by
  rw [value_eq, plain, zpow_zero, mul_one]

/-- The exponent of a numeral, by the places of its digits. -/
theorem Numeral.Exponent.eq_signed {mark : Char} {sign ds : List Char} {negative : Bool} {exponent : ℤ}
    (spelled : Exponent (mark :: (sign ++ ds)) exponent) (is_mark : mark = 'e' ∨ mark = 'E')
    (signed : Sign sign negative) (digits : Digits ds) (some : ds ≠ []) :
    exponent = Score.signed negative (placeValue ds : ℤ) := by
  rw [← spelled.read, (Exponent.some is_mark signed digits some).read, digitsValue_eq]
  rfl

theorem number?_of_consumes {token : String} {spelling : List Char} {n : Numeral}
    (consumes : Consumes (skipBlank token.toList) spelling n) : (number? token : Option ℚ) = some (signed n.negative
      (((placeValue n.whole : ℚ) + placeValue n.fraction / 10 ^ n.fraction.length) * 10 ^ n.exponent)) := by
  rw [number?_eq, readFrom_eq_some_iff.mpr ⟨spelling, consumes⟩, ← value_eq]
  rfl

example : ["-1.25e-2b", "٣.٥E1", ".5"].map (number? (α := ℚ)) = [some (-1 / 80), some 35, some (1 / 2)] := by
  decide +kernel

end value

section truncate

/-- Cutting the fraction off leaves the same magnitude for both signs. -/
theorem truncate_signed (negative : Bool) {x : ℚ} (above : 0 ≤ x) :
    Scalar.toInt (signed negative x) = .ok (signed negative ⌊x⌋) := by
  cases negative with
  | false => exact congrArg Except.ok (if_neg (not_lt.mpr above))
  | true =>
    refine congrArg Except.ok ?_
    change (if -x < 0 then -⌊-(-x)⌋ else ⌊-x⌋) = -⌊x⌋
    split
    · rw [neg_neg]
    · have zero : x = 0 := le_antisymm (by linarith) above
      rw [zero]
      rfl

theorem floor_fraction (whole fraction : List Char) :
    ⌊(placeValue whole : ℚ) + placeValue fraction / 10 ^ fraction.length⌋ = placeValue whole := by
  have power : (0 : ℚ) < 10 ^ fraction.length := by positivity
  have less : (placeValue fraction : ℚ) < 10 ^ fraction.length := by exact_mod_cast placeValue_lt fraction
  have below : (placeValue fraction : ℚ) / 10 ^ fraction.length < 1 := (div_lt_one power).mpr less
  have above : 0 ≤ (placeValue fraction : ℚ) / 10 ^ fraction.length := by positivity
  rw [Int.floor_eq_iff]
  push_cast
  constructor <;> linarith

end truncate

/-- A token has an integer if and only if it starts with digits, after white space and a sign; it
then has a numeral as well. Where its numeral begins with digits and has no exponent, the integer
is the number with its fraction cut off. -/
theorem count_truncates_number (token : String)
    (short : ∀ negative ds, Leads (skipBlank token.toList) negative ds → ds.length ≤ maxIntegerDigits) :
    (∀ n, count? token = .ok (some n) ↔
      ∃ negative ds, Leads (skipBlank token.toList) negative ds ∧ n = signed negative (placeValue ds : ℤ)) ∧
    (count? token = .ok none ↔ ∀ negative ds, ¬ Leads (skipBlank token.toList) negative ds) ∧
    (∀ n, count? token = .ok (some n) → ∃ spelling m, Consumes (skipBlank token.toList) spelling m) ∧
    ∀ spelling m, Consumes (skipBlank token.toList) spelling m → m.whole ≠ [] →
      ('e' ∉ spelling ∧ 'E' ∉ spelling → m.exponent = 0) ∧
      (m.exponent = 0 → ∃ n x, count? token = .ok (some n) ∧ number? token = some x ∧
        x = signed m.negative ((placeValue m.whole : ℚ) + placeValue m.fraction / 10 ^ m.fraction.length) ∧
        Scalar.toInt x = .ok n) := by
  have counted {negative : Bool} {ds : List Char} (leads : Leads (skipBlank token.toList) negative ds) :=
    count?_of_leads leads (short negative ds leads)
  have whole (n : ℤ) (read : count? token = .ok (some n)) :
      ∃ negative ds, Leads (skipBlank token.toList) negative ds ∧ n = signed negative (placeValue ds : ℤ) := by
    by_cases starts : ∃ negative ds, Leads (skipBlank token.toList) negative ds
    · obtain ⟨negative, ds, leads⟩ := starts
      exact ⟨negative, ds, leads, Option.some.inj (Except.ok.inj (read.symm.trans (counted leads)))⟩
    · rw [count?_of_none fun negative ds leads => starts ⟨negative, ds, leads⟩] at read
      simp at read
  refine ⟨fun n => ⟨whole n, ?_⟩, ⟨?_, count?_of_none⟩, ?_, ?_⟩
  · rintro ⟨negative, ds, leads, rfl⟩
    exact counted leads
  · intro none negative ds leads
    rw [counted leads] at none
    simp at none
  · intro n read
    obtain ⟨negative, ds, leads, -⟩ := whole n read
    obtain ⟨spelling, m, consumes, -⟩ := leads.consumes
    exact ⟨spelling, m, consumes⟩
  · intro spelling m consumes some
    have leads := consumes.leads some
    refine ⟨consumes.spells.exponent_eq_zero, fun plain => ⟨_, _, counted leads, ?_, value_of_plain plain, ?_⟩⟩
    · rw [number?_of_consumes consumes, ← value_eq]
    · rw [value_of_plain plain, truncate_signed _ (by positivity), floor_fraction]

/-- A negative fraction in Arabic digits, with white space before it and a unit after it. -/
theorem count_truncates_number_arabic : let token := " -٣.٩b"
    (∀ negative ds, Leads (skipBlank token.toList) negative ds → ds.length ≤ maxIntegerDigits) ∧
      count? token = .ok (some (-3)) ∧ number? token = some (-39 / 10 : ℚ) ∧
      Scalar.toInt (-39 / 10 : ℚ) = .ok (-3) := by
  intro token
  have short : ∀ negative ds, Leads (skipBlank token.toList) negative ds → ds.length ≤ maxIntegerDigits := by
    intro negative ds leads
    obtain ⟨-, -, rfl⟩ := leads_iff.mp leads
    decide +kernel
  have read : readFrom (skipBlank token.toList) = some ⟨true, ['٣'], ['٩'], 0⟩ := by decide +kernel
  obtain ⟨spelling, consumes⟩ := readFrom_consumes read
  obtain ⟨counts, -, -, truncates⟩ := count_truncates_number token short
  have counted : count? token = .ok (some (-3)) :=
    (counts (-3)).mpr ⟨true, ['٣'], consumes.leads (List.cons_ne_nil _ _), by decide +kernel⟩
  obtain ⟨n, x, given, number, value, cut⟩ := (truncates spelling _ consumes (List.cons_ne_nil _ _)).2 rfl
  obtain rfl : -3 = n := Option.some.inj (Except.ok.inj (counted.symm.trans given))
  obtain rfl : x = -39 / 10 := by
    rw [value]
    decide +kernel
  exact ⟨short, counted, number, cut⟩

end Partita.Score
