import Mathlib.Computability.Language
import Partita.Proofs.Score.Grammar
import Partita.Score.Numeral

/-! Which part of a token is its number. The numerals are told as a language, apart from the
reader, together with what each of them spells. The reader never goes back, and it takes the
longest of them that a text starts with: one that is shorter breaks off where the text goes on
with a digit or a point, so that no exponent can follow it. -/
namespace Partita.Score

open Text
open scoped Computability

namespace Numeral

section language

def oneOf (p : Char → Prop) : Language Char := {w | ∃ c, p c ∧ w = [c]}

def signs : Language Char := 1 + oneOf fun c => c = '+' ∨ c = '-'

/-- A decimal digit of any script. -/
def digit : Language Char := oneOf fun c => isDigit c = true

def point : Language Char := oneOf (· = '.')

def marks : Language Char := oneOf fun c => c = 'e' ∨ c = 'E'

def digits : Language Char := digit * digit∗

/-- Digits with a point after them, among them or before them, or with none. -/
def mantissas : Language Char := digits * (1 + point * digit∗) + point * digits

def exponents : Language Char := 1 + marks * signs * digits

def language : Language Char := signs * mantissas * exponents

end language

def Digits (ds : List Char) : Prop := ∀ c ∈ ds, isDigit c = true

theorem Digits.nil : Digits [] := by
  intro c member
  contradiction

/-- The text of a sign, and whether it makes a number negative. -/
inductive Sign : List Char → Bool → Prop
  | none : Sign [] false
  | plus : Sign ['+'] false
  | minus : Sign ['-'] true

/-- The text of digits before and after a point. -/
inductive Mantissa : List Char → List Char → List Char → Prop
  | plain {whole : List Char} : Digits whole → whole ≠ [] → Mantissa whole whole []
  | pointed {whole fraction : List Char} : Digits whole → Digits fraction → whole ++ fraction ≠ [] →
      Mantissa (whole ++ '.' :: fraction) whole fraction

inductive Exponent : List Char → Int → Prop
  | none : Exponent [] 0
  | some {mark : Char} {sign digits : List Char} {negative : Bool} : mark = 'e' ∨ mark = 'E' → Sign sign negative →
      Digits digits → digits ≠ [] →
      Exponent (mark :: (sign ++ digits)) (if negative then -(digitsValue digits : Int) else digitsValue digits)

/-- The text of a numeral. -/
inductive Spells : List Char → Numeral → Prop
  | intro {sign mantissa whole fraction tail : List Char} {negative : Bool} {exponent : Int} : Sign sign negative →
      Mantissa mantissa whole fraction → Exponent tail exponent →
      Spells (sign ++ (mantissa ++ tail)) ⟨negative, whole, fraction, exponent⟩

section language

variable {w : List Char}

theorem mem_oneOf {p : Char → Prop} : w ∈ oneOf p ↔ ∃ c, p c ∧ w = [c] := Iff.rfl

theorem mem_signs : w ∈ signs ↔ ∃ negative, Sign w negative := by
  rw [signs, Language.mem_add, Language.mem_one, mem_oneOf]
  constructor
  · rintro (rfl | ⟨c, rfl | rfl, rfl⟩)
    · exact ⟨false, .none⟩
    · exact ⟨false, .plus⟩
    · exact ⟨true, .minus⟩
  · rintro ⟨negative, sign⟩
    cases sign with
    | none => exact .inl rfl
    | plus => exact .inr ⟨'+', .inl rfl, rfl⟩
    | minus => exact .inr ⟨'-', .inr rfl, rfl⟩

theorem mem_kstar_digit : w ∈ digit∗ ↔ Digits w := by
  rw [Language.mem_kstar]
  constructor
  · rintro ⟨parts, rfl, each⟩ c member
    obtain ⟨part, listed, inside⟩ := List.mem_flatten.mp member
    obtain ⟨d, is_digit, rfl⟩ := each part listed
    obtain rfl := List.mem_singleton.mp inside
    exact is_digit
  · intro digits
    refine ⟨w.map fun c => [c], by simp [← List.flatMap_def], ?_⟩
    intro part listed
    obtain ⟨c, member, rfl⟩ := List.mem_map.mp listed
    exact ⟨c, digits c member, rfl⟩

theorem mem_digits : w ∈ digits ↔ Digits w ∧ w ≠ [] := by
  rw [digits, Language.mem_mul]
  constructor
  · rintro ⟨first, ⟨c, is_digit, rfl⟩, rest, digits, rfl⟩
    exact ⟨List.forall_mem_cons.mpr ⟨is_digit, mem_kstar_digit.mp digits⟩, List.cons_ne_nil _ _⟩
  · rintro ⟨digits, some⟩
    obtain ⟨c, rest, rfl⟩ := List.exists_cons_of_ne_nil some
    obtain ⟨here, later⟩ := List.forall_mem_cons.mp digits
    exact ⟨[c], ⟨c, here, rfl⟩, rest, mem_kstar_digit.mpr later, rfl⟩

theorem mem_mantissas : w ∈ mantissas ↔ ∃ whole fraction, Mantissa w whole fraction := by
  rw [mantissas, Language.mem_add]
  constructor
  · rintro (⟨whole, digits, tail, after, rfl⟩ | ⟨_, ⟨_, rfl, rfl⟩, fraction, digits, rfl⟩)
    · obtain ⟨digits, some⟩ := mem_digits.mp digits
      rcases (Language.mem_add _ _ _).mp after with rfl | ⟨_, ⟨_, rfl, rfl⟩, fraction, more, rfl⟩
      · refine ⟨whole, [], ?_⟩
        simpa using Mantissa.plain digits some
      · exact ⟨whole, fraction, .pointed digits (mem_kstar_digit.mp more) (by simp [some])⟩
    · obtain ⟨digits, some⟩ := mem_digits.mp digits
      exact ⟨[], fraction, .pointed .nil digits some⟩
  · rintro ⟨whole, fraction, mantissa⟩
    cases mantissa with
    | plain digits some =>
      refine .inl ⟨w, mem_digits.mpr ⟨digits, some⟩, [], ?_, List.append_nil w⟩
      exact .inl rfl
    | pointed before after some =>
      have tail : '.' :: fraction ∈ point * digit∗ := ⟨['.'], ⟨'.', rfl, rfl⟩, fraction, mem_kstar_digit.mpr after, rfl⟩
      by_cases empty : whole = []
      · subst empty
        exact .inr ⟨['.'], ⟨'.', rfl, rfl⟩, fraction, mem_digits.mpr ⟨after, some⟩, rfl⟩
      · exact .inl ⟨whole, mem_digits.mpr ⟨before, empty⟩, '.' :: fraction, .inr tail, rfl⟩

theorem mem_exponents : w ∈ exponents ↔ ∃ exponent, Exponent w exponent := by
  rw [exponents, Language.mem_add, Language.mem_one]
  constructor
  · rintro (rfl | ⟨_, ⟨_, ⟨mark, is_mark, rfl⟩, sign, signed, rfl⟩, digits, some, rfl⟩)
    · exact ⟨0, .none⟩
    · obtain ⟨negative, sign⟩ := mem_signs.mp signed
      obtain ⟨digits, some⟩ := mem_digits.mp some
      exact ⟨_, .some is_mark sign digits some⟩
  · rintro ⟨exponent, spelled⟩
    cases spelled with
    | none => exact .inl rfl
    | @some mark sign digits negative is_mark signed all some =>
      refine .inr ⟨mark :: sign, ⟨[mark], ⟨mark, is_mark, rfl⟩, sign, mem_signs.mpr ⟨negative, signed⟩, rfl⟩, digits,
        mem_digits.mpr ⟨all, some⟩, rfl⟩

/-- The texts in the language are those that spell a numeral. -/
theorem mem_language : w ∈ language ↔ ∃ n, Spells w n := by
  constructor
  · rintro ⟨_, ⟨sign, signed, mantissa, digits, rfl⟩, tail, exponent, rfl⟩
    obtain ⟨negative, signed⟩ := mem_signs.mp signed
    obtain ⟨whole, fraction, digits⟩ := mem_mantissas.mp digits
    obtain ⟨exponent, spelled⟩ := mem_exponents.mp exponent
    refine ⟨⟨negative, whole, fraction, exponent⟩, ?_⟩
    simpa using Spells.intro signed digits spelled
  · rintro ⟨n, ⟨signed, digits, spelled⟩⟩
    refine ⟨_, ⟨_, mem_signs.mpr ⟨_, signed⟩, _, mem_mantissas.mpr ⟨_, _, digits⟩, rfl⟩, _,
      mem_exponents.mpr ⟨_, spelled⟩, ?_⟩
    simp

end language

section reader

variable {ds body rest tail sign mantissa whole fraction : List Char} {negative : Bool} {exponent : Int}

/-- Whether a text goes on with a digit or a point. -/
def GoesOn (cs : List Char) : Prop := ∃ c rest, cs = c :: rest ∧ (isDigit c = true ∨ c = '.')

/-- Whether a text does not begin with a digit. -/
def Stops (cs : List Char) : Prop := ∀ c, cs.head? = some c → isDigit c = false

theorem stops_point (tail : List Char) : Stops ('.' :: tail) := by
  intro c first
  obtain rfl := Option.some.inj first
  decide +kernel

theorem Stops.takeWhile (stops : Stops rest) : rest.takeWhile isDigit = [] := (span_eq Digits.nil stops).1

theorem digits_stops (cs : List Char) : ∃ ds rest, cs = ds ++ rest ∧ Digits ds ∧ Stops rest :=
  ⟨cs.takeWhile isDigit, cs.dropWhile isDigit, List.takeWhile_append_dropWhile.symm,
    List.all_eq_true.mp List.all_takeWhile, head_dropWhile⟩

theorem Digits.append {es : List Char} (first : Digits ds) (second : Digits es) : Digits (ds ++ es) := by
  rw [Digits, List.forall_mem_append]
  exact ⟨first, second⟩

theorem Digits.goesOn (digits : Digits ds) (some : ds ≠ []) (rest : List Char) : GoesOn (ds ++ rest) := by
  obtain ⟨c, more, rfl⟩ := List.exists_cons_of_ne_nil some
  exact ⟨c, more ++ rest, rfl, .inl (digits c List.mem_cons_self)⟩

theorem Mantissa.goesOn (spelled : Mantissa mantissa whole fraction) (tail : List Char) :
    GoesOn (mantissa ++ tail) := by
  cases spelled with
  | plain digits some => exact digits.goesOn some tail
  | pointed before after some =>
    rw [List.append_assoc]
    by_cases empty : whole = []
    · subst empty
      exact ⟨'.', fraction ++ tail, rfl, .inr rfl⟩
    · exact before.goesOn empty _

theorem readSign_goesOn (goes : GoesOn body) : readSign body = (false, body) := by
  obtain ⟨c, rest, rfl, kind⟩ := goes
  have minus : c ≠ '-' := by
    rintro rfl
    revert kind
    decide +kernel
  have plus : c ≠ '+' := by
    rintro rfl
    revert kind
    decide +kernel
  simp [readSign, minus, plus]

theorem Sign.read (signed : Sign sign negative) (goes : GoesOn body) : readSign (sign ++ body) = (negative, body) := by
  cases signed with
  | none => exact readSign_goesOn goes
  | plus => rfl
  | minus => rfl

theorem readSign_spells (cs : List Char) : ∃ sign, Sign sign (readSign cs).1 ∧ cs = sign ++ (readSign cs).2 := by
  unfold readSign
  split
  · exact ⟨['-'], .minus, rfl⟩
  · exact ⟨['+'], .plus, rfl⟩
  · exact ⟨[], .none, rfl⟩

/-- The digits before and after a point that a text starts with, and what follows them. -/
def readMantissa (body : List Char) : Option (List Char × List Char × List Char) :=
  let whole := body.takeWhile isDigit
  match body.dropWhile isDigit with
  | '.' :: tail =>
    let fraction := tail.takeWhile isDigit
    if whole ++ fraction = [] then none else some (whole, fraction, tail.dropWhile isDigit)
  | rest => if whole = [] then none else some (whole, [], rest)

/-- The numeral that a text starts with. -/
def readFrom (input : List Char) : Option Numeral :=
  (readMantissa (readSign input).2).map fun (whole, fraction, rest) =>
    ⟨(readSign input).1, whole, fraction, readExponent rest⟩

theorem readFrom_eq {input : List Char} (signed : readSign input = (negative, body))
    (read : readMantissa body = some (whole, fraction, rest)) :
    readFrom input = some ⟨negative, whole, fraction, readExponent rest⟩ := by
  simp [readFrom, signed, read]

theorem read?_eq (cs : List Char) : read? cs = readFrom (skipBlank cs) := by
  rcases signed : readSign (skipBlank cs) with ⟨negative, body⟩
  simp only [read?, readFrom, readMantissa, signed]
  generalize body.takeWhile isDigit = whole
  generalize body.dropWhile isDigit = rest
  cases rest with
  | nil => cases whole <;> rfl
  | cons c tail =>
    by_cases pointed : c = '.'
    · subst pointed
      cases whole with
      | nil => cases digits : tail.takeWhile isDigit <;> simp [digits]
      | cons d more => rfl
    · cases whole <;> simp [pointed]

theorem readMantissa_pointed (before : Digits whole) (after : Digits fraction) (stops : Stops rest) :
    readMantissa (whole ++ '.' :: (fraction ++ rest)) =
      if whole ++ fraction = [] then none else some (whole, fraction, rest) := by
  obtain ⟨taken, dropped⟩ := span_eq before (stops_point (fraction ++ rest))
  obtain ⟨taken', dropped'⟩ := span_eq after stops
  simp only [readMantissa, taken, dropped, taken', dropped']

theorem readMantissa_plain (digits : Digits whole) (stops : Stops rest) (no_point : rest.head? ≠ some '.') :
    readMantissa (whole ++ rest) = if whole = [] then none else some (whole, [], rest) := by
  obtain ⟨taken, dropped⟩ := span_eq digits stops
  simp only [readMantissa, taken, dropped]
  cases rest with
  | nil => rfl
  | cons c tail =>
    have other : c ≠ '.' := by simpa using no_point
    simp [other]

/-- What is read spells a mantissa. -/
theorem readMantissa_spells (read : readMantissa body = some (whole, fraction, rest)) :
    ∃ mantissa, Mantissa mantissa whole fraction ∧ body = mantissa ++ rest := by
  obtain ⟨ds, after, rfl, digits, stops⟩ := digits_stops body
  by_cases pointed : after.head? = some '.'
  · obtain ⟨tail, rfl⟩ := List.head?_eq_some_iff.mp pointed
    obtain ⟨es, last, rfl, more, ends⟩ := digits_stops tail
    rw [readMantissa_pointed digits more ends] at read
    split at read
    · contradiction
    · rename_i some
      obtain ⟨rfl, rfl, rfl⟩ : ds = whole ∧ es = fraction ∧ last = rest := by simpa using read
      exact ⟨_, .pointed digits more some, by simp⟩
  · rw [readMantissa_plain digits stops pointed] at read
    split at read
    · contradiction
    · rename_i some
      obtain ⟨rfl, rfl, rfl⟩ : ds = whole ∧ [] = fraction ∧ after = rest := by simpa using read
      exact ⟨_, .plain digits some, rfl⟩

/-- Where a text starts with digits, a mantissa is read. -/
theorem Digits.readMantissa (digits : Digits whole) (some : whole ≠ []) (stops : Stops tail) :
    ∃ fraction rest, readMantissa (whole ++ tail) = .some (whole, fraction, rest) ∧
      ((fraction, rest) = ([], tail) ∨ rest.length < tail.length ∧ GoesOn tail) := by
  by_cases pointed : tail.head? = .some '.'
  · obtain ⟨after, rfl⟩ := List.head?_eq_some_iff.mp pointed
    obtain ⟨fraction, rest, rfl, more, ends⟩ := digits_stops after
    refine ⟨fraction, rest, ?_, .inr ⟨?_, '.', fraction ++ rest, rfl, .inr rfl⟩⟩
    · rw [readMantissa_pointed digits more ends, if_neg (by simp [some])]
    · rw [List.length_cons, List.length_append]
      omega
  · refine ⟨[], tail, ?_, .inl rfl⟩
    rw [readMantissa_plain digits stops pointed, if_neg some]

/-- The digits that are read are no fewer than those of any mantissa that a text starts with.
Where there are more of them, that mantissa breaks off among them. -/
theorem Mantissa.read (spelled : Mantissa mantissa whole fraction) (tail : List Char) :
    ∃ w f rest, readMantissa (mantissa ++ tail) = some (w, f, rest) ∧
      ((w, f, rest) = (whole, fraction, tail) ∨ rest.length < tail.length ∧ GoesOn tail) := by
  obtain ⟨more, after, rfl, digits, stops⟩ := digits_stops tail
  by_cases none : more = []
  · subst none
    cases spelled with
    | plain before some =>
      obtain ⟨f, rest, read, same | further⟩ := before.readMantissa some stops
      · obtain ⟨rfl, rfl⟩ := Prod.mk.inj same
        exact ⟨_, _, _, read, .inl rfl⟩
      · exact ⟨_, _, _, read, .inr further⟩
    | pointed before fraction some =>
      refine ⟨_, _, _, ?_, .inl rfl⟩
      rw [List.append_assoc, List.cons_append, List.nil_append, readMantissa_pointed before fraction stops, if_neg some]
  · have goes : GoesOn (more ++ after) := digits.goesOn none after
    have shorter {rest : List Char} (bound : rest.length ≤ after.length) : rest.length < (more ++ after).length := by
      have some := List.length_pos_of_ne_nil none
      rw [List.length_append]
      omega
    cases spelled with
    | plain before some =>
      obtain ⟨f, rest, read, same⟩ := (before.append digits).readMantissa (by simp [some]) stops
      have bound : rest.length ≤ after.length := by
        rcases same with same | ⟨bound, -⟩
        · obtain ⟨-, rfl⟩ := Prod.mk.inj same
          exact Nat.le_refl _
        · exact Nat.le_of_lt bound
      rw [List.append_assoc] at read
      exact ⟨_, _, _, read, .inr ⟨shorter bound, goes⟩⟩
    | @pointed whole fraction before inside some =>
      refine ⟨whole, fraction ++ more, after, ?_, .inr ⟨shorter (Nat.le_refl _), goes⟩⟩
      have longer : whole ++ (fraction ++ more) ≠ [] := by
        rw [← List.append_assoc]
        exact List.append_ne_nil_of_left_ne_nil some more
      have read := readMantissa_pointed before (inside.append digits) stops
      rw [if_neg longer] at read
      simpa using read

theorem Exponent.eq_nil_of_goesOn (spelled : Exponent tail exponent) (goes : GoesOn (tail ++ rest)) : tail = [] := by
  cases spelled with
  | none => rfl
  | some is_mark =>
    obtain ⟨c, more, text, kind⟩ := goes
    obtain ⟨rfl, -⟩ := List.cons.inj text
    have other : ¬ (isDigit 'e' = true ∨ 'e' = '.') ∧ ¬ (isDigit 'E' = true ∨ 'E' = '.') := by decide +kernel
    rcases is_mark with rfl | rfl
    · exact absurd kind other.1
    · exact absurd kind other.2

theorem readExponent_mark {mark : Char} (is_mark : mark = 'e' ∨ mark = 'E') (signed : Sign sign negative)
    (digits : Digits ds) (some : ds ≠ []) (rest : List Char) : readExponent (mark :: (sign ++ (ds ++ rest))) =
      if negative then -(digitsValue (ds ++ rest.takeWhile isDigit) : Int)
      else digitsValue (ds ++ rest.takeWhile isDigit) := by
  have marked : (mark == 'e' || mark == 'E') = true := by simpa using is_mark
  simp only [readExponent, marked, if_true, signed.read (digits.goesOn some rest),
    List.takeWhile_append_of_pos digits]

theorem Exponent.read (spelled : Exponent tail exponent) : readExponent tail = exponent := by
  cases spelled with
  | none => rfl
  | some is_mark signed digits some => simpa using readExponent_mark is_mark signed digits some []

theorem Digits.length_le {es more : List Char} (digits : Digits ds) (stops : Stops rest)
    (same : ds ++ rest = es ++ more) (others : Digits es) : es.length ≤ ds.length := by
  have taken := (span_eq digits stops).1
  rw [same, List.takeWhile_append_of_pos others] at taken
  rw [← taken, List.length_append]
  exact Nat.le_add_right _ _

/-- An exponent that a text starts with has digits after the sign that is read. -/
theorem Exponent.starts {mark : Char} (spelled : Exponent tail exponent) (starts : tail <+: mark :: rest) :
    tail = [] ∨ (mark = 'e' ∨ mark = 'E') ∧ ∃ ds more, Digits ds ∧ ds ≠ [] ∧ (readSign rest).2 = ds ++ more ∧
      tail.length + more.length = rest.length + 1 := by
  cases spelled with
  | none => exact .inl rfl
  | @some _ sign ds negative is_mark signed digits some =>
    obtain ⟨more, text⟩ := starts
    rw [List.cons_append, List.append_assoc] at text
    obtain ⟨rfl, rfl⟩ := List.cons.inj text
    refine .inr ⟨is_mark, ds, more, digits, some, ?_, ?_⟩
    · rw [signed.read (digits.goesOn some more)]
    · simp only [List.length_cons, List.length_append]
      omega

theorem readExponent_none {mark : Char} (stops : (mark = 'e' ∨ mark = 'E') → Stops (readSign rest).2) :
    readExponent (mark :: rest) = 0 := by
  by_cases is_mark : mark = 'e' ∨ mark = 'E'
  · have marked : (mark == 'e' || mark == 'E') = true := by simpa using is_mark
    have none : (readSign rest).2.takeWhile isDigit = [] := (stops is_mark).takeWhile
    simp [readExponent, marked, none, digitsValue]
  · have unmarked : ¬ (mark == 'e' || mark == 'E') = true := by simpa using is_mark
    rw [readExponent, if_neg unmarked]

/-- The exponent that is read is the longest one. -/
theorem readExponent_spells (rest : List Char) : ∃ e, e <+: rest ∧ Exponent e (readExponent rest) ∧
    ∀ other exponent, Exponent other exponent → other <+: rest → other.length ≤ e.length := by
  cases rest with
  | nil => exact ⟨[], List.nil_prefix, .none, fun other exponent _ starts => starts.length_le⟩
  | cons mark rest =>
    obtain ⟨sign, signed, shape⟩ := readSign_spells rest
    obtain ⟨ds, after, follows, digits, stops⟩ := digits_stops (readSign rest).2
    by_cases exponent : (mark = 'e' ∨ mark = 'E') ∧ ds ≠ []
    · obtain ⟨is_mark, some⟩ := exponent
      have text : mark :: rest = mark :: (sign ++ (ds ++ after)) := by rw [← follows, ← shape]
      have none : after.takeWhile isDigit = [] := stops.takeWhile
      refine ⟨mark :: (sign ++ ds), ⟨after, by simp [text]⟩, ?_, ?_⟩
      · rw [text, readExponent_mark is_mark signed digits some after, none, List.append_nil]
        exact .some is_mark signed digits some
      · intro other exponent spelled starts
        rcases spelled.starts starts with rfl | ⟨-, es, more, others, -, split, length⟩
        · exact Nat.zero_le _
        · have fewer := digits.length_le stops (follows.symm.trans split) others
          have whole := congrArg List.length shape
          have parts := congrArg List.length follows
          have other_parts := congrArg List.length split
          simp only [List.length_append, List.length_cons] at whole parts other_parts ⊢
          omega
    · -- With no digit after the mark and its sign there is no exponent at all.
      have none (is_mark : mark = 'e' ∨ mark = 'E') : ds = [] := by
        by_contra some
        exact exponent ⟨is_mark, some⟩
      refine ⟨[], List.nil_prefix, ?_, ?_⟩
      · rw [readExponent_none]
        · exact .none
        · intro is_mark
          rw [follows, none is_mark]
          exact stops
      · intro other exponent spelled starts
        rcases spelled.starts starts with rfl | ⟨is_mark, es, more, others, some, split, -⟩
        · exact Nat.le_refl _
        · have fewer := digits.length_le stops (follows.symm.trans split) others
          rw [none is_mark] at fewer
          exact absurd (List.length_eq_zero_iff.mp (Nat.le_zero.mp fewer)) some

end reader

/-- A numeral that a text starts with, and that is the longest one. -/
structure Consumes (input spelling : List Char) (n : Numeral) : Prop where
  spells : Spells spelling n
  starts : spelling <+: input
  longest : ∀ other ∈ language, other <+: input → other.length ≤ spelling.length

section longest

variable {input spelling other more : List Char} {m n : Numeral}

/-- The parts of a numeral that a text starts with, after the sign that is read. -/
theorem Spells.parts (spelled : Spells spelling n) (more : List Char) : ∃ sign mantissa tail,
    spelling = sign ++ (mantissa ++ tail) ∧ readSign (spelling ++ more) = (n.negative, mantissa ++ (tail ++ more)) ∧
      Mantissa mantissa n.whole n.fraction ∧ Exponent tail n.exponent := by
  cases spelled with
  | @intro sign mantissa whole fraction tail negative exponent signed digits spelled =>
    refine ⟨sign, mantissa, tail, rfl, ?_, digits, spelled⟩
    rw [List.append_assoc, List.append_assoc, signed.read (digits.goesOn _)]

/-- A text that spells a numeral is read as that numeral. -/
theorem Spells.read (spelled : Spells spelling n) : readFrom spelling = some n := by
  obtain ⟨sign, mantissa, tail, -, signed, digits, spelled⟩ := spelled.parts []
  obtain ⟨w, f, rest, read, same | ⟨shorter, goes⟩⟩ := digits.read tail
  · obtain ⟨rfl, rfl, rfl⟩ : w = n.whole ∧ f = n.fraction ∧ rest = tail := by simpa using same
    rw [List.append_nil, List.append_nil] at signed
    rw [readFrom_eq signed read, spelled.read]
  · -- Nothing comes after the exponent here, so that no digit is left to be read.
    rw [← List.append_nil tail] at goes
    obtain rfl := spelled.eq_nil_of_goesOn goes
    contradiction

theorem Spells.unique (first : Spells spelling n) (second : Spells spelling m) : n = m :=
  Option.some.inj (first.read.symm.trans second.read)

theorem Spells.found (spelled : Spells other m) (starts : other <+: input) : ∃ n, readFrom input = some n := by
  obtain ⟨more, rfl⟩ := starts
  obtain ⟨sign, mantissa, tail, -, signed, digits, -⟩ := spelled.parts more
  obtain ⟨w, f, rest, read, -⟩ := digits.read (tail ++ more)
  exact ⟨_, readFrom_eq signed read⟩

/-- What is read is the longest numeral that a text starts with. -/
theorem readFrom_consumes (read : readFrom input = some n) : ∃ spelling, Consumes input spelling n := by
  obtain ⟨sign, signed, shape⟩ := readSign_spells input
  obtain ⟨⟨w, f, rest⟩, digits, rfl⟩ := Option.map_eq_some_iff.mp read
  obtain ⟨mantissa, spelled, follows⟩ := readMantissa_spells digits
  obtain ⟨e, ⟨after, rfl⟩, exponent, longest⟩ := readExponent_spells rest
  have starts : sign ++ (mantissa ++ e) <+: input := by
    rw [shape, follows]
    exact ⟨after, by simp⟩
  refine ⟨sign ++ (mantissa ++ e), .intro signed spelled exponent, starts, ?_⟩
  -- Another numeral has the same sign, and its digits either are those read or break off.
  rintro other member ⟨more, text⟩
  obtain ⟨m, other_spelled⟩ := mem_language.mp member
  obtain ⟨sign', mantissa', tail, rfl, signed', digits', exponent'⟩ := other_spelled.parts more
  rw [text] at signed'
  obtain ⟨w', f', rest', read', same⟩ := digits'.read (tail ++ more)
  rw [signed', read'] at digits
  obtain ⟨rfl, rfl, rfl⟩ : w' = w ∧ f' = f ∧ rest' = e ++ after := by simpa using digits
  have sizes := congrArg List.length (text.trans (shape.trans (congrArg (sign ++ ·) follows)))
  simp only [List.length_append] at sizes ⊢
  rcases same with same | ⟨shorter, goes⟩
  · obtain ⟨-, -, rest_eq⟩ : w' = m.whole ∧ f' = m.fraction ∧ e ++ after = tail ++ more := by simpa using same
    have bound := longest tail m.exponent exponent' ⟨more, rest_eq.symm⟩
    have parts := congrArg List.length rest_eq
    simp only [List.length_append] at parts
    omega
  · obtain rfl := exponent'.eq_nil_of_goesOn goes
    simp only [List.nil_append, List.length_append] at shorter
    simp only [List.length_nil] at sizes ⊢
    omega

theorem Consumes.unique {other : List Char} (first : Consumes input spelling n) (second : Consumes input other m) :
    spelling = other ∧ n = m := by
  have shorter := second.longest spelling (mem_language.mpr ⟨n, first.spells⟩) first.starts
  have longer := first.longest other (mem_language.mpr ⟨m, second.spells⟩) second.starts
  obtain rfl : spelling = other :=
    (List.prefix_of_prefix_length_le first.starts second.starts shorter).eq_of_length_le longer
  exact ⟨rfl, first.spells.unique second.spells⟩

theorem readFrom_eq_some_iff : readFrom input = some n ↔ ∃ spelling, Consumes input spelling n := by
  constructor
  · exact readFrom_consumes
  · rintro ⟨spelling, consumes⟩
    obtain ⟨m, read⟩ := consumes.spells.found consumes.starts
    obtain ⟨other, found⟩ := readFrom_consumes read
    obtain ⟨-, rfl⟩ := consumes.unique found
    exact read

theorem readFrom_eq_none_iff : readFrom input = none ↔ ∀ spelling ∈ language, ¬ spelling <+: input := by
  constructor
  · intro none spelling member starts
    obtain ⟨n, spelled⟩ := mem_language.mp member
    obtain ⟨m, read⟩ := spelled.found starts
    rw [none] at read
    contradiction
  · intro none
    cases read : readFrom input with
    | none => rfl
    | some n =>
      obtain ⟨spelling, consumes⟩ := readFrom_consumes read
      exact absurd consumes.starts (none spelling (mem_language.mpr ⟨n, consumes.spells⟩))

end longest

end Numeral

variable {α : Type} [Scalar α]

theorem number?_eq (token : String) : (number? token : Option α) =
    (Numeral.readFrom (skipBlank token.toList)).bind fun n =>
      if Scalar.isFinite (n.value : α) then some n.value else none := by
  rw [number?, Numeral.read?_eq]
  cases Numeral.readFrom (skipBlank token.toList) <;> rfl

theorem skipBlank_append {cs : List Char} (some : skipBlank cs ≠ []) (more : List Char) :
    skipBlank (cs ++ more) = skipBlank cs ++ more := by
  rw [skipBlank, List.dropWhile_append, if_neg (by simpa [skipBlank] using some), skipBlank]

/-- Text after a token does not change what is read, unless there is a longer numeral then. -/
theorem Numeral.readFrom_append {cs more : List Char}
    (no_longer : ∀ other ∈ language, other <+: skipBlank (cs ++ more) →
      ∃ spelling ∈ language, spelling <+: skipBlank cs ∧ other.length ≤ spelling.length) :
    readFrom (skipBlank (cs ++ more)) = readFrom (skipBlank cs) := by
  cases read : readFrom (skipBlank cs) with
  | none =>
    rw [readFrom_eq_none_iff] at read ⊢
    intro other member starts
    obtain ⟨spelling, spelled, before, -⟩ := no_longer other member starts
    exact read spelling spelled before
  | some n =>
    obtain ⟨spelling, spells, starts, longest⟩ := readFrom_consumes read
    have some : skipBlank cs ≠ [] := by
      intro none
      rw [none] at read
      contradiction
    refine readFrom_eq_some_iff.mpr ⟨spelling, spells, ?_, ?_⟩
    · rw [skipBlank_append some]
      exact starts.trans (List.prefix_append _ _)
    · intro other member begins
      obtain ⟨shorter, spelled, before, bound⟩ := no_longer other member begins
      exact bound.trans (longest shorter spelled before)

/-- The number of a token is that of the longest numeral that it starts with after its white
space: there is none if no numeral is there or its value is out of range. Text after the token
that makes the numeral no longer makes no difference. -/
theorem number_longest_prefix (token : String) :
    ((number? token : Option α) = none ↔
      (∀ spelling ∈ Numeral.language, ¬ spelling <+: skipBlank token.toList) ∨
        ∃ spelling n, Numeral.Consumes (skipBlank token.toList) spelling n ∧ Scalar.isFinite (n.value : α) = false) ∧
    (∀ x : α, number? token = some x ↔ ∃ spelling n, Numeral.Consumes (skipBlank token.toList) spelling n ∧
      Scalar.isFinite (n.value : α) = true ∧ x = n.value) ∧
    ∀ more : String, (∀ other ∈ Numeral.language, other <+: skipBlank (token ++ more).toList →
        ∃ spelling ∈ Numeral.language, spelling <+: skipBlank token.toList ∧ other.length ≤ spelling.length) →
      (number? (token ++ more) : Option α) = number? token := by
  let input := skipBlank token.toList
  have found (n : Numeral) : Numeral.readFrom input = some n ↔ ∃ spelling, Numeral.Consumes input spelling n :=
    Numeral.readFrom_eq_some_iff
  have absent : Numeral.readFrom input = none ↔ ∀ spelling ∈ Numeral.language, ¬ spelling <+: input :=
    Numeral.readFrom_eq_none_iff
  refine ⟨?_, ?_, ?_⟩
  · rw [number?_eq, ← absent]
    constructor
    · intro none
      cases read : Numeral.readFrom input with
      | none => exact .inl rfl
      | some n =>
        obtain ⟨spelling, consumes⟩ := (found n).mp read
        refine .inr ⟨spelling, n, consumes, ?_⟩
        simpa [input, read] using none
    · rintro (none | ⟨spelling, n, consumes, infinite⟩)
      · simp [input, none]
      · simp [input, (found n).mpr ⟨spelling, consumes⟩, infinite]
  · intro x
    rw [number?_eq, Option.bind_eq_some_iff]
    constructor
    · rintro ⟨n, read, given⟩
      obtain ⟨spelling, consumes⟩ := (found n).mp read
      obtain ⟨finite, value⟩ := Option.ite_none_right_eq_some.mp given
      exact ⟨spelling, n, consumes, finite, (Option.some.inj value).symm⟩
    · rintro ⟨spelling, n, consumes, finite, rfl⟩
      exact ⟨n, (found n).mpr ⟨spelling, consumes⟩, if_pos finite⟩
  · intro more no_longer
    rw [String.toList_append] at no_longer
    rw [number?_eq, number?_eq, String.toList_append, Numeral.readFrom_append no_longer]

example : ["1.", ".5", "1.e5", "1e", "1e+", ".e5"].map (fun token => Numeral.read? token.toList) =
    [some ⟨false, ['1'], [], 0⟩, some ⟨false, [], ['5'], 0⟩, some ⟨false, ['1'], [], 5⟩, some ⟨false, ['1'], [], 0⟩,
      some ⟨false, ['1'], [], 0⟩, none] := by
  decide +kernel

end Partita.Score
