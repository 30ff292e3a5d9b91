import Partita.Text.Blank
import Partita.Text.Digit
import Partita.Fault

/-! Numbers in a script. Only the leading numeric part of a token counts:
`0.5b` reads as one half and `abc` as nothing at all. -/
namespace Partita.Score

def readSign : List Char → Bool × List Char
  | '-' :: rest => (true, rest)
  | '+' :: rest => (false, rest)
  | cs => (false, cs)

/-- A decimal numeral taken apart: its digits before and after the point and
its exponent. -/
structure Numeral where
  negative : Bool
  whole : List Char
  fraction : List Char
  exponent : Int
  deriving DecidableEq, Repr

namespace Numeral

/-- An exponent part, which is only there when it has a digit. -/
def readExponent : List Char → Int
  | c :: rest =>
    if c == 'e' || c == 'E' then
      let (negative, digits) := readSign rest
      let n : Int := Text.digitsValue (digits.takeWhile Text.isDigit)
      if negative then -n else n
    else 0
  | [] => 0

/-- The longest decimal numeral a text starts with, after white space. -/
def read? (cs : List Char) : Option Numeral :=
  let (negative, body) := readSign (Text.skipBlank cs)
  let whole := body.takeWhile Text.isDigit
  let rest := body.dropWhile Text.isDigit
  match whole, rest with
  | [], '.' :: tail =>
    let fraction := tail.takeWhile Text.isDigit
    if fraction.isEmpty then none
    else some ⟨negative, [], fraction, readExponent (tail.dropWhile Text.isDigit)⟩
  | [], _ => none
  | _, '.' :: tail =>
    some ⟨negative, whole, tail.takeWhile Text.isDigit, readExponent (tail.dropWhile Text.isDigit)⟩
  | _, _ => some ⟨negative, whole, [], readExponent rest⟩

variable {α : Type} [Scalar α]

def value (n : Numeral) : α :=
  let magnitude : α := Scalar.ofDecimal (Text.digitsValue (n.whole ++ n.fraction))
    (n.exponent - n.fraction.length)
  if n.negative then -magnitude else magnitude

end Numeral

variable {α : Type} [Scalar α]

/-- The leading number of a token. Numbers out of range read as nothing. -/
def number? (token : String) : Option α :=
  match Numeral.read? token.toList with
  | none => none
  | some n => if Scalar.isFinite (n.value : α) then some n.value else none

/-- The leading integer of a token. -/
def count? (token : String) : Except Fault (Option Int) :=
  let (negative, body) := readSign (Text.skipBlank token.toList)
  let digits := body.takeWhile Text.isDigit
  if digits.isEmpty then .ok none
  else if maxIntegerDigits < digits.length then .error (.tooManyDigits digits.length)
  else
    let n : Int := Text.digitsValue digits
    .ok (some (if negative then -n else n))

/-- The number of a token; missing, unreadable and zero all give the default. -/
def numberOr (token : Option String) (default : α) : α :=
  match token.bind number? with
  | some x => if x == 0 then default else x
  | none => default

/-- The integer of a token; missing, unreadable and zero all give the default. -/
def countOr (token : Option String) (default : Int) : Except Fault Int := do
  match token with
  | none => return default
  | some t =>
    match ← count? t with
    | some n => return if n == 0 then default else n
    | none => return default

end Partita.Score
