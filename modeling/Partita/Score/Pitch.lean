import Partita.Score.Numeral

/-! Pitches: note names such as `c4`, `G#5` or `Bb3`, and frequencies in hertz. -/
namespace Partita.Score

/-- A note name: semitones above C, and the octave as written. -/
structure NoteName where
  semitone : Int
  octaveNegative : Bool
  octaveDigits : List Char
  deriving DecidableEq, Repr

def letterSemitone? (c : Char) : Option Int :=
  match c.toLower with
  | 'c' => some 0
  | 'd' => some 2
  | 'e' => some 4
  | 'f' => some 5
  | 'g' => some 7
  | 'a' => some 9
  | 'b' => some 11
  | _ => none

/-- An accidental and what follows it. -/
def readAccidental : List Char → Int × List Char
  | '#' :: rest => (1, rest)
  | 'b' :: rest => (-1, rest)
  | cs => (0, cs)

/-- A letter, an accidental or none, and an octave, with nothing around them. -/
def NoteName.read? : List Char → Option NoteName
  | [] => none
  | c :: rest =>
    match letterSemitone? c with
    | none => none
    | some base =>
      let (accidental, tail) := readAccidental rest
      let (negative, digits) := match tail with
        | '-' :: ds => (true, ds)
        | ds => (false, ds)
      if !digits.isEmpty && digits.all Text.isDigit then some ⟨base + accidental, negative, digits⟩
      else none

variable {α : Type} [Scalar α]

def equalTempered (semitones : Int) : Except Fault α :=
  let octaves : α := Scalar.ofRatio semitones 12
  if !Scalar.isFinite octaves then .error .quotientTooLarge
  else
    let factor := Scalar.pow 2 octaves
    if Scalar.isFinite factor then .ok (440 * factor) else .error .powerOutOfRange

/-- The frequency of a note token: a note name or a positive number of hertz. -/
def frequency (token : String) : Except Fault α :=
  match NoteName.read? (Text.trimChars token.toList) with
  | some name =>
    if maxIntegerDigits < name.octaveDigits.length then
      .error (.tooManyDigits name.octaveDigits.length)
    else
      let magnitude : Int := Text.digitsValue name.octaveDigits
      let octave := if name.octaveNegative then -magnitude else magnitude
      equalTempered ((octave + 1) * 12 + name.semitone - 69)
  | none =>
    match (number? token : Option α) with
    | some x => if x ≤ 0 then .error (.invalidNote token) else .ok x
    | none => .error (.invalidNote token)

end Partita.Score
