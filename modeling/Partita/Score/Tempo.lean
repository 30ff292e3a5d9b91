import Partita.Score.Numeral

/-! Beats, bars and note lengths in seconds. -/
namespace Partita.Score

variable {α : Type} [Scalar α]

def beatsPerBar : Int := 4

/-- The length of a note whose token gives none, in seconds or in bars. -/
def defaultNoteLength : α := 0.5

def quotient (a b : α) : Except Fault α := if b == 0 then .error .divisionByZero else .ok (a / b)

def beatsToSeconds (beats bpm : α) : Except Fault α := quotient (beats * 60) bpm

def barsToSeconds (bars bpm : α) : Except Fault α := do
  return bars * Scalar.ofInt beatsPerBar * (← quotient 60 bpm)

/-- The length of a note: a token that ends in `b` counts bars, any other one
seconds. -/
def noteSeconds (token : Option String) (bpm : α) : Except Fault α :=
  match token with
  | some t =>
    if t.toList.getLast? == some 'b' then barsToSeconds (numberOr token defaultNoteLength) bpm
    else .ok (numberOr token defaultNoteLength)
  | none => .ok defaultNoteLength

/-- A token as a caller may hold it: text of a script or a number already. -/
inductive Token (α : Type) where
  | text (s : String)
  | integer (n : Int)
  | real (x : α)

namespace Token

def number? : Token α → Except Fault (Option α)
  | text s => .ok (Score.number? s)
  | integer n => do return some (← Scalar.ofInt? n)
  | real x => .ok (if Scalar.isFinite x then some x else none)

def count? : Token α → Except Fault (Option Int)
  | text s => Score.count? s
  | integer n => .ok (some n)
  | real x => do return some (← Scalar.toInt x)

/-- The number of a token; missing, unreadable and zero all give the default. -/
def numberOr (token : Option (Token α)) (default : α) : Except Fault α := do
  match token with
  | none => return default
  | some t =>
    match ← t.number? with
    | some x => return if x == 0 then default else x
    | none => return default

/-- The integer of a token; missing, unreadable and zero all give the default. -/
def countOr (token : Option (Token α)) (default : Int) : Except Fault Int := do
  match token with
  | none => return default
  | some t =>
    match ← t.count? with
    | some n => return if n == 0 then default else n
    | none => return default

/-- The length of a note. Numbers are seconds. -/
def noteSeconds (token : Option (Token α)) (bpm : α) : Except Fault α :=
  match token with
  | some (text s) => Score.noteSeconds (some s) bpm
  | _ => numberOr token defaultNoteLength

end Token

end Partita.Score
