import Partita.Fault

/-! Texts in bytes. A character takes up one to four of them; what cannot be
read is reported with its place. -/
namespace Partita.Text

/-- How the bytes of a character begin: how many follow the first one, its share
of the code point, and the least and largest second byte. -/
structure Lead where
  following : Nat
  share : Nat
  least : Nat
  largest : Nat

def lead? (b : Nat) : Option Lead :=
  if b < 0xC2 then none
  else if b < 0xE0 then some ⟨1, b - 0xC0, 0x80, 0xBF⟩
  else if b == 0xE0 then some ⟨2, 0, 0xA0, 0xBF⟩
  else if b == 0xED then some ⟨2, 0xD, 0x80, 0x9F⟩
  else if b < 0xF0 then some ⟨2, b - 0xE0, 0x80, 0xBF⟩
  else if b == 0xF0 then some ⟨3, 0, 0x90, 0xBF⟩
  else if b < 0xF4 then some ⟨3, b - 0xF0, 0x80, 0xBF⟩
  else if b == 0xF4 then some ⟨3, 4, 0x80, 0x8F⟩
  else none

/-- What cannot be read: the bytes concerned, their place, and why. -/
def unreadable (place : Nat) (bytes : List UInt8) (reason : String) : Fault :=
  .undecodable <| match bytes with
    | [b] => s!"byte 0x{String.ofList (hexDigits 2 b.toNat)} in position {place}: {reason}"
    | _ => s!"bytes in position {place}-{place + bytes.length - 1}: {reason}"

/-- Reads the bytes that follow the first one: `read` are those read so far, last
one first. The bounds are those of the next byte. -/
def continuation (place : Nat) (read : List UInt8) :
    (missing code least largest : Nat) → List UInt8 → Except Fault Nat
  | 0, code, _, _, _ => .ok code
  | _ + 1, _, _, _, [] => .error (unreadable place read.reverse "unexpected end of data")
  | missing + 1, code, least, largest, b :: rest =>
    if least ≤ b.toNat && b.toNat ≤ largest then
      continuation place (b :: read) missing (code * 64 + b.toNat % 64) 0x80 0xBF rest
    else .error (unreadable place read.reverse "invalid continuation byte")

/-- Reads characters from a place on, at most `fuel` of them. -/
def decodeFrom (place : Nat) : (fuel : Nat) → List Char → List UInt8 → Except Fault (List Char)
  | 0, read, _ => .ok read.reverse
  | _ + 1, read, [] => .ok read.reverse
  | fuel + 1, read, b :: rest =>
    if b < 0x80 then decodeFrom (place + 1) fuel (Char.ofNat b.toNat :: read) rest
    else
      match lead? b.toNat with
      | none => .error (unreadable place [b] "invalid start byte")
      | some l =>
        match continuation place [b] l.following l.share l.least l.largest rest with
        | .error f => .error f
        | .ok code =>
          decodeFrom (place + 1 + l.following) fuel (Char.ofNat code :: read) (rest.drop l.following)

def decode (bytes : ByteArray) : Except Fault String :=
  (decodeFrom 0 bytes.size [] bytes.data.toList).map String.ofList

end Partita.Text
