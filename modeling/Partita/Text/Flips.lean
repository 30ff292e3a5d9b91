/-! Sets of characters given by the code points at which membership flips. -/
namespace Partita.Text

/-- The number of entries of `flips` from `low` on that are at most `code`, for
a sorted table. Each round halves the part of the table still in question. -/
def countAtMost (flips : Array Nat) (code : Nat) : (fuel low high : Nat) → Nat
  | 0, low, _ => low
  | fuel + 1, low, high =>
    if high ≤ low then low
    else
      let middle := (low + high) / 2
      if flips.getD middle 0 ≤ code then countAtMost flips code fuel (middle + 1) high
      else countAtMost flips code fuel low middle

/-- A code point is in the set when an odd number of flips is at most it. -/
def inSet (flips : Array Nat) (code : Nat) : Bool :=
  countAtMost flips code (flips.size.log2 + 1) 0 flips.size % 2 == 1

end Partita.Text
