/-! Signals: a channel is an array of samples, a stereo signal two channels. -/
namespace Partita

/-- Two channels of the same length. -/
structure Stereo (α : Type) where
  left : Array α
  right : Array α
  deriving Inhabited

namespace Stereo

variable {α : Type}

def size (s : Stereo α) : Nat := s.left.size

@[inline]
def map (f : Array α → Array α) (s : Stereo α) : Stereo α := ⟨f s.left, f s.right⟩

def channels (s : Stereo α) : List (Array α) := [s.left, s.right]

end Stereo

end Partita
