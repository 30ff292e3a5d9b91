import Partita.Signal.Stereo

/-! Audio data with its shape. A shape of one number has a single channel; one
of two numbers has frames and channels. Deeper shapes are no audio. -/
namespace Partita

structure Audio (α : Type) where
  shape : List Nat
  columns : Array (Array α)
  deriving Inhabited

namespace Audio

variable {α : Type}

def mono (samples : Array α) : Audio α := ⟨[samples.size], #[samples]⟩

def ofStereo (s : Stereo α) : Audio α := ⟨[s.size, 2], #[s.left, s.right]⟩

/-- Channels of `frames` samples each. -/
def ofColumns (frames : Nat) (columns : Array (Array α)) : Audio α :=
  ⟨[frames, columns.size], columns⟩

def frames (a : Audio α) : Nat := a.shape.headD 0

def isMono (a : Audio α) : Bool := a.shape.length == 1

def channelCount (a : Audio α) : Nat :=
  match a.shape with
  | _ :: c :: _ => c
  | _ => 1

def withColumns (a : Audio α) (columns : Array (Array α)) : Audio α := { a with columns }

def map {β : Type} (f : α → β) (a : Audio α) : Audio β := ⟨a.shape, a.columns.map (·.map f)⟩

/-- The two channels of stereo data. -/
def stereo (a : Audio α) : Stereo α := ⟨a.columns.getD 0 #[], a.columns.getD 1 #[]⟩

/-- All samples, frame by frame. -/
def interleaved [Inhabited α] (a : Audio α) : Array α :=
  match a.columns.toList with
  | [c] => c
  | [l, r] => Nat.fold a.frames (fun i _ out => (out.push (l.getD i default)).push (r.getD i default))
      (Array.emptyWithCapacity (2 * a.frames))
  | columns => Nat.fold a.frames (fun i _ out => columns.foldl (fun out c => out.push (c.getD i default)) out)
      (Array.emptyWithCapacity (columns.length * a.frames))

end Audio

end Partita
