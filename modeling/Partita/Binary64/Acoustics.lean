import Partita.Binary64.Arithmetic
import Partita.Signal.Acoustic
import Partita.Signal.Fourier
import Partita.Signal.Noise

/-! Reverberation in binary floating point. -/
namespace Partita.Binary64

instance : Acoustic Float where
  noise := Noise.sequence
  convolve := Fourier.convolve

end Partita.Binary64
