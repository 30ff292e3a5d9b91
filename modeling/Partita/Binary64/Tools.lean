import Partita.Binary64.Acoustics
import Partita.Binary64.Interchange
import Partita.Studio.Basic

/-! The signal processing of a studio in binary floating point. -/
namespace Partita.Binary64

def tools : Tools Float := Tools.standard

end Partita.Binary64
