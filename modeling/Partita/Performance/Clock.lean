import Partita.Scalar

/-! Clocks. Positions are seconds on the timeline of a performance. On a virtual
clock each run carries its own position and never really waits; on a realtime
clock a position is the time that has passed since the start. -/
namespace Partita

variable {α : Type} [Scalar α]

inductive Clock (α : Type) where
  /-- The latest position any run has reached. -/
  | virtual (horizon : α)
  /-- The instant the performance started. -/
  | realtime (origin : Option α)

/-- How a run pauses: it lets the others go on, or waits for some seconds. -/
inductive Pause (α : Type) where
  | yield
  | sleep (seconds : α)

namespace Clock

def start (time : α) : Clock α → Clock α
  | virtual _ => virtual 0
  | realtime _ => realtime (some time)

def now (time : α) : Clock α → α
  | virtual horizon => horizon
  | realtime (some origin) => time - origin
  | realtime none => 0

/-- The pause of a run that waits for some seconds. -/
def pause (seconds : α) : Clock α → Pause α
  | virtual _ => .yield
  | realtime _ => if Scalar.max 0 seconds ≤ 0 then .yield else .sleep (Scalar.max 0 seconds)

/-- The position after a pause that began at `position`. -/
def arrive (time position seconds : α) : Clock α → α × Clock α
  | virtual horizon =>
    let target := position + Scalar.max 0 seconds
    (target, virtual (Scalar.max horizon target))
  | clock => (clock.now time, clock)

/-- The position of a run that waited for others that ended at `finished`. -/
def settle (time position : α) (finished : List α) : Clock α → α
  | virtual _ => Scalar.maximum position finished
  | clock => clock.now time

/-- A pause while nothing else goes on: the new position, clock and time. -/
def advance (time position seconds : α) (clock : Clock α) : α × Clock α × α :=
  let later := match clock.pause seconds with
    | .yield => time
    | .sleep d => time + d
  let (target, clock) := clock.arrive later position seconds
  (target, clock, later)

end Clock

end Partita
