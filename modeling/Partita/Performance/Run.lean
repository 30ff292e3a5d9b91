import Partita.Fault

/-! Runs. Playing a block starts a run: it walks the lines of the block with a
cursor and a stack of open loops, and carries its position on the timeline. -/
namespace Partita

/-- An open loop: the passes still to be made, the current one included, and
the line its body starts at. -/
structure LoopFrame where
  remaining : Int
  body : Nat
  deriving DecidableEq, Repr

inductive Outcome (α : Type) where
  | finished (position : α)
  | failed (fault : Fault)
  | cancelled

inductive Status (α : Type) where
  /-- It was counted but has not taken its first step. -/
  | created
  /-- It is about to read its next line. -/
  | running
  /-- It waits for some seconds; `beats` is there when it was told to in beats. -/
  | waiting (seconds : α) (beats : Option α)
  /-- It waits, until a deadline, for the session to settle. -/
  | settling (deadline : α)
  /-- It waits for the runs it has started to end. -/
  | playing (children : List Nat)
  | ended (outcome : Outcome α)

structure Run (α : Type) where
  name : String
  lines : Array String
  generation : Nat
  position : α
  cursor : Nat
  loops : List LoopFrame
  status : Status α

inductive Wake where
  /-- What it waited for has happened. -/
  | go
  /-- Its deadline has passed. -/
  | timeout
  /-- A run it waited for has failed. -/
  | fail (fault : Fault)
  /-- It is to end at once. -/
  | cancel

namespace Run

variable {α : Type}

def isLive (r : Run α) : Bool := match r.status with
  | .ended _ => false
  | _ => true

/-- Opens a loop whose body starts at the cursor. -/
def openLoop (r : Run α) (passes : Int) : Run α := { r with loops := ⟨passes, r.cursor⟩ :: r.loops }

/-- Closes a pass of the innermost loop: the cursor goes back to its body or
the loop is over. Without an open loop nothing happens. -/
def closeLoop (r : Run α) : Run α :=
  match r.loops with
  | [] => r
  | frame :: rest =>
    if 0 < frame.remaining - 1 then
      { r with cursor := frame.body, loops := { frame with remaining := frame.remaining - 1 } :: rest }
    else { r with loops := rest }

end Run

end Partita
