import Partita.Log
import Partita.Scalar

/-! The session every run shares: tempo, the count of live runs, and whether the
performance goes on. Whenever the count or the flag moves, the session announces
a change; who waits for it waits on the number of changes announced so far. -/
namespace Partita

variable {α : Type} [Scalar α]

structure Session (α : Type) where
  bpm : α
  /-- How many runs of the current generation are live. -/
  active : Nat
  playing : Bool
  /-- How often the session was reset. Runs of earlier generations are orphans. -/
  generation : Nat
  /-- The latest position at which a run ended since the start. -/
  latestFinish : α
  /-- How many changes were announced. -/
  changes : Nat

namespace Session

def initial (bpm : α) : Session α := ⟨bpm, 0, false, 0, 0, 0⟩

def setBpm (s : Session α) (bpm : α) : Session α := { s with bpm }

def notify (s : Session α) : Session α := { s with changes := s.changes + 1 }

def start (s : Session α) : Session α := { s with playing := true, latestFinish := 0 }

/-- Counts a new run, which belongs to the current generation. -/
def runStarted (s : Session α) : Session α := { s with active := s.active + 1 }.notify

/-- Counts the end of a run. Orphans are not counted any more. -/
def runFinished (s : Session α) (generation : Nat) (position : α) : Session α :=
  if generation == s.generation then
    { s with
      active := s.active - 1
      latestFinish := Scalar.max s.latestFinish position }.notify
  else s

/-- The record that goes with the end of a run that was never counted. -/
def strayFinish? (s : Session α) (generation : Nat) : Option Record :=
  if generation == s.generation && s.active == 0 then
    some ⟨.error, "session", "Run finished with no active runs recorded"⟩
  else none

def stop (s : Session α) : Session α := { s with playing := false }.notify

/-- Ends everything at once: the count goes to zero and every live run becomes
an orphan. -/
def reset (s : Session α) : Session α :=
  { s with playing := false, active := 0, generation := s.generation + 1 }.notify

/-- Whether nothing is left to wait for: at most `baseline` runs are live, or
the performance does not go on. -/
def settled (s : Session α) (baseline : Int) : Bool := !(s.playing && baseline < s.active)

/-- What a waiter for the session to settle does at an instant. -/
inductive Verdict where
  | settled
  | expired
  | wait
  deriving DecidableEq, Repr

def verdict (s : Session α) (baseline : Int) (deadline now : α) : Verdict :=
  if s.settled baseline then .settled
  else if deadline - now ≤ 0 then .expired
  else .wait

end Session

end Partita
