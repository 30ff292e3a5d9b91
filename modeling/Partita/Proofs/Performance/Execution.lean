import Partita.Proofs.Performance.Step

/-! Executions. At each moment one act is taken: a run steps or is woken, or
someone outside starts, stops or replays the performance. Any order of acts that
are enabled is an execution, so that whatever schedules the runs is one of them. -/
namespace Partita

open Score

variable {α : Type}

/-- What can happen to a performance. -/
inductive Act (α : Type) where
  | step (run : Nat)
  | wake (run : Nat) (wake : Wake)
  | spawn (name : String) (position : α)
  | begin
  | replay
  | stop
  | forceStop
  | normalize

def Act.actor? : Act α → Option Nat
  | step id | wake id _ => some id
  | _ => none

structure Moment (α : Type) where
  time : α
  act : Act α

namespace Performance

def outcome? (p : Performance α) (id : Nat) : Option (Outcome α) :=
  p.runs[id]?.bind fun run => match run.status with
    | .ended outcome => some outcome
    | _ => none

theorem outcome?_eq_some {p : Performance α} {id : Nat} {outcome : Outcome α} :
    p.outcome? id = some outcome ↔ ∃ run, p.runs[id]? = some run ∧ run.status = .ended outcome := by
  rw [outcome?, Option.bind_eq_some_iff]
  refine exists_congr fun run => and_congr_right fun _ => ?_
  cases run.status <;> simp

def hasFinished (p : Performance α) (id : Nat) : Bool := match p.outcome? id with
  | some (.finished _) => true
  | _ => false

theorem exists_of_hasFinished {p : Performance α} {id : Nat} (finished : p.hasFinished id = true) :
    ∃ position, p.outcome? id = some (.finished position) := by
  unfold hasFinished at finished
  split at finished
  · exact ⟨_, ‹_›⟩
  · contradiction

theorem finished_of_hasFinished {p : Performance α} {id : Nat} {run : Run α} (found : p.runs[id]? = some run)
    (finished : p.hasFinished id = true) : ∃ position, run.status = .ended (.finished position) := by
  obtain ⟨position, ended⟩ := exists_of_hasFinished finished
  obtain ⟨r, there, status⟩ := outcome?_eq_some.mp ended
  obtain rfl := Option.some.inj (found.symm.trans there)
  exact ⟨position, status⟩

def hasFailed (p : Performance α) (f : Fault) (id : Nat) : Bool := match p.outcome? id with
  | some (.failed g) => f == g
  | _ => false

def wasCancelled (p : Performance α) (id : Nat) : Bool := match p.outcome? id with
  | some .cancelled => true
  | _ => false

def isAsked (p : Performance α) (id : Nat) : Bool := p.outbox.contains (.cancel id)

/-- Whether a run with a status can be woken in a way. Runs that were started
together are waited for until all have finished or one has not. -/
def wakes (p : Performance α) (id : Nat) (status : Status α) : Wake → Bool
  | .go => match status with
    | .created | .waiting .. | .settling _ => true
    | .playing children => children.all p.hasFinished
    | .running | .ended _ => false
  | .timeout => match status with
    | .settling _ => true
    | _ => false
  | .fail f => match status with
    | .playing children => children.any (p.hasFailed f)
    | _ => false
  | .cancel => match status with
    | .created | .waiting .. | .settling _ => p.isAsked id
    | .playing children => p.isAsked id || children.any p.wasCancelled
    | .running | .ended _ => false

def enabled (p : Performance α) : Act α → Bool
  | .step id => match p.runs[id]? with
    | some run => match run.status with
      | .running => true
      | _ => false
    | none => false
  | .wake id w => match p.runs[id]? with
    | some run => p.wakes id run.status w
    | none => false
  | _ => true

/-- A turn that a run can take: a step while it is running, or a wake that fits what it
waits for. -/
inductive Prompt (p : Performance α) (id : Nat) (run : Run α) : Moment α → Prop where
  | step (time : α) (running : run.status = .running) : Prompt p id run ⟨time, .step id⟩
  | wake (time : α) (w : Wake) (woken : p.wakes id run.status w = true) : Prompt p id run ⟨time, .wake id w⟩

theorem exists_prompt {p : Performance α} {m : Moment α} {id : Nat} (turn : m.act.actor? = some id)
    (ready : p.enabled m.act = true) : ∃ run, p.runs[id]? = some run ∧ Prompt p id run m := by
  obtain ⟨time, act⟩ := m
  cases act with
  | step j =>
    cases turn
    simp only [enabled] at ready
    split at ready
    · rename_i run found
      split at ready
      · exact ⟨run, found, .step time ‹_›⟩
      · contradiction
    · contradiction
  | wake j w =>
    cases turn
    simp only [enabled] at ready
    split at ready
    · exact ⟨_, ‹_›, .wake time w ready⟩
    · contradiction
  | _ => cases turn

def read? (p : Performance α) (id : Nat) (act : Act α) : Option String := match act with
  | .step j => if j = id then p.runs[id]?.bind (·.next? p.session) else none
  | _ => none

def dispatched? (p : Performance α) (id : Nat) (act : Act α) : Option Command :=
  (p.read? id act).bind Command.parse?

variable [Scalar α]

def take (p : Performance α) (m : Moment α) : Performance α :=
  match m.act with
  | .step id => exec (step m.time id) p
  | .wake id w => exec (wake m.time id w) p
  | .spawn name position => (runFrom (spawn name position) p).2
  | .begin => (runFrom (begin m.time) p).2
  | .replay => (runFrom (replay m.time) p).2
  | .stop => (runFrom stop p).2
  | .forceStop => (runFrom forceStop p).2
  | .normalize => (runFrom normalizeVolumes p).2

def after (p : Performance α) (ms : List (Moment α)) : Performance α := ms.foldl take p

/-- A condition on every moment of a sequence of acts, in the state it finds. -/
def Along (P : Performance α → Moment α → Prop) : Performance α → List (Moment α) → Prop
  | _, [] => True
  | p, m :: rest => P p m ∧ Along P (p.take m) rest

instance Along.decidable (P : Performance α → Moment α → Prop) [∀ p m, Decidable (P p m)] :
    ∀ p ms, Decidable (Along P p ms)
  | _, [] => .isTrue trivial
  | p, m :: rest =>
    have := Along.decidable P (p.take m) rest
    inferInstanceAs (Decidable (_ ∧ _))

/-- A sequence of acts each of which can be taken when it is its time. -/
def Execution (p : Performance α) (ms : List (Moment α)) : Prop := Along (fun p m => p.enabled m.act = true) p ms

instance (p : Performance α) (ms : List (Moment α)) : Decidable (Execution p ms) :=
  inferInstanceAs (Decidable (Along _ p ms))

/-- A performance of which nothing has happened yet. -/
def Fresh (p : Performance α) : Prop := ∃ blocks config clock engine, p = initial blocks config clock engine

/-- What every act keeps holds after every execution. -/
theorem Execution.invariant {I : Performance α → Prop} {p : Performance α} {ms : List (Moment α)}
    (preserved : ∀ p m, I p → p.enabled m.act = true → I (p.take m)) (ran : Execution p ms)
    (initial : I p) : I (p.after ms) := by
  induction ms generalizing p with
  | nil => exact initial
  | cons m rest ih => exact ih ran.2 (preserved p m initial ran.1)

end Performance

end Partita
