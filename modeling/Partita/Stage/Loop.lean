import Partita.Fault

/-! A cooperative event loop in virtual time. Tasks suspend on cells; a cell is
given a result once and then queues its callbacks in the order of their
registration. Callbacks run in rounds: those queued in a round run in the next
one. When nothing is queued, time jumps to the earliest timer. -/
namespace Partita

/-- What makes a task leave what it is doing. -/
inductive Interrupt where
  | fault (f : Fault)
  | cancelled
  | timeout
  deriving DecidableEq, Repr

/-- What a suspended task receives, and what it leaves behind. -/
inductive Reply (ν : Type) where
  | value (v : ν)
  | raised (x : Interrupt)

/-- What the loop does when it comes to it. -/
inductive Callback where
  /-- A task takes its next step. -/
  | step (task : Nat)
  /-- A task goes on because a cell has a result. -/
  | wake (task cell : Nat)
  /-- A group hears that one of its members is done. -/
  | member (group member : Nat)
  /-- A cell gets its result, if it has none. -/
  | resolve (cell : Nat)
  deriving DecidableEq, Repr

/-- A suspended task: the calls it is in, innermost first, and what it awaits. -/
structure Task (φ : Type) where
  frames : List φ
  awaiting : Option Nat
  /-- Whether its next step is to be a cancellation. -/
  mustCancel : Bool

inductive Role (φ : Type) where
  | plain
  /-- Done when all members are, or as soon as one of them fails. -/
  | group (members : List Nat) (finished : Nat) (cancelRequested : Bool)
  | task (t : Task φ)

structure Cell (ν φ : Type) where
  result : Option (Reply ν)
  callbacks : List Callback
  role : Role φ

structure Timer (α : Type) where
  due : α
  id : Nat
  callback : Callback

structure Loop (α ν φ : Type) where
  time : α
  /-- A timer due this little later than now counts as due. -/
  resolution : α
  /-- What is left of the current round. -/
  round : List Callback
  /-- What runs in the next round. -/
  queued : Array Callback
  /-- In the order in which they are due, those set first before others. -/
  timers : List (Timer α)
  timerCount : Nat
  cells : Array (Cell ν φ)
  /-- The task that is taking a step, and what it received last. -/
  active : Option (Nat × Reply ν)

namespace Loop

variable {α ν φ : Type} [Scalar α]

def initial : Loop α ν φ := ⟨0, 1e-9, [], #[], [], 0, #[], none⟩

def callSoon (l : Loop α ν φ) (c : Callback) : Loop α ν φ := { l with queued := l.queued.push c }

def newCell (l : Loop α ν φ) (role : Role φ) : Nat × Loop α ν φ :=
  (l.cells.size, { l with cells := l.cells.push ⟨none, [], role⟩ })

/-- Creates a task; its first step is queued. -/
def newTask (l : Loop α ν φ) (frames : List φ) : Nat × Loop α ν φ :=
  let (id, l) := l.newCell (.task ⟨frames, none, false⟩)
  (id, l.callSoon (.step id))

def result? (l : Loop α ν φ) (cell : Nat) : Option (Reply ν) := l.cells[cell]?.bind (·.result)

def isDone (l : Loop α ν φ) (cell : Nat) : Bool := (l.result? cell).isSome

/-- Gives a cell its result, unless it has one. -/
def complete (l : Loop α ν φ) (cell : Nat) (s : Reply ν) : Loop α ν φ :=
  match l.cells[cell]? with
  | some ⟨none, callbacks, role⟩ =>
    { l with
      cells := l.cells.set! cell ⟨some s, [], role⟩
      queued := l.queued ++ callbacks.toArray }
  | _ => l

/-- Has a callback run when a cell has its result. -/
def onDone (l : Loop α ν φ) (cell : Nat) (c : Callback) : Loop α ν φ :=
  if l.isDone cell then l.callSoon c
  else { l with cells := l.cells.modify cell fun x => { x with callbacks := x.callbacks ++ [c] } }

def forget (l : Loop α ν φ) (cell : Nat) (c : Callback) : Loop α ν φ :=
  { l with cells := l.cells.modify cell fun x => { x with callbacks := x.callbacks.filter (· != c) } }

def insertTimer (t : Timer α) : List (Timer α) → List (Timer α)
  | [] => [t]
  | u :: rest => if t.due < u.due then t :: u :: rest else u :: insertTimer t rest

def callLater (l : Loop α ν φ) (delay : α) (c : Callback) : Nat × Loop α ν φ :=
  let id := l.timerCount
  (id, { l with timers := insertTimer ⟨l.time + delay, id, c⟩ l.timers, timerCount := id + 1 })

def cancelTimer (l : Loop α ν φ) (id : Nat) : Loop α ν φ :=
  { l with timers := l.timers.filter (·.id != id) }

def setTask (l : Loop α ν φ) (id : Nat) (f : Task φ → Task φ) : Loop α ν φ :=
  { l with cells := l.cells.modify id fun x =>
      match x.role with
      | .task t => { x with role := .task (f t) }
      | _ => x }

/-- Asks a cell to end as cancelled, and tells whether it listens. A task passes
the request on to what it awaits and otherwise is cancelled at its next step; a
group passes it on to its members. The depth of passing on is bounded by the
number of cells. -/
def cancelWithin (l : Loop α ν φ) : (depth cell : Nat) → Loop α ν φ × Bool
  | 0, _ => (l, false)
  | depth + 1, cell =>
    match l.cells[cell]? with
    | none => (l, false)
    | some x =>
      if x.result.isSome then (l, false)
      else match x.role with
        | .plain => (l.complete cell (.raised .cancelled), true)
        | .group members _ _ =>
          let (l, any) := members.foldl
            (fun (l, any) m => let (l, r) := cancelWithin l depth m; (l, any || r)) (l, false)
          if any then
            ({ l with cells := l.cells.modify cell fun x =>
                match x.role with
                | .group members finished _ => { x with role := .group members finished true }
                | _ => x }, true)
          else (l, false)
        | .task t =>
          match t.awaiting with
          | some a =>
            let (l, listens) := cancelWithin l depth a
            if listens then (l, true) else (l.setTask cell ({ · with mustCancel := true }), true)
          | none => (l.setTask cell ({ · with mustCancel := true }), true)

def cancel (l : Loop α ν φ) (cell : Nat) : Loop α ν φ := (l.cancelWithin (l.cells.size + 1) cell).1

/-- A group over cells that are not done. -/
def newGroup (l : Loop α ν φ) (members : List Nat) : Nat × Loop α ν φ :=
  let (id, l) := l.newCell (.group members 0 false)
  (id, members.foldl (fun l m => l.onDone m (.member id m)) l)

/-- A group hears of a member: the first failure is its result, and otherwise
the end of the last member. -/
def memberDone (l : Loop α ν φ) (done : ν) (group member : Nat) : Loop α ν φ :=
  match l.cells[group]? with
  | some ⟨none, callbacks, .group members finished cancelRequested⟩ =>
    let finished := finished + 1
    let l := { l with
      cells := l.cells.set! group ⟨none, callbacks, .group members finished cancelRequested⟩ }
    match l.result? member with
    | some (.raised x) => l.complete group (.raised x)
    | _ =>
      if finished == members.length then
        l.complete group (if cancelRequested then .raised .cancelled else .value done)
      else l
  | _ => l

/-- Lets a task take a step with a signal, or be cancelled instead if that was
asked for. -/
def activate (l : Loop α ν φ) (task : Nat) (s : Reply ν) : Loop α ν φ :=
  match l.cells[task]? with
  | some ⟨none, _, .task t⟩ =>
    let s := if t.mustCancel then .raised .cancelled else s
    { l.setTask task ({ · with awaiting := none, mustCancel := false }) with active := some (task, s) }
  | _ => l

/-- Runs a callback. `done` is the value of what has nothing to say. -/
def run (l : Loop α ν φ) (done : ν) : Callback → Loop α ν φ
  | .step task => l.activate task (.value done)
  | .wake task cell => l.activate task ((l.result? cell).getD (.value done))
  | .member group member => l.memberDone done group member
  | .resolve cell => l.complete cell (.value done)

/-- Begins a round: time jumps if nothing is queued, and the timers that are due
join the queue. None if there is nothing to wait for. -/
def nextRound? (l : Loop α ν φ) : Option (Loop α ν φ) :=
  let time? : Option α :=
    if l.queued.isEmpty then l.timers.head?.map (·.due) else some l.time
  time?.map fun time =>
    let limit := time + l.resolution
    let due := l.timers.takeWhile (·.due < limit)
    { l with
      time
      timers := l.timers.dropWhile (·.due < limit)
      round := l.queued.toList ++ due.map (·.callback)
      queued := #[] }

/-- Suspends a task, inside the calls `frames`, on a cell. -/
def suspend (l : Loop α ν φ) (task : Nat) (frames : List φ) (cell : Nat) : Loop α ν φ :=
  let l := l.setTask task ({ · with frames, awaiting := some cell })
  { l.onDone cell (.wake task cell) with active := none }

/-- A task awaits a cell: it goes on at once if the cell has its result. -/
def await (l : Loop α ν φ) (task : Nat) (frames : List φ) (cell : Nat) : Loop α ν φ :=
  match l.result? cell with
  | some s => { l.setTask task ({ · with frames }) with active := some (task, s) }
  | none => l.suspend task frames cell

/-- A task lets all others have their turn. -/
def yield (l : Loop α ν φ) (task : Nat) (frames : List φ) : Loop α ν φ :=
  { (l.setTask task ({ · with frames })).callSoon (.step task) with active := none }

/-- A task leaves its innermost call, inside the calls `frames`, with a signal.
Leaving the last call ends it. -/
def leave (l : Loop α ν φ) (task : Nat) (frames : List φ) (s : Reply ν) : Loop α ν φ :=
  match frames with
  | [] => { (l.setTask task ({ · with frames := [] })).complete task s with active := none }
  | frames => { l.setTask task ({ · with frames }) with active := some (task, s) }

/-- A task goes on inside the calls `frames` without a break. -/
def proceed (l : Loop α ν φ) (task : Nat) (frames : List φ) (s : Reply ν) : Loop α ν φ :=
  { l.setTask task ({ · with frames }) with active := some (task, s) }

def frames (l : Loop α ν φ) (task : Nat) : List φ :=
  match l.cells[task]? with
  | some ⟨_, _, .task t⟩ => t.frames
  | _ => []

end Loop

end Partita
