import Mathlib.Data.List.Perm.Subperm
import Partita.Proofs.Stage.Calls

/-! What a loop keeps in order. A task is woken once, by what it awaits and when that is done; a
group hears of each of its members once, so that it comes to a value only when all of them have;
and nothing but a cell of its own is given a result from outside. Each operation of a loop keeps
that up. -/
namespace Partita

variable {α ν φ : Type}

inductive Kind where
  | plain
  | group (members : List Nat)
  | task
  deriving DecidableEq

def Role.kind : Role φ → Kind
  | .plain => .plain
  | .group members _ _ => .group members
  | .task _ => .task

/-- Only a task awaits anything. -/
theorem Cell.awaits?_of_kind {x : Cell ν φ} (notask : x.role.kind ≠ .task) : x.awaits? = none := by
  obtain ⟨result, callbacks, role⟩ := x
  cases role with
  | task => exact absurd rfl notask
  | _ => rfl

/-- The members of a group, and how many of them have told of their end. -/
def Role.tally? : Role φ → Option (List Nat × Nat)
  | .group members finished _ => some (members, finished)
  | _ => none

def Callback.home : Callback → Nat
  | .step task => task
  | .wake _ cell => cell
  | .member _ m => m
  | .resolve cell => cell

/-- Whether a callback lets a task take its turn. -/
def Callback.Turns (cb : Callback) (task : Nat) : Prop := cb = .step task ∨ ∃ cell, cb = .wake task cell

namespace Loop

variable {l k : Loop α ν φ}

def kind? (l : Loop α ν φ) (c : Nat) : Option Kind := l.cells[c]?.map (·.role.kind)

def tally? (l : Loop α ν φ) (g : Nat) : Option (List Nat × Nat) := l.cells[g]?.bind (·.role.tally?)

def held (l : Loop α ν φ) (c : Nat) : List Callback := (l.cells[c]?.map (·.callbacks)).getD []

def pending (l : Loop α ν φ) : List Callback := l.round ++ l.queued.toList

/-- How often a callback is about to run, or waits to be. -/
def load (l : Loop α ν φ) (cb : Callback) : Nat := l.pending.count cb + (l.held cb.home).count cb

/-- Whether a callback gives a cell of its own its result. -/
def Resolves (l : Loop α ν φ) (cb : Callback) : Prop := ∃ c, cb = .resolve c ∧ l.kind? c = some .plain

/-- Whether a callback may be about to run. -/
def Due (l : Loop α ν φ) : Callback → Prop
  | .step task => l.kind? task = some .task ∧ l.awaits? task = none ∧ ∀ r, l.active ≠ some (task, r)
  | .wake task cell => l.awaits? task = some cell ∧ l.isDone cell = true
  | .member group member => (∃ kind, l.kind? group = some kind) ∧ l.isDone member = true
  | .resolve cell => l.kind? cell = some .plain

/-- Whether a callback may wait for the result of a cell. -/
def Awaited (l : Loop α ν φ) (c : Nat) : Callback → Prop
  | .step _ => False
  | .wake task cell => cell = c ∧ l.awaits? task = some c
  | .member group m => (∃ kind, l.kind? group = some kind) ∧ m = c
  | .resolve cell => l.kind? cell = some .plain

/-- Whether a group of some members may come to a result. -/
def Settles (l : Loop α ν φ) (members : List Nat) : Reply ν → Prop
  | .value _ => ∀ m ∈ members, ∃ v, l.result? m = some (.value v)
  | .raised x => x = .cancelled ∨ ∃ m ∈ members, l.result? m = some (.raised x)

/-- The books of a group: those that have told of their end have come to a value, and none of
them will tell again. -/
def Tallies (l : Loop α ν φ) (g : Nat) (members : List Nat) (finished : Nat) : Prop := match l.result? g with
  | some r => l.Settles members r
  | none => ∃ told : List Nat, told.length = finished ∧ (∀ m ∈ told, ∃ v, l.result? m = some (.value v)) ∧
      ∀ m, told.count m + l.load (.member g m) ≤ members.count m

structure Orderly (l : Loop α ν φ) : Prop where
  pending : ∀ cb ∈ l.pending, l.Due cb
  held : ∀ c, ∀ cb ∈ l.held c, l.result? c = none ∧ l.Awaited c cb
  steps : ∀ task, l.load (.step task) ≤ 1
  wakes : ∀ task cell, l.load (.wake task cell) ≤ 1
  groups : ∀ g members finished, l.tally? g = some (members, finished) → l.Tallies g members finished
  timers : ∀ t ∈ l.timers, l.Resolves t.callback
  active : ∀ task r, l.active = some (task, r) →
    l.kind? task = some .task ∧ l.awaits? task = none ∧ l.result? task = none

/-- Whether nothing is in store for a task. -/
structure Free (l : Loop α ν φ) (task : Nat) : Prop where
  step : .step task ∉ l.pending
  wake : ∀ cell, .wake task cell ∉ l.pending
  held : ∀ c cell, .wake task cell ∉ l.held c

section cells

theorem kind?_eq_none {c : Nat} : l.kind? c = none ↔ l.cells.size ≤ c := by simp [kind?]

theorem kind?_of_awaits {task cell : Nat} (awaits : l.awaits? task = some cell) : l.kind? task = some .task := by
  obtain ⟨x, there, waits⟩ := Option.bind_eq_some_iff.mp awaits
  have task : x.role.kind = .task := by
    by_contra notask
    cases (Cell.awaits?_of_kind notask).symm.trans waits
  rw [kind?, there, Option.map_some, task]

theorem kind?_of_tally {g finished : Nat} {members : List Nat} (tally : l.tally? g = some (members, finished)) :
    l.kind? g = some (.group members) := by
  unfold tally? at tally
  obtain ⟨⟨result, callbacks, role⟩, there, counts⟩ := Option.bind_eq_some_iff.mp tally
  cases role with
  | group => cases counts; simp [kind?, there, Role.kind]
  | _ => cases counts

theorem tally?_of_kind {g : Nat} {members : List Nat} (kind : l.kind? g = some (.group members)) :
    ∃ finished, l.tally? g = some (members, finished) := by
  obtain ⟨⟨result, callbacks, role⟩, there, same⟩ := Option.map_eq_some_iff.mp kind
  cases role with
  | group _ finished => cases same; exact ⟨finished, by simp [tally?, there, Role.tally?]⟩
  | _ => cases same

theorem isDone_iff {c : Nat} : l.isDone c = true ↔ ∃ r, l.result? c = some r := Option.isSome_iff_exists

theorem cell_of_kind {c : Nat} {kind : Kind} (there : l.kind? c = some kind) :
    ∃ x, l.cells[c]? = some x ∧ x.role.kind = kind := Option.map_eq_some_iff.mp there

end cells

theorem initial_orderly [Scalar α] : (initial : Loop α ν φ).Orderly where
  pending cb member := by simp [initial, Loop.pending] at member
  held c cb member := by simp [initial, Loop.held] at member
  steps task := by simp [initial, load, Loop.pending, Loop.held]
  wakes task cell := by simp [initial, load, Loop.pending, Loop.held]
  groups g members finished tally := by simp [initial, tally?] at tally
  timers t member := by simp [initial] at member
  active task r same := by simp [initial] at same

namespace Orderly

/-- Nothing is in store for the task that takes its turn. -/
theorem free (orderly : l.Orderly) {task : Nat} {r : Reply ν} (active : l.active = some (task, r)) : l.Free task := by
  obtain ⟨-, idle, -⟩ := orderly.active task r active
  refine ⟨fun member => ?_, fun cell member => ?_, fun c cell member => ?_⟩
  · exact (orderly.pending _ member).2.2 r active
  · cases idle.symm.trans (orderly.pending _ member).1
  · cases idle.symm.trans (orderly.held c _ member).2.2

/-- The members of a group that has come to a value have done so too. -/
theorem members_done (orderly : l.Orderly) {g : Nat} {members : List Nat} {v : ν}
    (group : l.kind? g = some (.group members)) (done : l.result? g = some (.value v)) :
    ∀ m ∈ members, ∃ v, l.result? m = some (.value v) := by
  obtain ⟨finished, tally⟩ := tally?_of_kind group
  have tallies := orderly.groups g members finished tally
  rw [Tallies, done] at tallies
  exact tallies

theorem member_raised (orderly : l.Orderly) {g : Nat} {members : List Nat} {x : Interrupt}
    (group : l.kind? g = some (.group members)) (done : l.result? g = some (.raised x)) :
    x = .cancelled ∨ ∃ m ∈ members, l.result? m = some (.raised x) := by
  obtain ⟨finished, tally⟩ := tally?_of_kind group
  have tallies := orderly.groups g members finished tally
  rw [Tallies, done] at tallies
  exact tallies

end Orderly

theorem Due.mono {cb : Callback} (due : l.Due cb)
    (kinds : ∀ c kind, l.kind? c = some kind → k.kind? c = some kind)
    (done : ∀ c, l.isDone c = true → k.isDone c = true) (awaits : ∀ c, k.awaits? c = l.awaits? c)
    (active : ∀ task r, k.active = some (task, r) → ∃ s, l.active = some (task, s)) : k.Due cb := by
  cases cb with
  | step task =>
    obtain ⟨kind, idle, inactive⟩ := due
    refine ⟨kinds _ _ kind, (awaits task).trans idle, fun r same => ?_⟩
    obtain ⟨s, same⟩ := active task r same
    exact inactive s same
  | wake task cell => exact ⟨(awaits task).trans due.1, done cell due.2⟩
  | member group m => exact ⟨due.1.imp (kinds group), done m due.2⟩
  | resolve cell => exact kinds _ _ due

theorem Awaited.mono {c : Nat} {cb : Callback} (awaited : l.Awaited c cb)
    (kinds : ∀ c kind, l.kind? c = some kind → k.kind? c = some kind)
    (awaits : ∀ c, k.awaits? c = l.awaits? c) : k.Awaited c cb := by
  cases cb with
  | step task => exact awaited
  | wake task cell => exact ⟨awaited.1, (awaits task).trans awaited.2⟩
  | member group m => exact ⟨awaited.1.imp (kinds group), awaited.2⟩
  | resolve cell => exact kinds _ _ awaited

/-- What waits for a cell waits there, but for what gives another cell its result. -/
theorem Awaited.home {c : Nat} {cb : Callback} (awaited : l.Awaited c cb) (other : ∀ d, cb ≠ .resolve d) :
    cb.home = c := by
  cases cb with
  | step task => exact awaited.elim
  | wake task cell => exact awaited.1
  | member group m => exact awaited.2
  | resolve cell => exact absurd rfl (other cell)

/-- What waited for a cell may be about to run when that has come to a result. -/
theorem Awaited.due {c : Nat} {cb : Callback} (awaited : l.Awaited c cb)
    (kinds : ∀ c kind, l.kind? c = some kind → k.kind? c = some kind)
    (awaits : ∀ c, k.awaits? c = l.awaits? c) (done : k.isDone c = true) : k.Due cb := by
  cases cb with
  | step task => exact awaited.elim
  | wake task cell =>
    obtain ⟨rfl, waits⟩ := awaited
    exact ⟨(awaits task).trans waits, done⟩
  | member group m =>
    obtain ⟨there, rfl⟩ := awaited
    exact ⟨there.imp (kinds group), done⟩
  | resolve cell => exact kinds _ _ awaited

theorem Settles.mono {members : List Nat} {r : Reply ν} (settles : l.Settles members r)
    (results : ∀ c s, l.result? c = some s → k.result? c = some s) : k.Settles members r := by
  cases r with
  | value v =>
    intro m member
    obtain ⟨w, done⟩ := settles m member
    exact ⟨w, results m _ done⟩
  | raised x =>
    refine settles.imp_right fun ⟨m, member, raised⟩ => ⟨m, member, results m _ raised⟩

theorem Tallies.mono {g finished : Nat} {members : List Nat} (tallies : l.Tallies g members finished)
    (results : ∀ c s, l.result? c = some s → k.result? c = some s) (own : k.result? g = l.result? g)
    (load : ∀ m, k.load (.member g m) ≤ l.load (.member g m)) : k.Tallies g members finished := by
  unfold Tallies at tallies ⊢
  rw [own]
  split at tallies
  · exact tallies.mono results
  · obtain ⟨told, length, done, bound⟩ := tallies
    refine ⟨told, length, fun m member => ?_, fun m => ?_⟩
    · obtain ⟨v, ended⟩ := done m member
      exact ⟨v, results m _ ended⟩
    · exact Nat.le_trans (Nat.add_le_add_left (load m) _) (bound m)

/-- A loop in which no cell has come to a result, and callbacks may have been added or dropped. -/
theorem Orderly.vary (orderly : l.Orderly)
    (kinds : ∀ c kind, l.kind? c = some kind → k.kind? c = some kind)
    (results : ∀ c, k.result? c = l.result? c) (awaits : ∀ c, k.awaits? c = l.awaits? c)
    (groups : ∀ g members finished, k.tally? g = some (members, finished) →
      l.tally? g = some (members, finished) ∧ (∀ m, k.load (.member g m) ≤ l.load (.member g m)) ∨
        k.Tallies g members finished)
    (pending : ∀ cb ∈ k.pending, cb ∈ l.pending ∨ k.Due cb)
    (held : ∀ c, ∀ cb ∈ k.held c, cb ∈ l.held c ∨ l.result? c = none ∧ k.Awaited c cb)
    (steps : ∀ task, k.load (.step task) ≤ l.load (.step task) ∨ k.load (.step task) ≤ 1)
    (wakes : ∀ task cell, k.load (.wake task cell) ≤ l.load (.wake task cell) ∨ k.load (.wake task cell) ≤ 1)
    (timers : ∀ t ∈ k.timers, t ∈ l.timers ∨ k.Resolves t.callback) (active : k.active = l.active) : k.Orderly where
  pending cb member := (pending cb member).elim (fun old => (orderly.pending cb old).mono kinds
    (fun c done => by rwa [isDone, results]) awaits fun task r same => ⟨r, active ▸ same⟩) id
  held c cb member := by
    rw [results]
    rcases held c cb member with old | ⟨none, awaited⟩
    · obtain ⟨none, awaited⟩ := orderly.held c cb old
      exact ⟨none, awaited.mono kinds awaits⟩
    · exact ⟨none, awaited⟩
  steps task := (steps task).elim (fun less => Nat.le_trans less (orderly.steps task)) id
  wakes task cell := (wakes task cell).elim (fun less => Nat.le_trans less (orderly.wakes task cell)) id
  groups g members finished tally := (groups g members finished tally).elim (fun ⟨old, less⟩ =>
    (orderly.groups g members finished old).mono (fun c s done => (results c).trans done) (results g) less) id
  timers t member := (timers t member).elim (fun old => (orderly.timers t old).imp fun c ⟨same, plain⟩ =>
    ⟨same, kinds _ _ plain⟩) id
  active task r same := by
    obtain ⟨kind, idle, none⟩ := orderly.active task r (active ▸ same)
    exact ⟨kinds _ _ kind, (awaits task).trans idle, (results task).trans none⟩

/-- A loop in which a task for which nothing is in store has come to other calls. -/
theorem Orderly.retask (orderly : l.Orderly) {task : Nat} (free : l.Free task)
    (kinds : ∀ c, k.kind? c = l.kind? c) (results : ∀ c, k.result? c = l.result? c)
    (awaits : ∀ c, c ≠ task → k.awaits? c = l.awaits? c) (tallies : ∀ c, k.tally? c = l.tally? c)
    (held : ∀ c, k.held c = l.held c) (pending : k.pending = l.pending) (timers : k.timers = l.timers)
    (active : ∀ t r, k.active = some (t, r) →
      t = task ∧ k.kind? task = some .task ∧ k.awaits? task = none ∧ k.result? task = none) : k.Orderly := by
  have load (cb : Callback) : k.load cb = l.load cb := by rw [load, load, pending, held]
  have done (c : Nat) : k.isDone c = l.isDone c := by rw [isDone, isDone, results]
  refine ⟨fun cb member => ?_, fun c cb member => ?_, fun t => load _ ▸ orderly.steps t,
    fun t c => load _ ▸ orderly.wakes t c, fun g members finished tally => ?_, fun t member => ?_,
    fun t r same => ?_⟩
  · rw [pending] at member
    have due := orderly.pending cb member
    cases cb with
    | step t =>
      have other : t ≠ task := fun same => free.step (same ▸ member)
      exact ⟨(kinds t).trans due.1, (awaits t other).trans due.2.1, fun r same => other (active t r same).1⟩
    | wake t c =>
      have other : t ≠ task := fun same => free.wake c (same ▸ member)
      exact ⟨(awaits t other).trans due.1, (done c).trans due.2⟩
    | member g m => exact ⟨by rw [kinds]; exact due.1, (done m).trans due.2⟩
    | resolve c => exact (kinds c).trans due
  · rw [held] at member
    obtain ⟨none, awaited⟩ := orderly.held c cb member
    refine ⟨(results c).trans none, ?_⟩
    cases cb with
    | step t => exact awaited
    | wake t d =>
      have other : t ≠ task := fun same => free.held c d (same ▸ member)
      exact ⟨awaited.1, (awaits t other).trans awaited.2⟩
    | member g m => exact ⟨by rw [kinds]; exact awaited.1, awaited.2⟩
    | resolve d => exact (kinds d).trans awaited
  · exact (orderly.groups g members finished (tallies g ▸ tally)).mono (fun c s ended => (results c).trans ended)
      (results g) fun m => Nat.le_of_eq (load _)
  · obtain ⟨c, same, plain⟩ := orderly.timers t (timers ▸ member)
    exact ⟨c, same, (kinds c).trans plain⟩
  · obtain ⟨rfl, here⟩ := active t r same
    exact here

section replaced

variable {c : Nat} {x y : Cell ν φ}

/-- A loop in which one cell has been replaced. -/
structure Replaces (c : Nat) (x y : Cell ν φ) (l k : Loop α ν φ) : Prop where
  found : l.cells[c]? = some x
  stored : k.cells[c]? = some y
  others : ∀ d, d ≠ c → k.cells[d]? = l.cells[d]?

theorem Replaces.of_set (found : l.cells[c]? = some x) (cells : k.cells = l.cells.set! c y) : l.Replaces c x y k where
  found := found
  stored := by simp [cells, (Array.getElem?_eq_some_iff.mp found).1]
  others d other := by simp [cells, Ne.symm other]

theorem Replaces.of_modify (found : l.cells[c]? = some x) {f : Cell ν φ → Cell ν φ}
    (cells : k.cells = l.cells.modify c f) : l.Replaces c x (f x) k where
  found := found
  stored := by simp [cells, Array.getElem?_modify, found]
  others d other := by simp [cells, Array.getElem?_modify, Ne.symm other]

namespace Replaces

variable (replaces : l.Replaces c x y k)
include replaces

theorem kind? (same : y.role.kind = x.role.kind) (d : Nat) : k.kind? d = l.kind? d := by
  unfold Loop.kind?
  by_cases own : d = c
  · subst own
    rw [replaces.found, replaces.stored, Option.map_some, Option.map_some, same]
  · rw [replaces.others d own]

theorem tally? (same : y.role.tally? = x.role.tally?) (d : Nat) : k.tally? d = l.tally? d := by
  unfold Loop.tally?
  by_cases own : d = c
  · subst own
    rw [replaces.found, replaces.stored, Option.bind_some, Option.bind_some, same]
  · rw [replaces.others d own]

theorem awaits? (same : y.awaits? = x.awaits?) (d : Nat) : k.awaits? d = l.awaits? d := by
  unfold Loop.awaits?
  by_cases own : d = c
  · subst own
    rw [replaces.found, replaces.stored, Option.bind_some, Option.bind_some, same]
  · rw [replaces.others d own]

theorem result? (same : y.result = x.result) (d : Nat) : k.result? d = l.result? d := by
  unfold Loop.result?
  by_cases own : d = c
  · subst own
    rw [replaces.found, replaces.stored, Option.bind_some, Option.bind_some, same]
  · rw [replaces.others d own]

theorem held_other {d : Nat} (other : d ≠ c) : k.held d = l.held d := by
  rw [held, held, replaces.others d other]

theorem held_own : k.held c = y.callbacks := by rw [held, replaces.stored]; rfl

theorem held_old : l.held c = x.callbacks := by rw [held, replaces.found]; rfl

theorem held (same : y.callbacks = x.callbacks) (d : Nat) : k.held d = l.held d := by
  by_cases own : d = c
  · subst own
    rw [replaces.held_own, replaces.held_old, same]
  · exact replaces.held_other own

theorem result?_other {d : Nat} (other : d ≠ c) : k.result? d = l.result? d := by
  rw [Loop.result?, Loop.result?, replaces.others d other]

theorem result?_own : k.result? c = y.result := by rw [Loop.result?, replaces.stored]; rfl

theorem result?_old : l.result? c = x.result := by rw [Loop.result?, replaces.found]; rfl

theorem frames (same : y.frames = x.frames) (d : Nat) : k.frames d = l.frames d := by
  rw [frames_eq, frames_eq]
  by_cases own : d = c
  · subst own
    rw [replaces.found, replaces.stored, Option.map_some, Option.map_some, same]
  · rw [replaces.others d own]

end Replaces

/-- What waited for a cell that has come to its result is about to run, once as before. -/
theorem Orderly.load_finish (orderly : l.Orderly) {callbacks : List Callback} {role role' : Role φ} {r : Reply ν}
    (replaces : l.Replaces c ⟨none, callbacks, role⟩ ⟨some r, [], role'⟩ k)
    (pending : k.pending = l.pending ++ callbacks) {cb : Callback} (other : ∀ d, cb ≠ .resolve d) :
    k.load cb = l.load cb := by
  rw [Loop.load, Loop.load, pending, List.count_append]
  by_cases own : cb.home = c
  · rw [own, replaces.held_own, replaces.held_old]
    simp
  · have none : callbacks.count cb = 0 := List.count_eq_zero.mpr fun member =>
      own ((orderly.held c cb (replaces.held_old ▸ member)).2.home other)
    rw [replaces.held_other own, none, Nat.add_zero]

/-- A loop in which a cell has come to its result, and its callbacks are about to run. -/
theorem Orderly.finish (orderly : l.Orderly) {callbacks : List Callback} {role role' : Role φ} {r : Reply ν}
    (replaces : l.Replaces c ⟨none, callbacks, role⟩ ⟨some r, [], role'⟩ k) (kind : role'.kind = role.kind)
    (idle : Cell.awaits? (ν := ν) ⟨some r, [], role'⟩ = Cell.awaits? (ν := ν) ⟨none, callbacks, role⟩)
    (settles : ∀ members, role.kind = .group members → l.Settles members r)
    (pending : k.pending = l.pending ++ callbacks) (timers : k.timers = l.timers)
    (active : ∀ t s, k.active = some (t, s) → l.active = some (t, s) ∧ t ≠ c) : k.Orderly := by
  have kinds := replaces.kind? kind
  have awaits := replaces.awaits? idle
  have open_ : l.result? c = none := replaces.result?_old
  have results (d : Nat) (s : Reply ν) (ended : l.result? d = some s) : k.result? d = some s := by
    rw [replaces.result?_other, ended]
    rintro rfl
    cases open_.symm.trans ended
  have done (d : Nat) (ended : l.isDone d = true) : k.isDone d = true := by
    obtain ⟨s, ended⟩ := isDone_iff.mp ended
    exact isDone_iff.mpr ⟨s, results d s ended⟩
  have here : k.isDone c = true := isDone_iff.mpr ⟨r, replaces.result?_own⟩
  have load (cb : Callback) (other : ∀ d, cb ≠ .resolve d) : k.load cb = l.load cb :=
    orderly.load_finish replaces pending other
  refine ⟨fun cb member => ?_, fun d cb member => ?_, fun t => load (.step t) (by simp) ▸ orderly.steps t,
    fun t d => load (.wake t d) (by simp) ▸ orderly.wakes t d, fun g members finished tally => ?_, fun t member => ?_,
    fun t s same => ?_⟩
  · rw [pending] at member
    rcases List.mem_append.mp member with old | new
    · exact (orderly.pending cb old).mono (fun d _ there => (kinds d).trans there) done awaits
        fun t s same => ⟨s, (active t s same).1⟩
    · exact (orderly.held c cb (replaces.held_old ▸ new)).2.due (fun d _ there => (kinds d).trans there) awaits here
  · by_cases own : d = c
    · subst own
      rw [replaces.held_own] at member
      cases member
    · rw [replaces.held_other own] at member
      obtain ⟨none, awaited⟩ := orderly.held d cb member
      exact ⟨(replaces.result?_other own).trans none, awaited.mono (fun d _ there => (kinds d).trans there) awaits⟩
  · by_cases own : g = c
    · subst own
      have group : role.kind = .group members := by
        have there := (kinds g).symm.trans (kind?_of_tally tally)
        rw [Loop.kind?, replaces.found] at there
        exact Option.some.inj there
      rw [Tallies, replaces.result?_own]
      exact (settles members group).mono results
    · have old : l.tally? g = some (members, finished) := by rwa [Loop.tally?, replaces.others g own] at tally
      exact (orderly.groups g members finished old).mono results (replaces.result?_other own)
        fun m => Nat.le_of_eq (load _ (by simp))
  · obtain ⟨d, same, plain⟩ := orderly.timers t (timers ▸ member)
    exact ⟨d, same, (kinds d).trans plain⟩
  · obtain ⟨same, other⟩ := active t s same
    obtain ⟨task, waits, none⟩ := orderly.active t s same
    exact ⟨(kinds t).trans task, (awaits t).trans waits, (replaces.result?_other other).trans none⟩

end replaced

end Loop

end Partita
