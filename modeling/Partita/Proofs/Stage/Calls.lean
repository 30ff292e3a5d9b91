import Mathlib.Order.Defs.Unbundled
import Partita.Stage.Loop

/-! The calls that the tasks of a loop are in. No operation of a loop takes a task out of its
calls but those by which it enters and leaves calls itself, and no cell loses its result. -/
namespace Partita

variable {α ν φ : Type}

namespace Cell

def frames (x : Cell ν φ) : List φ := match x.role with
  | .task t => t.frames
  | _ => []

def awaits? (x : Cell ν φ) : Option Nat := match x.role with
  | .task t => t.awaiting
  | _ => none

/-- A later state of a cell, in which the task is in the same calls. -/
structure Stays (x y : Cell ν φ) : Prop where
  frames : y.frames = x.frames
  awaits : ∀ a, y.awaits? = some a → x.awaits? = some a
  done : x.result.isSome = true → y.result.isSome = true

theorem Stays.refl (x : Cell ν φ) : x.Stays x := ⟨rfl, fun _ => id, id⟩

theorem Stays.of_role {x y : Cell ν φ} (role : y.role = x.role)
    (done : x.result.isSome = true → y.result.isSome = true) : x.Stays y := by
  refine ⟨?_, fun a awaited => ?_, done⟩
  · rw [Cell.frames, role]
    rfl
  · rw [Cell.awaits?, role] at awaited
    exact awaited

end Cell

namespace Loop

variable {l k m : Loop α ν φ}

def awaits? (l : Loop α ν φ) (task : Nat) : Option Nat := l.cells[task]?.bind Cell.awaits?

theorem frames_eq (l : Loop α ν φ) (task : Nat) : l.frames task = (l.cells[task]?.map Cell.frames).getD [] := by
  unfold Loop.frames
  cases l.cells[task]? with
  | none => rfl
  | some x =>
    obtain ⟨result, callbacks, role⟩ := x
    cases role <;> rfl

theorem frames_of_missing {task : Nat} (missing : l.cells.size ≤ task) : l.frames task = [] := by
  rw [frames_eq, Array.getElem?_eq_none missing]
  rfl

/-- A task that is in a call is there. -/
theorem lt_size_of_frames {task : Nat} {frame : φ} {rest : List φ} (calls : l.frames task = frame :: rest) :
    task < l.cells.size := by
  refine Nat.lt_of_not_le fun missing => ?_
  rw [frames_of_missing missing] at calls
  cases calls

theorem lt_size_of_awaits {task a : Nat} (awaits : l.awaits? task = some a) : task < l.cells.size := by
  refine Nat.lt_of_not_le fun missing => ?_
  rw [awaits?, Array.getElem?_eq_none missing] at awaits
  cases awaits

theorem isDone_eq (l : Loop α ν φ) (cell : Nat) :
    l.isDone cell = (l.cells[cell]?.map (·.result.isSome)).getD false := by
  unfold isDone result?
  cases l.cells[cell]? <;> rfl

/-- A later state of a loop, in which all tasks are in the same calls. -/
structure Stays (l k : Loop α ν φ) : Prop where
  size : l.cells.size ≤ k.cells.size
  frames : ∀ c, k.frames c = l.frames c
  awaits : ∀ c a, k.awaits? c = some a → l.awaits? c = some a
  done : ∀ c, l.isDone c = true → k.isDone c = true

namespace Stays

theorem of_cells (cells : k.cells = l.cells) : l.Stays k where
  size := Nat.le_of_eq (by rw [cells])
  frames c := by rw [frames_eq, frames_eq, cells]
  awaits c a awaited := by rwa [awaits?, cells] at awaited
  done c ended := by rwa [isDone_eq, cells, ← isDone_eq]

theorem refl (l : Loop α ν φ) : l.Stays l := of_cells rfl

theorem trans (first : l.Stays k) (second : k.Stays m) : l.Stays m where
  size := Nat.le_trans first.size second.size
  frames c := (second.frames c).trans (first.frames c)
  awaits c a awaited := first.awaits c a (second.awaits c a awaited)
  done c ended := second.done c (first.done c ended)

/-- Some cells change, with their tasks in the same calls. -/
theorem of_each (size : k.cells.size = l.cells.size)
    (each : ∀ (c : Nat) (x y : Cell ν φ), l.cells[c]? = some x → k.cells[c]? = some y → x.Stays y) : l.Stays k := by
  have cell (c : Nat) : l.cells[c]? = none ∧ k.cells[c]? = none ∨
      ∃ x y, l.cells[c]? = some x ∧ k.cells[c]? = some y ∧ x.Stays y := by
    by_cases inside : c < l.cells.size
    · have old := Array.getElem?_eq_getElem inside
      have new := Array.getElem?_eq_getElem (Nat.lt_of_lt_of_eq inside size.symm)
      exact .inr ⟨_, _, old, new, each c _ _ old new⟩
    · exact .inl ⟨Array.getElem?_eq_none (by omega), Array.getElem?_eq_none (by omega)⟩
  refine ⟨Nat.le_of_eq size.symm, fun c => ?_, fun c a awaited => ?_, fun c ended => ?_⟩
  · rcases cell c with ⟨old, new⟩ | ⟨x, y, old, new, stays⟩
    · rw [frames_eq, frames_eq, old, new]
    · rw [frames_eq, frames_eq, old, new, Option.map_some, Option.map_some, stays.frames]
  · rcases cell c with ⟨old, new⟩ | ⟨x, y, old, new, stays⟩
    · rw [awaits?, new] at awaited
      cases awaited
    · rw [awaits?, new] at awaited
      rw [awaits?, old]
      exact stays.awaits a awaited
  · rcases cell c with ⟨old, new⟩ | ⟨x, y, old, new, stays⟩
    · rw [isDone_eq, old] at ended
      cases ended
    · rw [isDone_eq, old] at ended
      rw [isDone_eq, new]
      exact stays.done ended

theorem of_modify (l : Loop α ν φ) (c : Nat) {f : Cell ν φ → Cell ν φ} (each : ∀ x : Cell ν φ, x.Stays (f x)) :
    l.Stays { l with cells := l.cells.modify c f } := by
  refine of_each (by simp) fun d x y old new => ?_
  rw [Array.getElem?_modify] at new
  split at new
  · rw [old] at new
    cases new
    exact each x
  · rw [old] at new
    cases new
    exact .refl x

theorem of_set {c : Nat} {x y : Cell ν φ} (found : l.cells[c]? = some x) (stays : x.Stays y) :
    l.Stays { l with cells := l.cells.set! c y } := by
  refine of_each (by simp) fun d u v old new => ?_
  rw [Array.set!_eq_setIfInBounds, Array.getElem?_setIfInBounds] at new
  split at new
  · rename_i same
    subst same
    rw [found] at old
    cases old
    split at new
    · cases new
      exact stays
    · cases new
  · rw [old] at new
    cases new
    exact .refl u

end Stays

theorem callSoon_stays (l : Loop α ν φ) (cb : Callback) : l.Stays (l.callSoon cb) := .of_cells rfl

theorem cancelTimer_stays (l : Loop α ν φ) (id : Nat) : l.Stays (l.cancelTimer id) := .of_cells rfl

theorem callLater_stays [Scalar α] (l : Loop α ν φ) (delay : α) (cb : Callback) : l.Stays (l.callLater delay cb).2 :=
  .of_cells rfl

/-- A new cell holds no calls but those of a task. -/
theorem newCell_frames (l : Loop α ν φ) (role : Role φ) (c : Nat) :
    (l.newCell role).2.frames c = if c = l.cells.size then (Cell.frames (ν := ν) ⟨none, [], role⟩) else l.frames c := by
  rw [frames_eq, frames_eq]
  simp only [newCell, Array.getElem?_push]
  split <;> rfl

theorem newCell_awaits? (l : Loop α ν φ) (role : Role φ) (c : Nat) :
    (l.newCell role).2.awaits? c =
      if c = l.cells.size then (Cell.awaits? (ν := ν) ⟨none, [], role⟩) else l.awaits? c := by
  simp only [awaits?, newCell, Array.getElem?_push]
  split <;> rfl

theorem newCell_done (l : Loop α ν φ) (role : Role φ) {c : Nat} (ended : l.isDone c = true) :
    (l.newCell role).2.isDone c = true := by
  rw [isDone_eq] at ended ⊢
  simp only [newCell, Array.getElem?_push]
  split
  · rename_i last
    rw [last, Array.getElem?_eq_none (Nat.le_refl _)] at ended
    cases ended
  · exact ended

theorem newCell_stays (l : Loop α ν φ) {role : Role φ} (other : ∀ t, role ≠ .task t) :
    l.Stays (l.newCell role).2 := by
  have bare : Cell.frames (ν := ν) ⟨none, [], role⟩ = [] ∧ Cell.awaits? (ν := ν) ⟨none, [], role⟩ = none := by
    cases role with
    | task t => exact absurd rfl (other t)
    | _ => exact ⟨rfl, rfl⟩
  refine ⟨by simp [newCell], fun c => ?_, fun c a awaited => ?_, fun c => newCell_done l role⟩
  · rw [newCell_frames]
    split
    · rename_i last
      rw [bare.1, frames_of_missing (Nat.le_of_eq last.symm)]
    · rfl
  · rw [newCell_awaits?] at awaited
    split at awaited
    · rw [bare.2] at awaited
      cases awaited
    · exact awaited

theorem newPlain_stays (l : Loop α ν φ) : l.Stays (l.newCell .plain).2 := l.newCell_stays (by simp)

theorem complete_stays (l : Loop α ν φ) (c : Nat) (r : Reply ν) : l.Stays (l.complete c r) := by
  unfold complete
  split
  · rename_i callbacks role found
    have ended : l.Stays { l with cells := l.cells.set! c ⟨some r, [], role⟩ } :=
      .of_set found (.of_role rfl fun _ => rfl)
    exact ended.trans (.of_cells rfl)
  · exact .refl l

/-- A cell that is there has its result afterwards. -/
theorem complete_done (l : Loop α ν φ) {c : Nat} (r : Reply ν) (inside : c < l.cells.size) :
    (l.complete c r).isDone c = true := by
  obtain ⟨⟨result, callbacks, role⟩, found⟩ : ∃ x, l.cells[c]? = some x := ⟨_, Array.getElem?_eq_getElem inside⟩
  unfold complete
  rw [found]
  cases result with
  | none => simp [isDone, result?, inside]
  | some s => simp [isDone, result?, found]

theorem active_complete (l : Loop α ν φ) (c : Nat) (r : Reply ν) : (l.complete c r).active = l.active := by
  unfold complete
  split <;> rfl

theorem active_memberDone (l : Loop α ν φ) (done : ν) (group member : Nat) :
    (l.memberDone done group member).active = l.active := by
  unfold memberDone
  split
  · dsimp only
    split
    · rw [active_complete]
    · split
      · rw [active_complete]
      · rfl
  · rfl

theorem onDone_stays (l : Loop α ν φ) (c : Nat) (cb : Callback) : l.Stays (l.onDone c cb) := by
  unfold onDone
  split
  · exact l.callSoon_stays cb
  · exact .of_modify l c fun x => .of_role rfl id

theorem forget_stays (l : Loop α ν φ) (c : Nat) (cb : Callback) : l.Stays (l.forget c cb) :=
  .of_modify l c fun _ => .of_role rfl id

/-- A task is changed, but not in its calls, and it awaits nothing new. -/
theorem setTask_stays (l : Loop α ν φ) (c : Nat) {f : Task φ → Task φ} (frames : ∀ t, (f t).frames = t.frames)
    (awaits : ∀ t a, (f t).awaiting = some a → t.awaiting = some a) : l.Stays (l.setTask c f) := by
  refine .of_modify l c fun x => ?_
  obtain ⟨result, callbacks, role⟩ := x
  cases role with
  | task t => exact ⟨frames t, awaits t, id⟩
  | _ => exact .refl _

theorem cancelWithin_stays (l : Loop α ν φ) (depth cell : Nat) : l.Stays (l.cancelWithin depth cell).1 := by
  induction depth generalizing l cell with
  | zero => exact .refl l
  | succ depth ih =>
    have asked (k : Loop α ν φ) : k.Stays (k.setTask cell ({ · with mustCancel := true })) :=
      k.setTask_stays cell (fun _ => rfl) fun _ _ => id
    unfold cancelWithin
    split
    · exact .refl l
    · split
      · exact .refl l
      · split
        · exact l.complete_stays cell _
        · rename_i members _ _ _
          dsimp only
          generalize folded : members.foldl _ (l, false) = pair
          have passed : l.Stays pair.1 :=
            folded ▸ List.foldlRecOn members _ (motive := fun p : Loop α ν φ × Bool => l.Stays p.1) (.refl l)
              fun p kept m _ => kept.trans (ih p.1 m)
          split
          · refine passed.trans (.of_modify _ cell fun x => ?_)
            obtain ⟨result, callbacks, role⟩ := x
            cases role <;> exact ⟨rfl, fun _ => id, id⟩
          · exact passed
        · split
          · dsimp only
            split
            · exact ih l _
            · exact (ih l _).trans (asked _)
          · exact asked l

theorem cancel_stays (l : Loop α ν φ) (cell : Nat) : l.Stays (l.cancel cell) := l.cancelWithin_stays _ _

theorem newGroup_stays (l : Loop α ν φ) (members : List Nat) : l.Stays (l.newGroup members).2 :=
  List.foldlRecOn members _ (motive := fun k : Loop α ν φ => l.Stays k) (l.newCell_stays (by simp))
    fun k kept m _ => kept.trans (k.onDone_stays m _)

theorem memberDone_stays (l : Loop α ν φ) (done : ν) (group member : Nat) :
    l.Stays (l.memberDone done group member) := by
  unfold memberDone
  split
  · rename_i callbacks members finished cancelRequested found
    have counted : l.Stays { l with
        cells := l.cells.set! group ⟨none, callbacks, .group members (finished + 1) cancelRequested⟩ } :=
      .of_set found ⟨rfl, fun _ => id, id⟩
    dsimp only
    split
    · exact counted.trans (complete_stays _ _ _)
    · split
      · exact counted.trans (complete_stays _ _ _)
      · exact counted
  · exact .refl l

theorem activate_stays (l : Loop α ν φ) (task : Nat) (r : Reply ν) : l.Stays (l.activate task r) := by
  unfold activate
  split
  · have woken : l.Stays (l.setTask task ({ · with awaiting := none, mustCancel := false })) :=
      l.setTask_stays task (fun _ => rfl) (by simp)
    exact woken.trans (.of_cells rfl)
  · exact .refl l

theorem run_stays (l : Loop α ν φ) (done : ν) (cb : Callback) : l.Stays (l.run done cb) := by
  cases cb with
  | step task => exact l.activate_stays task _
  | wake task cell => exact l.activate_stays task _
  | member group member => exact l.memberDone_stays done group member
  | resolve cell => exact l.complete_stays cell _

theorem nextRound?_stays [Scalar α] (begun : l.nextRound? = some k) : l.Stays k := by
  obtain ⟨time, -, rfl⟩ := Option.map_eq_some_iff.mp begun
  exact .of_cells rfl

variable {P : List φ → Prop}

/-- A later state of a loop, in which all tasks that were there are in the same calls, and
new ones in calls of a kind. -/
structure Serves (P : List φ → Prop) (l k : Loop α ν φ) : Prop where
  size : l.cells.size ≤ k.cells.size
  old : ∀ c < l.cells.size, k.frames c = l.frames c
  new : ∀ c, l.cells.size ≤ c → P (k.frames c)
  awaits : ∀ c a, k.awaits? c = some a → l.awaits? c = some a
  done : ∀ c, l.isDone c = true → k.isDone c = true

theorem Stays.serves (stays : l.Stays k) (empty : P []) : l.Serves P k where
  size := stays.size
  old c _ := stays.frames c
  new c missing := by rwa [stays.frames, frames_of_missing missing]
  awaits := stays.awaits
  done := stays.done

theorem Serves.trans (first : l.Serves P k) (second : k.Serves P m) : l.Serves P m where
  size := Nat.le_trans first.size second.size
  old c inside := (second.old c (Nat.lt_of_lt_of_le inside first.size)).trans (first.old c inside)
  new c missing := by
    by_cases there : c < k.cells.size
    · rw [second.old c there]
      exact first.new c missing
    · exact second.new c (Nat.le_of_not_lt there)
  awaits c a waits := first.awaits c a (second.awaits c a waits)
  done c ended := second.done c (first.done c ended)

/-- A task that was there is in the same calls, and one that is new is in calls as they are to be. -/
theorem Serves.frames (serves : l.Serves P k) (c : Nat) : k.frames c = l.frames c ∨ P (k.frames c) := by
  by_cases inside : c < l.cells.size
  · exact .inl (serves.old c inside)
  · exact .inr (serves.new c (Nat.le_of_not_lt inside))

theorem Serves.mono {Q : List φ → Prop} (serves : l.Serves P k) (wider : ∀ frames, P frames → Q frames) :
    l.Serves Q k :=
  ⟨serves.size, serves.old, fun c missing => wider _ (serves.new c missing), serves.awaits, serves.done⟩

theorem newTask_frames (l : Loop α ν φ) (frames : List φ) : (l.newTask frames).2.frames l.cells.size = frames := by
  have made := newCell_frames l (.task ⟨frames, none, false⟩) l.cells.size
  rw [if_pos rfl] at made
  exact ((callSoon_stays _ _).frames _).trans made

theorem newTask_serves (l : Loop α ν φ) {frames : List φ} (empty : P []) (first : P frames) :
    l.Serves P (l.newTask frames).2 := by
  have queued := callSoon_stays (l.newCell (.task ⟨frames, none, false⟩)).2 (.step l.cells.size)
  have made (c : Nat) : (l.newTask frames).2.frames c = _ := (queued.frames c).trans (newCell_frames l _ c)
  refine ⟨by simp [newTask, newCell, callSoon], fun c inside => ?_, fun c missing => ?_, fun c a waits => ?_,
    fun c ended => queued.done c (newCell_done l _ ended)⟩
  · rw [made, if_neg (Nat.ne_of_lt inside)]
  · rw [made]
    split
    · exact first
    · rwa [frames_of_missing missing]
  · have waits := queued.awaits c a waits
    rw [newCell_awaits?] at waits
    split at waits
    · cases waits
    · exact waits

/-- A later state of a loop in which a task has come to be in the calls `frames`, and awaits
nothing new unless it is one of `awaited`; all other tasks that were there are in the same
calls, and new ones in calls of a kind. -/
structure Enters (P : List φ → Prop) (task : Nat) (frames : List φ) (awaited : Nat → Prop)
    (l k : Loop α ν φ) : Prop where
  size : l.cells.size ≤ k.cells.size
  own : k.frames task = frames ∨ l.frames task = [] ∧ k.frames task = []
  others : ∀ c < l.cells.size, c ≠ task → k.frames c = l.frames c
  new : ∀ c, l.cells.size ≤ c → c ≠ task → P (k.frames c)
  awaits : ∀ c a, k.awaits? c = some a → l.awaits? c = some a ∨ c = task ∧ awaited a
  done : ∀ c, l.isDone c = true → k.isDone c = true

section enters

variable {task : Nat} {frames : List φ} {awaited : Nat → Prop}

theorem Enters.stays (first : l.Enters P task frames awaited k) (second : k.Stays m) :
    l.Enters P task frames awaited m where
  size := Nat.le_trans first.size second.size
  own := by rw [second.frames]; exact first.own
  others c inside other := (second.frames c).trans (first.others c inside other)
  new c missing other := by rw [second.frames]; exact first.new c missing other
  awaits c a waits := first.awaits c a (second.awaits c a waits)
  done c ended := second.done c (first.done c ended)

theorem Serves.enters (first : l.Serves P k) (inside : task < l.cells.size)
    (second : k.Enters P task frames awaited m) : l.Enters P task frames awaited m where
  size := Nat.le_trans first.size second.size
  own := second.own.imp_right fun ⟨bare, still⟩ => ⟨by rwa [← first.old task inside], still⟩
  others c there other :=
    (second.others c (Nat.lt_of_lt_of_le there first.size) other).trans (first.old c there)
  new c missing other := by
    by_cases there : c < k.cells.size
    · rw [second.others c there other]
      exact first.new c missing
    · exact second.new c (Nat.le_of_not_lt there) other
  awaits c a waits := (second.awaits c a waits).imp_left (first.awaits c a)
  done c ended := second.done c (first.done c ended)

theorem setTask_enters (l : Loop α ν φ) (empty : P []) (task : Nat) {f : Task φ → Task φ}
    (calls : ∀ t, (f t).frames = frames)
    (waits : ∀ t a, (f t).awaiting = some a → t.awaiting = some a ∨ awaited a) :
    l.Enters P task frames awaited (l.setTask task f) := by
  have other (c : Nat) (different : c ≠ task) : (l.setTask task f).cells[c]? = l.cells[c]? := by
    rw [setTask, Array.getElem?_modify, if_neg (Ne.symm different)]
  have here : (l.setTask task f).cells[task]? = l.cells[task]?.map fun x =>
      match x.role with
      | .task t => { x with role := .task (f t) }
      | _ => x :=
    (Array.getElem?_modify ..).trans (if_pos rfl)
  refine ⟨by simp [setTask], ?_, fun c _ different => ?_, fun c missing different => ?_, fun c a waiting => ?_,
    fun c ended => ?_⟩
  · rw [frames_eq, frames_eq, here]
    cases l.cells[task]? with
    | none => exact .inr ⟨rfl, rfl⟩
    | some x =>
      obtain ⟨result, callbacks, role⟩ := x
      cases role with
      | task t => exact .inl (calls t)
      | _ => exact .inr ⟨rfl, rfl⟩
  · rw [frames_eq, frames_eq, other c different]
  · rwa [frames_eq, other c different, ← frames_eq, frames_of_missing missing]
  · by_cases same : c = task
    · subst same
      rw [awaits?, here] at waiting
      rw [awaits?]
      cases found : l.cells[c]? with
      | none => simp [found] at waiting
      | some x =>
        rw [found] at waiting
        obtain ⟨result, callbacks, role⟩ := x
        cases role with
        | task t => exact (waits t a waiting).imp_right (⟨rfl, ·⟩)
        | _ => cases waiting
    · rw [awaits?, other c same] at waiting
      exact .inl waiting
  · rw [isDone_eq] at ended ⊢
    by_cases same : c = task
    · subst same
      rw [here]
      cases found : l.cells[c]? with
      | none => simp [found] at ended
      | some x =>
        rw [found] at ended
        obtain ⟨result, callbacks, role⟩ := x
        cases role <;> exact ended
    · rw [other c same]
      exact ended

theorem setFrames_enters (l : Loop α ν φ) (empty : P []) (task : Nat) (frames : List φ) :
    l.Enters P task frames awaited (l.setTask task ({ · with frames })) :=
  l.setTask_enters empty task (fun _ => rfl) fun _ _ => .inl

theorem moved_enters (l : Loop α ν φ) (empty : P []) (task : Nat) (frames : List φ) (active : Option (Nat × Reply ν)) :
    l.Enters P task frames awaited { l.setTask task ({ · with frames }) with active } :=
  (l.setFrames_enters empty task frames).stays (.of_cells rfl)

theorem proceed_enters (l : Loop α ν φ) (empty : P []) (task : Nat) (frames : List φ) (r : Reply ν) :
    l.Enters P task frames (fun _ => False) (l.proceed task frames r) := l.moved_enters empty task frames _

theorem yield_enters (l : Loop α ν φ) (empty : P []) (task : Nat) (frames : List φ) :
    l.Enters P task frames (fun _ => False) (l.yield task frames) :=
  (l.setFrames_enters empty task frames).stays (.of_cells rfl)

theorem await_enters (l : Loop α ν φ) (empty : P []) (task : Nat) (frames : List φ) (cell : Nat) :
    l.Enters P task frames (· = cell) (l.await task frames cell) := by
  unfold await
  split
  · exact l.moved_enters empty task frames _
  · have waits : l.Enters P task frames (· = cell) (l.setTask task ({ · with frames, awaiting := some cell })) :=
      l.setTask_enters empty task (fun _ => rfl) fun _ a same => .inr (Option.some.inj same).symm
    exact (waits.stays (onDone_stays _ cell _)).stays (.of_cells rfl)

theorem leave_enters (l : Loop α ν φ) (empty : P []) (task : Nat) (frames : List φ) (r : Reply ν) :
    l.Enters P task frames (fun _ => False) (l.leave task frames r) := by
  cases frames with
  | nil => exact ((l.setFrames_enters empty task []).stays (complete_stays _ task r)).stays (.of_cells rfl)
  | cons frame rest => exact l.moved_enters empty task (frame :: rest) _

/-- A task that leaves its last call is over. -/
theorem leave_done (l : Loop α ν φ) (r : Reply ν) (inside : task < l.cells.size) :
    (l.leave task [] r).isDone task = true :=
  complete_done _ r (by simpa [setTask] using inside)

end enters

section results

theorem result?_newCell (l : Loop α ν φ) (role : Role φ) {c : Nat} (inside : c < l.cells.size) :
    (l.newCell role).2.result? c = l.result? c := by
  simp [result?, newCell, Array.getElem?_push, Nat.ne_of_lt inside]

theorem result?_setTask (l : Loop α ν φ) (task : Nat) (f : Task φ → Task φ) (c : Nat) :
    (l.setTask task f).result? c = l.result? c := by
  simp only [result?, setTask, Array.getElem?_modify]
  split
  · cases l.cells[c]? with
    | none => rfl
    | some x =>
      obtain ⟨result, callbacks, role⟩ := x
      cases role <;> rfl
  · rfl

theorem result?_onDone (l : Loop α ν φ) (cell : Nat) (cb : Callback) (c : Nat) :
    (l.onDone cell cb).result? c = l.result? c := by
  unfold onDone
  split
  · rfl
  · simp only [result?, Array.getElem?_modify]
    split
    · cases l.cells[c]? <;> rfl
    · rfl

theorem result?_await (l : Loop α ν φ) (task : Nat) (frames : List φ) (cell c : Nat) :
    (l.await task frames cell).result? c = l.result? c := by
  unfold await
  split
  · exact result?_setTask ..
  · exact (result?_onDone ..).trans (result?_setTask ..)

/-- A task that leaves its last call leaves behind what it left it with. -/
theorem result?_leave {l : Loop α ν φ} {task : Nat} {r v : Reply ν} (pending : l.result? task = none)
    (left : (l.leave task [] r).result? task = some v) : v = r := by
  have pending : (l.setTask task ({ · with frames := [] })).result? task = none := (result?_setTask ..).trans pending
  change ((l.setTask task ({ · with frames := [] })).complete task r).result? task = some v at left
  unfold complete at left
  split at left
  · rename_i found
    have inside := (Array.getElem?_eq_some_iff.mp found).1
    simp only [result?, Array.set!_eq_setIfInBounds, Array.getElem?_setIfInBounds, if_true, if_pos inside,
      Option.bind_some, Option.some.injEq] at left
    exact left.symm
  · cases pending.symm.trans left

end results

end Loop

end Partita
