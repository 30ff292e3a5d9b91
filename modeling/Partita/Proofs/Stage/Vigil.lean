import Partita.Proofs.Stage.Calls
import Partita.Stage.Basic

/-! One task of a loop waits for another one, which runs a block. Whatever else the loop has
in store, nobody but the loop wakes the task that waits, and only once the other one is over;
and what it is woken with is the end of a run: a position, a cancellation, or a fault of
the runs. Each operation of a loop keeps that up. -/
namespace Partita

open Score

variable {α : Type}

namespace Reply

def Mild (F : Fault → Prop) (r : Reply (Value α)) : Prop := ∀ f, r = .raised (.fault f) → F f

inductive OfRun (F : Fault → Prop) : Reply (Value α) → Prop
  | finished (position : α) : OfRun F (.value (.number position))
  | cancelled : OfRun F (.raised .cancelled)
  | failed {f : Fault} (kind : F f) : OfRun F (.raised (.fault f))

variable {F : Fault → Prop}

theorem Mild.of_value (v : Value α) : Mild F (.value v) := by simp [Mild]

theorem Mild.of_cancelled : Mild F (.raised .cancelled : Reply (Value α)) := by simp [Mild]

theorem Mild.of_timeout : Mild F (.raised .timeout : Reply (Value α)) := by simp [Mild]

theorem OfRun.mild {r : Reply (Value α)} (ended : r.OfRun F) : r.Mild F := by
  cases ended with
  | finished position => exact .of_value _
  | cancelled => exact .of_cancelled
  | failed kind =>
    intro f same
    cases same
    exact kind

end Reply

/-- Whether a call is a run, or one of those in which a run waits. -/
def Frame.isInner : Frame α → Bool
  | .run .. | .within .. | .ending .. | .sleeping _ | .listen .. => true
  | _ => false

def Frame.isRun : Frame α → Bool
  | .run .. => true
  | _ => false

/-- A task that waits for another one: what it waits in, what the runs fail with, and
whether the other one is known to be over. -/
structure Vigil (α : Type) where
  waiter : Nat
  awaited : Nat
  distinct : waiter ≠ awaited
  frames : List (Frame α)
  faults : Fault → Prop
  gone : Bool

namespace Vigil

variable (v : Vigil α)

/-- The calls that a task other than the waiter may be in. The awaited one is in a run. -/
structure Suits (task : Nat) (frames : List (Frame α)) : Prop where
  inner : ∀ f ∈ frames, f.isInner = true
  last : task = v.awaited → v.gone = true ∨ ∃ f, frames.getLast? = some f ∧ f.isRun = true

structure Fits (cell : Nat) (r : Reply (Value α)) : Prop where
  mild : r.Mild v.faults
  run : cell = v.awaited → v.gone = true ∨ r.OfRun v.faults

/-- Whether a callback wakes the waiter. -/
def Wakes : Callback → Prop
  | .wake task _ => task = v.waiter
  | _ => False

/-- Callbacks that neither end the two tasks nor wake the waiter with anything else. -/
def Spares : Callback → Prop
  | .step task => task ≠ v.waiter
  | .wake task cell => task = v.waiter → cell = v.awaited
  | .member _ _ => True
  | .resolve cell => cell ≠ v.waiter ∧ cell ≠ v.awaited

structure Holds (c : Nat) (x : Cell (Value α) (Frame α)) : Prop where
  waiter : c = v.waiter → x.result = none ∧ ∃ t, x.role = .task t ∧ t.frames = v.frames
  awaited : c = v.awaited → ∃ t, x.role = .task t
  result : ∀ r, x.result = some r → r.Mild v.faults ∧ (c = v.awaited → r.OfRun v.faults)
  frames : c ≠ v.waiter → ∀ t, x.role = .task t → (∀ f ∈ t.frames, f.isInner = true) ∧
    (c = v.awaited → x.result = none → ∃ f, t.frames.getLast? = some f ∧ f.isRun = true)
  callbacks : ∀ cb ∈ x.callbacks, v.Spares cb ∧ (v.Wakes cb → c = v.awaited)

variable {v} in
theorem Holds.not_task {c : Nat} {x : Cell (Value α) (Frame α)} (holds : v.Holds c x)
    (other : ∀ t, x.role ≠ .task t) : c ≠ v.waiter ∧ c ≠ v.awaited := by
  refine ⟨fun same => ?_, fun same => ?_⟩
  · obtain ⟨-, t, task, -⟩ := holds.waiter same
    exact other t task
  · obtain ⟨t, task⟩ := holds.awaited same
    exact other t task

end Vigil

/-- A loop in which a task waits for another one. -/
structure Loop.Keeps (v : Vigil α) (l : Loop α (Value α) (Frame α)) : Prop where
  waiter : v.waiter < l.cells.size
  awaited : v.awaited < l.cells.size
  cells : ∀ c x, l.cells[c]? = some x → v.Holds c x
  pending : ∀ cb, cb ∈ l.queued ∨ cb ∈ l.round → v.Spares cb ∧ (v.Wakes cb → l.isDone v.awaited = true)
  timers : ∀ t ∈ l.timers, v.Spares t.callback ∧ ¬ v.Wakes t.callback
  gone : v.gone = true → l.isDone v.awaited = true

theorem Loop.mem_insertTimer [Scalar α] {s t : Timer α} {timers : List (Timer α)}
    (member : t ∈ insertTimer s timers) : t = s ∨ t ∈ timers := by
  induction timers with
  | nil => exact .inl (List.mem_singleton.mp member)
  | cons u rest ih =>
    unfold insertTimer at member
    split at member
    · exact (List.mem_cons.mp member).imp_right id
    · rcases List.mem_cons.mp member with rfl | later
      · exact .inr (by simp)
      · exact (ih later).imp_right (List.mem_cons_of_mem u)

theorem Loop.complete_setTask {ν φ : Type} {l : Loop α ν φ} {c : Nat} {t : Task φ} {callbacks : List Callback}
    (found : l.cells[c]? = some ⟨none, callbacks, .task t⟩) (f : Task φ → Task φ) (r : Reply ν) :
    (l.setTask c f).complete c r = { l with
      cells := l.cells.set! c ⟨some r, [], .task (f t)⟩
      queued := l.queued ++ callbacks.toArray } := by
  have changed : (l.setTask c f).cells[c]? = some ⟨none, callbacks, .task (f t)⟩ := by
    simp [setTask, Array.getElem?_modify, found]
  unfold complete
  rw [changed]
  dsimp only [setTask]
  congr 1
  apply Array.ext_getElem?
  intro k
  by_cases same : k = c
  · subst same
    simp [Array.getElem?_setIfInBounds]
  · simp [Array.getElem?_modify, Ne.symm same]

namespace Loop.Keeps

variable {v : Vigil α} {l : Loop α (Value α) (Frame α)}

theorem result (keeps : l.Keeps v) {c : Nat} {r : Reply (Value α)} (found : l.result? c = some r) :
    r.Mild v.faults ∧ (c = v.awaited → r.OfRun v.faults) := by
  obtain ⟨x, there, ended⟩ := Option.bind_eq_some_iff.mp found
  exact (keeps.cells c x there).result r ended

/-- A cell is replaced by one that may stand there. -/
theorem withCells (keeps : l.Keeps v) {c : Nat} {cells : Array (Cell (Value α) (Frame α))}
    (size : cells.size = l.cells.size) (others : ∀ k, k ≠ c → cells[k]? = l.cells[k]?)
    (here : ∀ x y, l.cells[c]? = some x → cells[c]? = some y →
      v.Holds c y ∧ (x.result.isSome = true → y.result.isSome = true)) :
    Keeps v { l with cells := cells } := by
  have done : l.isDone v.awaited = true → ({ l with cells := cells } : Loop α _ _).isDone v.awaited = true := by
    intro ended
    by_cases same : v.awaited = c
    · subst same
      have old := Array.getElem?_eq_getElem keeps.awaited
      have new := Array.getElem?_eq_getElem (Nat.lt_of_lt_of_eq keeps.awaited size.symm)
      simp only [isDone, result?, old, Option.bind_some] at ended
      simp only [isDone, result?, new, Option.bind_some]
      exact (here _ _ old new).2 ended
    · simpa only [isDone, result?, others _ same] using ended
  refine ⟨size ▸ keeps.waiter, size ▸ keeps.awaited, fun k y there => ?_, fun cb member => ?_, keeps.timers,
    fun gone => done (keeps.gone gone)⟩
  · by_cases same : k = c
    · subst same
      have inside : k < l.cells.size := size ▸ (Array.getElem?_eq_some_iff.mp there).1
      exact (here _ _ (Array.getElem?_eq_getElem inside) there).1
    · exact keeps.cells k y (others k same ▸ there)
  · obtain ⟨spares, wakes⟩ := keeps.pending cb member
    exact ⟨spares, fun woken => done (wakes woken)⟩

theorem modifyCell (keeps : l.Keeps v) (c : Nat) {f : Cell (Value α) (Frame α) → Cell (Value α) (Frame α)}
    (holds : ∀ x, l.cells[c]? = some x → v.Holds c x →
      v.Holds c (f x) ∧ (x.result.isSome = true → (f x).result.isSome = true)) :
    Keeps v { l with cells := l.cells.modify c f } := by
  refine keeps.withCells (c := c) (by simp) (fun k other => ?_) fun x y old new => ?_
  · rw [Array.getElem?_modify, if_neg (Ne.symm other)]
  · rw [Array.getElem?_modify, if_pos rfl, old] at new
    cases new
    exact holds x old (keeps.cells c x old)

theorem enqueue (keeps : l.Keeps v) {queued : Array Callback}
    (proper : ∀ cb ∈ queued, cb ∈ l.queued ∨ v.Spares cb ∧ (v.Wakes cb → l.isDone v.awaited = true)) :
    Keeps v { l with queued := queued } := by
  refine ⟨keeps.waiter, keeps.awaited, keeps.cells, fun cb member => ?_, keeps.timers, keeps.gone⟩
  rcases member with member | member
  · exact (proper cb member).elim (fun old => keeps.pending cb (.inl old)) id
  · exact keeps.pending cb (.inr member)

theorem callSoon (keeps : l.Keeps v) {cb : Callback} (spares : v.Spares cb)
    (wakes : v.Wakes cb → l.isDone v.awaited = true) : (l.callSoon cb).Keeps v := by
  refine keeps.enqueue fun c member => ?_
  rcases Array.mem_push.mp member with old | rfl
  · exact .inl old
  · exact .inr ⟨spares, wakes⟩

theorem withActive (keeps : l.Keeps v) (active : Option (Nat × Reply (Value α))) :
    Keeps v { l with active := active } :=
  ⟨keeps.waiter, keeps.awaited, keeps.cells, keeps.pending, keeps.timers, keeps.gone⟩

/-- A cell that has no result gets one, and its callbacks are queued. -/
theorem finish (keeps : l.Keeps v) {c : Nat} {callbacks : List Callback} {role role' : Role (Frame α)}
    (found : l.cells[c]? = some ⟨none, callbacks, role⟩) (other : c ≠ v.waiter) {r : Reply (Value α)}
    (fits : v.Fits c r) (task : c = v.awaited → ∃ t, role' = .task t)
    (inner : ∀ t, role' = .task t → ∀ f ∈ t.frames, f.isInner = true) :
    Keeps v { l with
      cells := l.cells.set! c ⟨some r, [], role'⟩
      queued := l.queued ++ callbacks.toArray } := by
  have holds := keeps.cells c _ found
  have inside := (Array.getElem?_eq_some_iff.mp found).1
  have run : c = v.awaited → r.OfRun v.faults := by
    intro same
    refine (fits.run same).resolve_left fun gone => ?_
    have done := keeps.gone gone
    rw [← same] at done
    simp [isDone, result?, found] at done
  have ended : Keeps v { l with cells := l.cells.set! c ⟨some r, [], role'⟩ } := by
    refine keeps.withCells (c := c) (by simp) (fun k different => by simp [Ne.symm different])
      fun x y old new => ?_
    simp only [Array.set!_eq_setIfInBounds, Array.getElem?_setIfInBounds, if_pos inside, if_true,
      Option.some.injEq] at new
    subst new
    refine ⟨⟨fun same => absurd same other, task, fun s same => ?_, fun away t same => ?_, by simp⟩, fun _ => rfl⟩
    · cases same
      exact ⟨fits.mild, run⟩
    · exact ⟨inner t same, fun _ none => by cases none⟩
  refine ended.enqueue fun cb member => ?_
  rcases Array.mem_append.mp member with old | new
  · exact .inl old
  · obtain ⟨spares, wakes⟩ := holds.callbacks cb (List.mem_toArray.mp new)
    refine .inr ⟨spares, fun woken => ?_⟩
    rw [← wakes woken]
    simp [isDone, result?, inside]

theorem complete (keeps : l.Keeps v) {c : Nat} {r : Reply (Value α)} (other : c ≠ v.waiter) (fits : v.Fits c r) :
    (l.complete c r).Keeps v := by
  unfold Loop.complete
  split
  · rename_i callbacks role found
    have holds := keeps.cells c _ found
    exact keeps.finish found other fits holds.awaited fun t task => (holds.frames other t task).1
  · exact keeps

theorem onDone (keeps : l.Keeps v) (c : Nat) {cb : Callback} (spares : v.Spares cb)
    (wakes : v.Wakes cb → c = v.awaited) : (l.onDone c cb).Keeps v := by
  unfold Loop.onDone
  split
  · rename_i done
    exact keeps.callSoon spares fun woken => wakes woken ▸ done
  · refine keeps.modifyCell c fun x _ holds => ⟨⟨holds.waiter, holds.awaited, holds.result, holds.frames, ?_⟩, id⟩
    intro other member
    rcases List.mem_append.mp member with old | new
    · exact holds.callbacks other old
    · obtain rfl := List.mem_singleton.mp new
      exact ⟨spares, wakes⟩

theorem forget (keeps : l.Keeps v) (c : Nat) (cb : Callback) : (l.forget c cb).Keeps v :=
  keeps.modifyCell c fun _ _ holds => ⟨⟨holds.waiter, holds.awaited, holds.result, holds.frames,
    fun other member => holds.callbacks other (List.mem_filter.mp member).1⟩, id⟩

theorem newCell (keeps : l.Keeps v) {role : Role (Frame α)}
    (inner : ∀ t, role = .task t → ∀ f ∈ t.frames, f.isInner = true) : (l.newCell role).2.Keeps v := by
  have old (c : Nat) (inside : c < l.cells.size) : (l.newCell role).2.cells[c]? = l.cells[c]? := by
    simp [Loop.newCell, Array.getElem?_push, Nat.ne_of_lt inside]
  have done : (l.newCell role).2.isDone v.awaited = l.isDone v.awaited := by
    simp only [isDone, result?, old _ keeps.awaited]
  refine ⟨?_, ?_, fun c x there => ?_, fun cb member => ?_, keeps.timers, fun gone => done ▸ keeps.gone gone⟩
  · simpa [Loop.newCell] using Nat.lt_succ_of_lt keeps.waiter
  · simpa [Loop.newCell] using Nat.lt_succ_of_lt keeps.awaited
  · by_cases inside : c < l.cells.size
    · exact keeps.cells c x (old c inside ▸ there)
    · simp only [Loop.newCell, Array.getElem?_push] at there
      split at there
      · cases there
        have other : c ≠ v.awaited := fun same => inside (same ▸ keeps.awaited)
        exact ⟨fun same => absurd (same ▸ keeps.waiter) inside, fun same => absurd same other, by simp,
          fun _ t task => ⟨inner t task, fun same => absurd same other⟩, by simp⟩
      · simp [inside] at there
  · rw [done]
    exact keeps.pending cb member

theorem newPlain (keeps : l.Keeps v) : (l.newCell .plain).2.Keeps v := keeps.newCell (by simp)

theorem newTask (keeps : l.Keeps v) {frames : List (Frame α)} (inner : ∀ f ∈ frames, f.isInner = true) :
    (l.newTask frames).2.Keeps v := by
  have made : (l.newCell (.task ⟨frames, none, false⟩)).2.Keeps v := keeps.newCell (by rintro _ ⟨⟩; exact inner)
  exact made.callSoon (Nat.ne_of_gt keeps.waiter) fun woken => woken.elim

theorem callLater (keeps : l.Keeps v) [Scalar α] (delay : α) {cb : Callback} (spares : v.Spares cb)
    (silent : ¬ v.Wakes cb) : (l.callLater delay cb).2.Keeps v := by
  refine ⟨keeps.waiter, keeps.awaited, keeps.cells, keeps.pending, fun t member => ?_, keeps.gone⟩
  rcases mem_insertTimer member with rfl | old
  · exact ⟨spares, silent⟩
  · exact keeps.timers t old

theorem cancelTimer (keeps : l.Keeps v) (id : Nat) : (l.cancelTimer id).Keeps v :=
  ⟨keeps.waiter, keeps.awaited, keeps.cells, keeps.pending,
    fun t member => keeps.timers t (List.mem_filter.mp member).1, keeps.gone⟩

theorem setTask (keeps : l.Keeps v) (c : Nat) {f : Task (Frame α) → Task (Frame α)}
    (frames : ∀ t, (f t).frames = t.frames ∨ c ≠ v.waiter ∧ v.Suits c (f t).frames) : (l.setTask c f).Keeps v := by
  refine keeps.modifyCell c fun x found holds => ?_
  split
  · rename_i t role
    refine ⟨⟨fun same => ?_, fun _ => ⟨_, rfl⟩, holds.result, fun away u task => ?_, holds.callbacks⟩, id⟩
    · obtain ⟨none, u, task, own⟩ := holds.waiter same
      obtain rfl : t = u := by rw [role] at task; exact Role.task.inj task
      rcases frames t with kept | ⟨away, -⟩
      · exact ⟨none, f t, rfl, kept.trans own⟩
      · exact absurd same away
    · obtain rfl : f t = u := Role.task.inj task
      rcases frames t with kept | ⟨-, suits⟩
      · rw [kept]
        exact holds.frames away t role
      · refine ⟨suits.inner, fun same none => (suits.last same).resolve_left fun gone => ?_⟩
        have done := keeps.gone gone
        have none : x.result = Option.none := none
        rw [← same] at done
        simp [isDone, result?, found, none] at done
  · exact ⟨holds, id⟩

theorem cancelWithin (keeps : l.Keeps v) (depth cell : Nat) : (l.cancelWithin depth cell).1.Keeps v := by
  induction depth generalizing l cell with
  | zero => exact keeps
  | succ depth ih =>
    unfold Loop.cancelWithin
    split
    · exact keeps
    · rename_i x found
      have holds := keeps.cells cell x found
      split
      · exact keeps
      · rename_i unfinished
        split
        · rename_i plain
          have away := holds.not_task (by simp [plain])
          exact keeps.complete away.1 ⟨.of_cancelled, fun _ => .inr .cancelled⟩
        · rename_i members _ _ _
          dsimp only
          generalize folded : members.foldl _ (l, false) = pair
          have passed : pair.1.Keeps v :=
            folded ▸ List.foldlRecOn members _ (motive := fun p : Loop α (Value α) (Frame α) × Bool => p.1.Keeps v)
              keeps fun p kept m _ => ih kept m
          split
          · refine passed.modifyCell cell fun y _ holds => ?_
            split
            · rename_i role
              have away := holds.not_task (by simp [role])
              exact ⟨⟨fun same => absurd same away.1, fun same => absurd same away.2, holds.result, by simp,
                holds.callbacks⟩, id⟩
            · exact ⟨holds, id⟩
          · exact passed
        · have asked (k : Loop α (Value α) (Frame α)) (keeps : k.Keeps v) :
              (k.setTask cell ({ · with mustCancel := true })).Keeps v := keeps.setTask cell fun t => .inl rfl
          split
          · dsimp only
            split
            · exact ih keeps _
            · exact asked _ (ih keeps _)
          · exact asked _ keeps

theorem cancel (keeps : l.Keeps v) (cell : Nat) : (l.cancel cell).Keeps v := keeps.cancelWithin _ _

theorem newGroup (keeps : l.Keeps v) (members : List Nat) : (l.newGroup members).2.Keeps v := by
  have made : (l.newCell (.group members 0 false)).2.Keeps v := keeps.newCell (by simp)
  exact List.foldlRecOn members _ (motive := fun k : Loop α (Value α) (Frame α) => k.Keeps v) made
    fun k kept m _ => kept.onDone m trivial fun woken => woken.elim

theorem memberDone (keeps : l.Keeps v) (done : Value α) (group member : Nat) :
    (l.memberDone done group member).Keeps v := by
  unfold Loop.memberDone
  split
  · rename_i callbacks members finished cancelRequested found
    have holds := keeps.cells group _ found
    have inside := (Array.getElem?_eq_some_iff.mp found).1
    obtain ⟨away, away'⟩ := holds.not_task (by simp)
    have counted : Keeps v { l with
        cells := l.cells.set! group ⟨none, callbacks, .group members (finished + 1) cancelRequested⟩ } := by
      refine keeps.withCells (c := group) (by simp) (fun k different => by simp [Ne.symm different])
        fun x y old new => ?_
      simp only [Array.set!_eq_setIfInBounds, Array.getElem?_setIfInBounds, if_pos inside, if_true,
        Option.some.injEq] at new
      subst new
      rw [found] at old
      cases old
      exact ⟨⟨fun same => absurd same away, fun same => absurd same away', by simp, by simp, holds.callbacks⟩, id⟩
    dsimp only
    split
    · rename_i x raised
      exact counted.complete away ⟨(counted.result raised).1, fun same => absurd same away'⟩
    · split
      · refine counted.complete away ⟨?_, fun same => absurd same away'⟩
        split
        · exact .of_cancelled
        · exact .of_value done
      · exact counted
  · exact keeps

theorem nextRound? [Scalar α] (keeps : l.Keeps v) {next : Loop α (Value α) (Frame α)}
    (begun : l.nextRound? = some next) : next.Keeps v ∧ next.active = l.active := by
  obtain ⟨time, -, rfl⟩ := Option.map_eq_some_iff.mp begun
  refine ⟨⟨keeps.waiter, keeps.awaited, keeps.cells, fun cb member => ?_, fun t member => ?_, keeps.gone⟩, rfl⟩
  · rcases member with none | member
    · simp at none
    · rcases List.mem_append.mp member with queued | due
      · exact keeps.pending cb (.inl (Array.mem_toList_iff.mp queued))
      · obtain ⟨t, taken, rfl⟩ := List.mem_map.mp due
        obtain ⟨spares, silent⟩ := keeps.timers t ((List.takeWhile_prefix _).subset taken)
        exact ⟨spares, fun woken => absurd woken silent⟩
  · exact keeps.timers t ((List.dropWhile_suffix _).subset member)

/-- The awaited task is known to be over once it is. -/
theorem known (keeps : l.Keeps v) (done : l.isDone v.awaited = true) : l.Keeps { v with gone := true } :=
  ⟨keeps.waiter, keeps.awaited, fun c x there =>
    have h := keeps.cells c x there
    ⟨h.waiter, h.awaited, h.result, h.frames, h.callbacks⟩, keeps.pending, keeps.timers, fun _ => done⟩

theorem unknown (keeps : l.Keeps { v with gone := true }) : l.Keeps v :=
  ⟨keeps.waiter, keeps.awaited, fun c x there =>
    have h := keeps.cells c x there
    ⟨h.waiter, h.awaited, h.result, h.frames, h.callbacks⟩, keeps.pending, keeps.timers, fun _ => keeps.gone rfl⟩

end Loop.Keeps

/-- A loop in which a task waits for another one while others are at work. -/
structure Loop.Rests (v : Vigil α) (l : Loop α (Value α) (Frame α)) : Prop extends l.Keeps v where
  active : ∀ task r, l.active = some (task, r) → task ≠ v.waiter ∧ r.Mild v.faults

/-- A loop in which a task that waited goes on with the end of a run. -/
structure Loop.Hears (v : Vigil α) (l : Loop α (Value α) (Frame α)) : Prop extends l.Keeps v where
  heard : ∃ r, l.active = some (v.waiter, r) ∧ r.OfRun v.faults

namespace Loop.Keeps

variable {v : Vigil α} {l : Loop α (Value α) (Frame α)} {task : Nat} {frames : List (Frame α)}
  {r : Reply (Value α)}

/-- The task that is taking a step goes on in other calls. -/
theorem goOn (keeps : l.Keeps v) (other : task ≠ v.waiter) (suits : v.Suits task frames)
    (mild : r.Mild v.faults) : Rests v { l.setTask task ({ · with frames }) with active := some (task, r) } := by
  refine ⟨(keeps.setTask task fun t => .inr ⟨other, suits⟩).withActive _, fun _ _ same => ?_⟩
  cases same
  exact ⟨other, mild⟩

theorem proceed (keeps : l.Keeps v) (other : task ≠ v.waiter) (suits : v.Suits task frames)
    (mild : r.Mild v.faults) : (l.proceed task frames r).Rests v := keeps.goOn other suits mild

theorem yield (keeps : l.Keeps v) (other : task ≠ v.waiter) (suits : v.Suits task frames) :
    (l.yield task frames).Rests v := by
  have queued : ((l.setTask task ({ · with frames })).callSoon (.step task)).Keeps v :=
    (keeps.setTask task fun t => .inr ⟨other, suits⟩).callSoon other fun woken => woken.elim
  exact ⟨queued.withActive _, fun _ _ same => by cases same⟩

theorem await (keeps : l.Keeps v) (other : task ≠ v.waiter) (suits : v.Suits task frames) (cell : Nat) :
    (l.await task frames cell).Rests v := by
  unfold Loop.await
  split
  · rename_i r found
    exact keeps.goOn other suits (keeps.result found).1
  · have moved : (l.setTask task ({ · with frames, awaiting := some cell })).Keeps v :=
      keeps.setTask task fun t => .inr ⟨other, suits⟩
    have spares : v.Spares (.wake task cell) := fun same => absurd same other
    exact ⟨(moved.onDone cell spares fun same => absurd same other).withActive _, fun _ _ same => by cases same⟩

/-- A task leaves its innermost call. Where that is its only one it is over. -/
theorem leave (keeps : l.Keeps v) (other : task ≠ v.waiter) {frame : Frame α}
    (suits : v.Suits task (frame :: frames)) (mild : r.Mild v.faults)
    (run : frame.isRun = true → r.OfRun v.faults) : (l.leave task frames r).Rests v := by
  cases frames with
  | nil =>
    have fits : v.Fits task r := ⟨mild, fun same => (suits.last same).imp_right fun ⟨f, only, ended⟩ => by
      cases only
      exact run ended⟩
    have gone : ((l.setTask task ({ · with frames := [] })).complete task r).Keeps v := by
      by_cases same : task = v.awaited
      · obtain ⟨⟨result, callbacks, role⟩, there⟩ : ∃ x, l.cells[task]? = some x :=
          ⟨_, Array.getElem?_eq_getElem (same ▸ keeps.awaited)⟩
        obtain ⟨t, rfl⟩ : ∃ t, role = .task t := (keeps.cells task _ there).awaited same
        cases result with
        | some ended =>
          have done : l.isDone v.awaited = true := by simp [← same, isDone, result?, there]
          have silent := (keeps.known done).setTask task (f := ({ · with frames := [] }))
            fun t => .inr ⟨other, by simp, fun _ => .inl rfl⟩
          exact (silent.complete other ⟨mild, fun _ => .inl rfl⟩).unknown
        | none =>
          rw [complete_setTask there]
          exact keeps.finish there other fits (fun _ => ⟨_, rfl⟩) (by rintro _ ⟨⟩; simp)
      · have emptied := keeps.setTask task (f := ({ · with frames := [] }))
          fun t => .inr ⟨other, by simp, fun equal => absurd equal same⟩
        exact emptied.complete other fits
    exact ⟨gone.withActive _, fun _ _ same => by cases same⟩
  | cons next rest =>
    refine keeps.goOn other ⟨fun f member => suits.inner f (List.mem_cons_of_mem _ member), fun same => ?_⟩ mild
    simpa using suits.last same

theorem frames_waiter (keeps : l.Keeps v) : l.frames v.waiter = v.frames := by
  obtain ⟨⟨result, callbacks, role⟩, there⟩ : ∃ x, l.cells[v.waiter]? = some x :=
    ⟨_, Array.getElem?_eq_getElem keeps.waiter⟩
  obtain ⟨-, t, rfl, own⟩ := (keeps.cells v.waiter _ there).waiter rfl
  simp [Loop.frames, there, own]

/-- The waiter goes on in other calls. -/
theorem relieve (keeps : l.Keeps v) (frames : List (Frame α))
    (active : Option (Nat × Reply (Value α))) :
    Keeps { v with frames } { l.setTask v.waiter ({ · with frames }) with active } := by
  have done : (l.setTask v.waiter ({ · with frames })).isDone v.awaited = l.isDone v.awaited := by
    simp [isDone, result?, Loop.setTask, Array.getElem?_modify, v.distinct]
  refine ⟨by simpa [Loop.setTask] using keeps.waiter, by simpa [Loop.setTask] using keeps.awaited,
    fun c x there => ?_, fun cb member => ?_, keeps.timers, fun gone => done.trans (keeps.gone gone)⟩
  · simp only [Loop.setTask, Array.getElem?_modify] at there
    split at there
    · rename_i own
      obtain ⟨y, old, rfl⟩ := Option.map_eq_some_iff.mp there
      have holds := keeps.cells c y old
      obtain ⟨none, t, task, -⟩ := holds.waiter own.symm
      rw [task]
      exact ⟨fun _ => ⟨none, _, rfl, rfl⟩, fun _ => ⟨_, rfl⟩, holds.result, fun away => absurd own.symm away,
        holds.callbacks⟩
    · rename_i away
      have holds := keeps.cells c x there
      exact ⟨fun same => absurd same.symm away, holds.awaited, holds.result, holds.frames, holds.callbacks⟩
  · obtain ⟨spares, wakes⟩ := keeps.pending cb member
    exact ⟨spares, fun woken => done.trans (wakes woken)⟩

theorem activate (keeps : l.Keeps v) (c : Nat) (s : Reply (Value α)) : (l.activate c s).Keeps v ∧
    ((l.activate c s).active = l.active ∨
      ∃ r, (l.activate c s).active = some (c, r) ∧ (r = s ∨ r = .raised .cancelled)) := by
  unfold Loop.activate
  split
  · have woken := keeps.setTask c (f := ({ · with awaiting := none, mustCancel := false })) fun t => .inl rfl
    refine ⟨woken.withActive _, .inr ⟨_, rfl, ?_⟩⟩
    split
    · exact .inr rfl
    · exact .inl rfl
  · exact ⟨keeps, .inl rfl⟩

/-- Running a callback wakes the waiter with the end of the awaited task, or not at all. -/
theorem run (keeps : l.Keeps v) (idle : l.active = none) (done : Value α) {cb : Callback} (spares : v.Spares cb)
    (wakes : v.Wakes cb → l.isDone v.awaited = true) : (l.run done cb).Rests v ∨ (l.run done cb).Hears v := by
  have still {k : Loop α (Value α) (Frame α)} (kept : k.Keeps v) (same : k.active = l.active) : k.Rests v :=
    ⟨kept, fun _ _ active => by rw [same, idle] at active; cases active⟩
  cases cb with
  | step task =>
    obtain ⟨kept, same | ⟨r, active, given⟩⟩ := keeps.activate task (.value done)
    · exact .inl (still kept same)
    · refine .inl ⟨kept, fun other s same => ?_⟩
      rw [Loop.run, active] at same
      cases same
      refine ⟨spares, ?_⟩
      rcases given with rfl | rfl
      · exact .of_value done
      · exact .of_cancelled
  | wake task cell =>
    obtain ⟨kept, same | ⟨r, active, given⟩⟩ := keeps.activate task ((l.result? cell).getD (.value done))
    · exact .inl (still kept same)
    · by_cases own : task = v.waiter
      · refine .inr ⟨kept, r, own ▸ active, ?_⟩
        rcases given with rfl | rfl
        · obtain ⟨ended, found⟩ := Option.isSome_iff_exists.mp (wakes own)
          rw [spares own, found]
          exact (keeps.result found).2 rfl
        · exact .cancelled
      · refine .inl ⟨kept, fun other s same => ?_⟩
        rw [Loop.run, active] at same
        cases same
        refine ⟨own, ?_⟩
        rcases given with rfl | rfl
        · cases found : l.result? cell with
          | none => exact .of_value done
          | some ended => exact (keeps.result found).1
        · exact .of_cancelled
  | member group member =>
    exact .inl (still (keeps.memberDone done group member) (active_memberDone _ done group member))
  | resolve cell =>
    have resolved := keeps.complete spares.1 ⟨.of_value done, fun same => absurd same spares.2⟩
    exact .inl (still resolved (active_complete _ cell _))

end Loop.Keeps

/-- A call is entered. -/
theorem Vigil.Suits.push {v : Vigil α} {task : Nat} {frames : List (Frame α)} (suits : v.Suits task frames)
    {frame : Frame α} (inner : frame.isInner = true) : v.Suits task (frame :: frames) where
  inner := List.forall_mem_cons.mpr ⟨inner, suits.inner⟩
  last same := (suits.last same).imp_right fun ⟨f, last, run⟩ => ⟨f, by simp [List.getLast?_cons, last], run⟩

/-- A call in which a run waits is left for another one. -/
theorem Vigil.Suits.replace {v : Vigil α} {task : Nat} {frame : Frame α} {frames : List (Frame α)}
    (suits : v.Suits task (frame :: frames)) (waits : frame.isRun = false) {next : Frame α}
    (inner : next.isInner = true) : v.Suits task (next :: frames) where
  inner := List.forall_mem_cons.mpr ⟨inner, (List.forall_mem_cons.mp suits.inner).2⟩
  last same := (suits.last same).imp_right fun ⟨f, last, run⟩ => by
    cases frames with
    | nil =>
      obtain rfl : frame = f := by simpa using last
      rw [waits] at run
      cases run
    | cons second rest => exact ⟨f, by simpa using last, run⟩

theorem Loop.Keeps.inner {v : Vigil α} {l : Loop α (Value α) (Frame α)} (keeps : l.Keeps v) {task : Nat}
    (other : task ≠ v.waiter) : ∀ f ∈ l.frames task, f.isInner = true := by
  unfold Loop.frames
  split
  · rename_i t there
    exact ((keeps.cells task _ there).frames other t rfl).1
  · simp

theorem Loop.Keeps.suits {v : Vigil α} {l : Loop α (Value α) (Frame α)} (keeps : l.Keeps v)
    (known : l.isDone v.awaited = true → v.gone = true) {task : Nat} (other : task ≠ v.waiter) :
    v.Suits task (l.frames task) := by
  refine ⟨keeps.inner other, fun same => ?_⟩
  obtain ⟨⟨result, callbacks, role⟩, there⟩ : ∃ x, l.cells[task]? = some x :=
    ⟨_, Array.getElem?_eq_getElem (same ▸ keeps.awaited)⟩
  have holds := keeps.cells task _ there
  obtain ⟨t, rfl⟩ : ∃ t, role = .task t := holds.awaited same
  cases result with
  | none => exact .inr (by simpa [Loop.frames, there] using (holds.frames other t rfl).2 same rfl)
  | some r => exact .inl (known (by simp [← same, isDone, result?, there]))

theorem Loop.Keeps.spares_resolve {v : Vigil α} {l : Loop α (Value α) (Frame α)} (keeps : l.Keeps v) :
    v.Spares (.resolve l.cells.size) := ⟨Nat.ne_of_gt keeps.waiter, Nat.ne_of_gt keeps.awaited⟩

theorem Loop.await_alone {l : Loop α (Value α) (Frame α)} {t : Task (Frame α)}
    (cells : l.cells = #[⟨none, [], .task t⟩]) (queued : l.queued = #[]) (inner frames : List (Frame α)) :
    (l.newTask inner).2.await 0 frames 1 = { l with
      cells := #[⟨none, [], .task ⟨frames, some 1, t.mustCancel⟩⟩, ⟨none, [.wake 0 1], .task ⟨inner, none, false⟩⟩]
      queued := #[.step 1]
      active := none } := by
  simp [await, suspend, newTask, newCell, callSoon, setTask, onDone, result?, isDone, cells, queued]

/-- A task that is alone waits for a run that it has started. -/
theorem Loop.rests_alone {F : Fault → Prop} {l : Loop α (Value α) (Frame α)} {t : Task (Frame α)}
    (cells : l.cells = #[⟨none, [], .task t⟩]) (queued : l.queued = #[]) (round : l.round = [])
    (timers : l.timers = []) (part run : Nat) (frames : List (Frame α)) :
    ((l.newTask [.run part run]).2.await 0 frames 1).Rests ⟨0, 1, by decide, frames, F, false⟩ := by
  rw [await_alone cells queued]
  refine ⟨⟨by simp, by simp, fun c x there => ?_, ?_, by simp [timers], by simp⟩, by simp⟩
  · match c with
    | 0 =>
      obtain rfl : _ = x := by simpa using there
      exact ⟨fun _ => ⟨rfl, _, rfl, rfl⟩, by simp, by simp, by simp, by simp⟩
    | 1 =>
      obtain rfl : _ = x := by simpa using there
      refine ⟨by simp, fun _ => ⟨_, rfl⟩, by simp, ?_, ?_⟩
      · rintro - u ⟨⟩
        exact ⟨by simp [Frame.isInner], fun _ _ => ⟨_, rfl, rfl⟩⟩
      · simp [Vigil.Spares]
    | k + 2 => simp at there
  · simp [round, Vigil.Spares, Vigil.Wakes]

end Partita
