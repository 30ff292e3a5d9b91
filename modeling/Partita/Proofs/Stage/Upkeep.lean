import Partita.Proofs.Stage.Orderly
import Partita.Proofs.Stage.Vigil

/-! The upkeep of a loop. Each operation keeps it orderly, and leaves all tasks where they are but
the one that takes its turn. -/
namespace Partita.Loop

variable {α ν φ : Type} {moved : Nat → Prop} {P : List φ → Prop} {l k m : Loop α ν φ}

theorem frames_of_kind {c : Nat} {kind : Kind} (there : l.kind? c = some kind) (other : kind ≠ .task) :
    l.frames c = [] := by
  obtain ⟨⟨result, callbacks, role⟩, found, same⟩ := cell_of_kind there
  rw [frames_eq, found]
  cases role with
  | task t => exact absurd same.symm other
  | _ => rfl

theorem kind_of_frames {c : Nat} {frame : φ} {rest : List φ} (calls : l.frames c = frame :: rest) :
    l.kind? c = some .task := by
  have inside := lt_size_of_frames calls
  cases kind : l.kind? c with
  | none => exact absurd inside (Nat.not_lt.mpr (kind?_eq_none.mp kind))
  | some kind' =>
    by_cases same : kind' = .task
    · rw [same]
    · cases (frames_of_kind kind same).symm.trans calls

/-- A later state of a loop in which all tasks are as they were, but for some; and new ones are in
calls of a kind. -/
structure Remains (moved : Nat → Prop) (P : List φ → Prop) (l k : Loop α ν φ) : Prop where
  kinds : ∀ c kind, l.kind? c = some kind → k.kind? c = some kind
  results : ∀ c r, l.result? c = some r → k.result? c = some r
  tasks : ∀ c, l.kind? c = some .task → ¬ moved c →
    k.result? c = l.result? c ∧ k.frames c = l.frames c ∧ k.awaits? c = l.awaits? c
  fresh : ∀ c, l.kind? c = none → ¬ moved c → k.frames c = [] ∨ P (k.frames c)
  active : k.active = l.active ∨ (∃ c, moved c) ∧ ∀ c r, k.active = some (c, r) → moved c

namespace Remains

theorem of_cells (cells : k.cells = l.cells)
    (active : k.active = l.active ∨ (∃ c, moved c) ∧ ∀ c r, k.active = some (c, r) → moved c) :
    l.Remains moved P k where
  kinds c kind there := by rwa [kind?, cells]
  results c r there := by rwa [result?, cells]
  tasks c _ _ := by simp [result?, frames_eq, awaits?, cells]
  fresh c missing _ := .inl (by rw [frames_eq, cells, ← frames_eq, frames_of_missing (kind?_eq_none.mp missing)])
  active := active

theorem refl (l : Loop α ν φ) : l.Remains moved P l := .of_cells rfl (.inl rfl)

theorem trans (first : l.Remains moved P k) (second : k.Remains moved P m) : l.Remains moved P m where
  kinds c kind there := second.kinds c kind (first.kinds c kind there)
  results c r there := second.results c r (first.results c r there)
  tasks c there still := by
    obtain ⟨result, frames, awaits⟩ := first.tasks c there still
    obtain ⟨result', frames', awaits'⟩ := second.tasks c (first.kinds c _ there) still
    exact ⟨result'.trans result, frames'.trans frames, awaits'.trans awaits⟩
  fresh c missing still := by
    cases there : k.kind? c with
    | none => exact second.fresh c there still
    | some kind =>
      by_cases task : kind = .task
      · subst task
        rw [(second.tasks c there still).2.1]
        exact first.fresh c missing still
      · exact .inl (frames_of_kind (second.kinds c kind there) task)
  active := by
    rcases second.active with same | turned
    · rw [same]
      exact first.active
    · exact .inr turned

theorem mono {moved' : Nat → Prop} {P' : List φ → Prop} (remains : l.Remains moved P k)
    (wider : ∀ c, moved c → moved' c) (more : ∀ frames, P frames → P' frames) : l.Remains moved' P' k where
  kinds := remains.kinds
  results := remains.results
  tasks c there still := remains.tasks c there fun own => still (wider c own)
  fresh c missing still := (remains.fresh c missing fun own => still (wider c own)).imp_right (more _)
  active := remains.active.imp_right fun ⟨turns, turned⟩ =>
    ⟨turns.imp wider, fun c r same => wider c (turned c r same)⟩

/-- One cell has been replaced. -/
theorem of_replaces {c : Nat} {x y : Cell ν φ} (replaces : l.Replaces c x y k) (kind : y.role.kind = x.role.kind)
    (result : ∀ r, x.result = some r → y.result = some r)
    (task : x.role.kind = .task → moved c ∨ y.result = x.result ∧ y.frames = x.frames ∧ y.awaits? = x.awaits?)
    (active : k.active = l.active ∨ (∃ c, moved c) ∧ ∀ c r, k.active = some (c, r) → moved c) :
    l.Remains moved P k where
  kinds d kind' there := (replaces.kind? kind d).trans there
  results d r there := by
    by_cases own : d = c
    · subst own
      exact replaces.result?_own.trans (result r (replaces.result?_old.symm.trans there))
    · exact (replaces.result?_other own).trans there
  tasks d there still := by
    by_cases own : d = c
    · subst own
      have here : x.role.kind = .task := by
        rw [kind?, replaces.found] at there
        exact Option.some.inj there
      obtain ⟨result, frames, awaits⟩ := (task here).resolve_left still
      exact ⟨replaces.result? result d, replaces.frames frames d, replaces.awaits? awaits d⟩
    · simp [result?, frames_eq, awaits?, replaces.others d own]
  fresh d missing _ := by
    have missing := Array.getElem?_eq_none (kind?_eq_none.mp missing)
    have own : d ≠ c := by
      rintro rfl
      cases missing.symm.trans replaces.found
    exact .inl (by rw [frames_eq, replaces.others d own, missing]; rfl)
  active := active

/-- A call of a task that has not moved was made before, or the task is new. -/
theorem mem_frames (remains : l.Remains moved P k) {c : Nat} (still : ¬ moved c) {f : φ} (member : f ∈ k.frames c) :
    f ∈ l.frames c ∨ l.kind? c = none ∧ P (k.frames c) := by
  cases kind : l.kind? c with
  | none =>
    rcases remains.fresh c kind still with bare | runs
    · rw [bare] at member
      cases member
    · exact .inr ⟨rfl, runs⟩
  | some kind' =>
    by_cases task : kind' = .task
    · subst task
      exact .inl ((remains.tasks c kind still).2.1 ▸ member)
    · rw [frames_of_kind (remains.kinds c kind' kind) task] at member
      cases member

end Remains

/-- A later state of a loop that is orderly, in which all tasks are as they were, but for some. -/
structure Passes (moved : Nat → Prop) (P : List φ → Prop) (l k : Loop α ν φ) : Prop extends l.Remains moved P k where
  orderly : k.Orderly

namespace Passes

theorem refl (orderly : l.Orderly) : l.Passes moved P l := ⟨.refl l, orderly⟩

theorem trans (first : l.Passes moved P k) (second : k.Passes moved P m) : l.Passes moved P m :=
  ⟨first.toRemains.trans second.toRemains, second.orderly⟩

theorem mono {moved' : Nat → Prop} {P' : List φ → Prop} (passes : l.Passes moved P k)
    (wider : ∀ c, moved c → moved' c) (more : ∀ frames, P frames → P' frames) : l.Passes moved' P' k :=
  ⟨passes.toRemains.mono wider more, passes.orderly⟩

/-- Where no task has moved the same one takes its turn. -/
theorem still (passes : l.Passes (fun _ => False) P k) : k.active = l.active :=
  passes.active.resolve_right fun ⟨⟨_, never⟩, _⟩ => never

end Passes

section upkeep

variable (orderly : l.Orderly)
include orderly

/-- The cells are as they were, and no callback is in store but those that were and such as give a
cell of its own its result. -/
theorem passes_of_cells (cells : k.cells = l.cells) (pending : ∀ cb ∈ k.pending, cb ∈ l.pending ∨ l.Resolves cb)
    (count : ∀ cb, (∀ c, cb ≠ .resolve c) → k.pending.count cb ≤ l.pending.count cb)
    (timers : ∀ t ∈ k.timers, t ∈ l.timers ∨ l.Resolves t.callback) (active : k.active = l.active) :
    l.Passes moved P k := by
  have kinds (c : Nat) : k.kind? c = l.kind? c := by rw [kind?, kind?, cells]
  have held (c : Nat) : k.held c = l.held c := by rw [held, held, cells]
  have load (cb : Callback) (other : ∀ c, cb ≠ .resolve c) : k.load cb ≤ l.load cb := by
    rw [load, load, held]
    exact Nat.add_le_add_right (count cb other) _
  refine ⟨.of_cells cells (.inl active), ?_⟩
  refine orderly.vary (fun c _ there => (kinds c).trans there) (fun c => by rw [result?, result?, cells])
    (fun c => by rw [awaits?, awaits?, cells]) (fun g members finished tally => .inl ⟨?_, fun m => ?_⟩)
    (fun cb member => (pending cb member).imp_right ?_) (fun c cb member => .inl (held c ▸ member))
    (fun t => .inl (load _ (by simp))) (fun t c => .inl (load _ (by simp)))
    (fun t member => (timers t member).imp_right ?_) active
  · rwa [tally?, cells] at tally
  · exact load _ (by simp)
  · rintro ⟨c, rfl, plain⟩
    exact (kinds c).trans plain
  · rintro ⟨c, same, plain⟩
    exact ⟨c, same, (kinds c).trans plain⟩

theorem callSoon_resolve_passes {c : Nat} (plain : l.kind? c = some .plain) :
    l.Passes moved P (l.callSoon (.resolve c)) := by
  have pending : (l.callSoon (.resolve c)).pending = l.pending ++ [.resolve c] := by simp [pending, callSoon]
  refine passes_of_cells orderly rfl (fun cb member => ?_) (fun cb other => ?_) (fun _ => .inl) rfl
  · rw [pending] at member
    rcases List.mem_append.mp member with old | new
    · exact .inl old
    · exact .inr ⟨c, List.mem_singleton.mp new, plain⟩
  · rw [pending, List.count_append, List.count_singleton]
    simp [Ne.symm (other c)]

theorem callLater_passes [Scalar α] (delay : α) {c : Nat} (plain : l.kind? c = some .plain) :
    l.Passes moved P (l.callLater delay (.resolve c)).2 := by
  refine passes_of_cells orderly rfl (fun _ => .inl) (fun _ _ => Nat.le_refl _) (fun t member => ?_) rfl
  rcases mem_insertTimer member with rfl | old
  · exact .inr ⟨c, rfl, plain⟩
  · exact .inl old

theorem cancelTimer_passes (id : Nat) : l.Passes moved P (l.cancelTimer id) :=
  passes_of_cells orderly rfl (fun _ => .inl) (fun _ _ => Nat.le_refl _)
    (fun _ member => .inl (List.mem_filter.mp member).1) rfl

theorem nextRound?_passes [Scalar α] (drained : l.round = []) (begun : l.nextRound? = some k) : l.Passes moved P k := by
  obtain ⟨time, -, rfl⟩ := Option.map_eq_some_iff.mp begun
  have resolves (cb : Callback) (timed : cb ∈ (l.timers.takeWhile (·.due < time + l.resolution)).map (·.callback)) :
      l.Resolves cb := by
    obtain ⟨t, member, rfl⟩ := List.mem_map.mp timed
    exact orderly.timers t ((List.takeWhile_prefix _).subset member)
  refine passes_of_cells orderly rfl (fun cb member => ?_) (fun cb other => ?_)
    (fun t member => .inl ((List.dropWhile_suffix _).subset member)) rfl
  · simp only [pending, List.append_nil] at member
    rcases List.mem_append.mp member with old | timed
    · exact .inl (List.mem_append_right _ old)
    · exact .inr (resolves cb timed)
  · have none : ((l.timers.takeWhile (·.due < time + l.resolution)).map (·.callback)).count cb = 0 := by
      refine List.count_eq_zero.mpr fun timed => ?_
      obtain ⟨c, rfl, -⟩ := resolves cb timed
      exact other c rfl
    simp only [pending, List.append_nil, List.count_append, none, drained, List.count_nil]
    omega

/-- The first callback of a round is taken. -/
theorem begin_passes {cb : Callback} {rest : List Callback} (next : l.round = cb :: rest) :
    l.Passes moved P { l with round := rest } := by
  refine passes_of_cells orderly rfl (fun d member => ?_) (fun d _ => ?_) (fun _ => .inl) rfl
  · refine .inl ?_
    simp only [pending, next, List.cons_append]
    exact List.mem_cons_of_mem cb member
  · simp only [pending, next, List.cons_append, List.count_cons]
    omega

/-- A cell is changed, but for its result, and callbacks may be added to it or dropped from it. -/
theorem modify_passes {c : Nat} {f : Cell ν φ → Cell ν φ} (kind : ∀ x, (f x).role.kind = x.role.kind)
    (tally : ∀ x, (f x).role.tally? = x.role.tally?) (frames : ∀ x, (f x).frames = x.frames)
    (awaits : ∀ x, (f x).awaits? = x.awaits?) (result : ∀ x, (f x).result = x.result)
    (callbacks : ∀ x, ∀ cb ∈ (f x).callbacks, cb ∈ x.callbacks ∨ l.result? c = none ∧ l.Resolves cb)
    (count : ∀ x cb, (∀ d, cb ≠ .resolve d) → (f x).callbacks.count cb ≤ x.callbacks.count cb) :
    l.Passes moved P { l with cells := l.cells.modify c f } := by
  cases found : l.cells[c]? with
  | none =>
    have same : l.cells.modify c f = l.cells := by
      apply Array.ext_getElem?
      intro d
      rw [Array.getElem?_modify]
      split
      · rename_i own
        rw [← own, found]
        rfl
      · rfl
    exact passes_of_cells orderly same (fun _ => .inl) (fun _ _ => Nat.le_refl _) (fun _ => .inl) rfl
  | some x =>
    have replaces : l.Replaces c x (f x) { l with cells := l.cells.modify c f } := .of_modify found rfl
    have kinds := replaces.kind? (kind x)
    have load (cb : Callback) (other : ∀ d, cb ≠ .resolve d) :
        Loop.load { l with cells := l.cells.modify c f } cb ≤ l.load cb := by
      refine Nat.add_le_add_left ?_ _
      by_cases own : cb.home = c
      · rw [own, replaces.held_own, replaces.held_old]
        exact count x cb other
      · exact Nat.le_of_eq (by rw [replaces.held_other own])
    refine ⟨.of_replaces replaces (kind x) (fun r ended => (result x).trans ended)
      (fun _ => .inr ⟨result x, frames x, awaits x⟩) (.inl rfl), ?_⟩
    refine orderly.vary (fun d _ there => (kinds d).trans there) (replaces.result? (result x))
      (replaces.awaits? (awaits x)) (fun g members finished told => .inl ⟨?_, fun m => load _ (by simp)⟩)
      (fun cb member => .inl member) (fun d cb member => ?_)
      (fun t => .inl (load _ (by simp))) (fun t c => .inl (load _ (by simp))) (fun t member => .inl member) rfl
    · rwa [replaces.tally? (tally x)] at told
    · by_cases own : d = c
      · subst own
        rw [replaces.held_own] at member
        rw [replaces.held_old]
        refine (callbacks x cb member).imp_right fun ⟨waits, e, same, plain⟩ => ⟨waits, ?_⟩
        subst same
        exact (kinds e).trans plain
      · exact .inl (replaces.held_other own ▸ member)

theorem onDone_resolve_passes (c : Nat) {d : Nat} (plain : l.kind? d = some .plain) :
    l.Passes moved P (l.onDone c (.resolve d)) := by
  unfold onDone
  split
  · exact callSoon_resolve_passes orderly plain
  · rename_i waits
    have none : l.result? c = none := by simpa [isDone] using waits
    refine modify_passes orderly (fun _ => rfl) (fun _ => rfl) (fun _ => rfl) (fun _ => rfl) (fun _ => rfl)
      (fun x cb member => ?_) fun x cb other => ?_
    · rcases List.mem_append.mp member with old | new
      · exact .inl old
      · exact .inr ⟨none, d, List.mem_singleton.mp new, plain⟩
    · simp [Ne.symm (other d)]

theorem forget_passes (c : Nat) (cb : Callback) : l.Passes moved P (l.forget c cb) :=
  modify_passes orderly (fun _ => rfl) (fun _ => rfl) (fun _ => rfl) (fun _ => rfl) (fun _ => rfl)
    (fun _ _ member => .inl (List.mem_filter.mp member).1)
    fun _ _ _ => List.Sublist.count_le _ List.filter_sublist

/-- A task is changed, but not in its calls or in what it awaits. -/
theorem setTask_passes (c : Nat) {f : Task φ → Task φ} (frames : ∀ t, (f t).frames = t.frames)
    (awaits : ∀ t, (f t).awaiting = t.awaiting) : l.Passes moved P (l.setTask c f) := by
  refine modify_passes orderly (fun x => ?_) (fun x => ?_) (fun x => ?_) (fun x => ?_) (fun x => ?_)
    (fun x cb member => .inl ?_) fun x cb _ => ?_
  all_goals
    obtain ⟨result, callbacks, role⟩ := x
    cases role
  all_goals first | rfl | exact frames _ | exact awaits _ | exact Nat.le_refl _ | exact member

/-- A cell that is no task comes to a result that it may come to. -/
theorem finish_passes {c : Nat} {callbacks : List Callback} {role : Role φ}
    (found : l.cells[c]? = some ⟨none, callbacks, role⟩) (role' : Role φ) (kind : role'.kind = role.kind)
    (notask : role.kind ≠ .task) {r : Reply ν} (settles : ∀ members, role.kind = .group members → l.Settles members r) :
    l.Passes moved P { l with
      cells := l.cells.set! c ⟨some r, [], role'⟩
      queued := l.queued ++ callbacks.toArray } := by
  have replaces : l.Replaces c ⟨none, callbacks, role⟩ ⟨some r, [], role'⟩ { l with
      cells := l.cells.set! c ⟨some r, [], role'⟩
      queued := l.queued ++ callbacks.toArray } := .of_set found rfl
  have idle : Cell.awaits? (ν := ν) ⟨some r, [], role'⟩ = Cell.awaits? (ν := ν) ⟨none, callbacks, role⟩ := by
    rw [Cell.awaits?_of_kind (kind ▸ notask), Cell.awaits?_of_kind notask]
  refine ⟨.of_replaces replaces kind (by simp) (fun task => absurd task notask) (.inl rfl), ?_⟩
  refine orderly.finish replaces kind idle settles (by simp [pending]) rfl fun t s same => ⟨same, ?_⟩
  rintro rfl
  have task := (orderly.active t s same).1
  rw [kind?, found] at task
  exact notask (Option.some.inj task)

/-- A cell of its own comes to a result. -/
theorem complete_passes {c : Nat} (plain : l.kind? c = some .plain) (r : Reply ν) :
    l.Passes moved P (l.complete c r) := by
  unfold Loop.complete
  split
  · rename_i callbacks role found
    have kind : role.kind = .plain := by
      rw [kind?, found] at plain
      exact Option.some.inj plain
    exact finish_passes orderly found role rfl (by simp [kind]) fun members group => by cases kind.symm.trans group
  · exact .refl orderly

section newCell

variable (l) (role : Role φ)

omit orderly

theorem newCell_cells {c : Nat} (old : c ≠ l.cells.size) : (l.newCell role).2.cells[c]? = l.cells[c]? := by
  simp [newCell, Array.getElem?_push, old]

theorem newCell_cell : (l.newCell role).2.cells[l.cells.size]? = some ⟨none, [], role⟩ := by simp [newCell]

theorem newCell_kind : (l.newCell role).2.kind? l.cells.size = some role.kind := by
  rw [kind?, newCell_cell]
  rfl

theorem newCell_kinds (c : Nat) (kind : Kind) (there : l.kind? c = some kind) :
    (l.newCell role).2.kind? c = some kind := by
  have old : c ≠ l.cells.size := by
    rintro rfl
    rw [kind?_eq_none.mpr (Nat.le_refl _)] at there
    cases there
  rwa [kind?, newCell_cells l role old]

theorem newCell_held (c : Nat) : (l.newCell role).2.held c = l.held c := by
  by_cases own : c = l.cells.size
  · subst own
    rw [held, newCell_cell, held, Array.getElem?_eq_none (Nat.le_refl _)]
    rfl
  · rw [held, newCell_cells l role own, held]

theorem newCell_result? (c : Nat) : (l.newCell role).2.result? c = l.result? c := by
  by_cases own : c = l.cells.size
  · subst own
    rw [result?, newCell_cell, result?, Array.getElem?_eq_none (Nat.le_refl _)]
    rfl
  · rw [result?, newCell_cells l role own, result?]

end newCell

omit orderly in
theorem member_load (orderly : l.Orderly) {g : Nat} (missing : l.kind? g = none) (m : Nat) :
    l.load (.member g m) = 0 := by
  refine Nat.add_eq_zero_iff.mpr ⟨List.count_eq_zero.mpr fun member => ?_, List.count_eq_zero.mpr fun member => ?_⟩
  · obtain ⟨kind, there⟩ := (orderly.pending _ member).1
    cases missing.symm.trans there
  · obtain ⟨kind, there⟩ := (orderly.held _ _ member).2.1
    cases missing.symm.trans there

/-- A cell is made in which nothing is awaited and of whose members none has told of its end. -/
theorem newCell_passes {role : Role φ} (idle : Cell.awaits? (ν := ν) ⟨none, [], role⟩ = none)
    (untold : ∀ members finished, role.tally? = some (members, finished) → finished = 0)
    (frames : Cell.frames (ν := ν) ⟨none, [], role⟩ = [] ∨ P (Cell.frames (ν := ν) ⟨none, [], role⟩)) :
    l.Passes moved P (l.newCell role).2 := by
  have missing : l.kind? l.cells.size = none := kind?_eq_none.mpr (Nat.le_refl _)
  have load (cb : Callback) : (l.newCell role).2.load cb = l.load cb := by rw [load, load, newCell_held]; rfl
  have awaits (c : Nat) : (l.newCell role).2.awaits? c = l.awaits? c := by
    rw [newCell_awaits?]
    split
    · rename_i own
      rw [idle, own, Loop.awaits?, Array.getElem?_eq_none (Nat.le_refl _)]
      rfl
    · rfl
  refine ⟨⟨newCell_kinds l role, fun c r done => (newCell_result? l role c).trans done, fun c there _ => ?_,
    fun c _ _ => ?_, .inl rfl⟩, ?_⟩
  · refine ⟨newCell_result? l role c, ?_, awaits c⟩
    rw [newCell_frames, if_neg]
    rintro rfl
    cases missing.symm.trans there
  · rw [newCell_frames]
    split
    · exact frames
    · rename_i old
      refine .inl (frames_of_missing ?_)
      rename_i absent _
      exact kind?_eq_none.mp absent
  · refine orderly.vary (newCell_kinds l role) (newCell_result? l role) awaits (fun g members finished tally => ?_)
      (fun cb member => .inl member) (fun c cb member => .inl (newCell_held l role c ▸ member))
      (fun t => .inl (Nat.le_of_eq (load _))) (fun t c => .inl (Nat.le_of_eq (load _))) (fun t member => .inl member) rfl
    by_cases own : g = l.cells.size
    · subst own
      rw [tally?, newCell_cell] at tally
      obtain rfl := untold members finished tally
      refine .inr ?_
      rw [Tallies, newCell_result?, result?, Array.getElem?_eq_none (Nat.le_refl _)]
      exact ⟨[], rfl, by simp, fun m => by simp [load, member_load orderly missing m]⟩
    · rw [tally?, newCell_cells l role own] at tally
      exact .inl ⟨tally, fun m => Nat.le_of_eq (load _)⟩

theorem newPlain_passes : l.Passes moved P (l.newCell .plain).2 :=
  newCell_passes orderly rfl (by simp [Role.tally?]) (.inl rfl)

section onDone

variable (l) (c : Nat) (cb : Callback)

omit orderly

theorem onDone_cells : (l.onDone c cb).cells = l.cells ∨ (l.onDone c cb).cells = l.cells.modify c fun x =>
    { x with callbacks := x.callbacks ++ [cb] } := by
  unfold onDone
  split
  · exact .inl rfl
  · exact .inr rfl

theorem onDone_bind {β : Type} {g : Cell ν φ → Option β} (same : ∀ x callbacks, g { x with callbacks } = g x)
    (d : Nat) : (l.onDone c cb).cells[d]?.bind g = l.cells[d]?.bind g := by
  rcases onDone_cells l c cb with cells | cells
  · rw [cells]
  · rw [cells, Array.getElem?_modify]
    split
    · cases l.cells[d]? with
      | none => rfl
      | some x => exact same x _
    · rfl

theorem kind?_eq_bind (d : Nat) : l.kind? d = l.cells[d]?.bind fun x => some x.role.kind := Option.map_eq_bind ..

theorem onDone_kind? (d : Nat) : (l.onDone c cb).kind? d = l.kind? d := by
  rw [kind?_eq_bind, kind?_eq_bind, onDone_bind l c cb (fun _ _ => rfl)]

theorem onDone_tally? (d : Nat) : (l.onDone c cb).tally? d = l.tally? d := onDone_bind l c cb (fun _ _ => rfl) d

theorem onDone_awaits? (d : Nat) : (l.onDone c cb).awaits? d = l.awaits? d := onDone_bind l c cb (fun _ _ => rfl) d

theorem onDone_active : (l.onDone c cb).active = l.active := by
  unfold onDone
  split <;> rfl

theorem onDone_timers : (l.onDone c cb).timers = l.timers := by
  unfold onDone
  split <;> rfl

theorem onDone_pending {d : Callback} (member : d ∈ (l.onDone c cb).pending) :
    d ∈ l.pending ∨ d = cb ∧ l.isDone c = true := by
  unfold onDone at member
  split at member
  · rename_i done
    rcases List.mem_append.mp member with old | new
    · exact .inl (List.mem_append_left _ old)
    · rcases Array.mem_push.mp (Array.mem_toList_iff.mp new) with old | rfl
      · exact .inl (List.mem_append_right _ (Array.mem_toList_iff.mpr old))
      · exact .inr ⟨rfl, done⟩
  · exact .inl member

theorem onDone_held {e : Nat} {d : Callback} (member : d ∈ (l.onDone c cb).held e) :
    d ∈ l.held e ∨ e = c ∧ d = cb ∧ l.result? c = none := by
  unfold onDone at member
  split at member
  · exact .inl member
  · rename_i waits
    have waits : l.result? c = none := by simpa [isDone] using waits
    simp only [held, Array.getElem?_modify] at member ⊢
    split at member
    · rename_i own
      subst own
      cases found : l.cells[c]? with
      | none => simp [found] at member
      | some x =>
        simp only [found, Option.map_some, Option.getD_some, List.mem_append, List.mem_singleton] at member ⊢
        exact member.imp_right fun same => ⟨trivial, same, waits⟩
    · exact .inl member

theorem onDone_load (home : cb.home = c) (d : Callback) :
    (l.onDone c cb).load d ≤ l.load d + [cb].count d := by
  subst home
  unfold onDone
  split
  · have pending : (l.callSoon cb).pending = l.pending ++ [cb] := by simp [pending, callSoon]
    rw [load, load, pending, List.count_append]
    exact Nat.le_of_eq (Nat.add_right_comm ..)
  · rw [load, load, Nat.add_assoc]
    refine Nat.add_le_add_left ?_ _
    simp only [held, Array.getElem?_modify]
    split
    · cases l.cells[d.home]? with
      | none => simp
      | some x => simp [List.count_append]
    · exact Nat.le_add_right _ _

end onDone

/-- A callback is added that waits for a cell. -/
theorem onDone_passes {c : Nat} {cb : Callback} (home : cb.home = c) (due : l.isDone c = true → l.Due cb)
    (awaited : l.result? c = none → l.Awaited c cb)
    (alone : (∃ t, cb = .step t ∨ ∃ d, cb = .wake t d) → l.load cb = 0)
    (groups : ∀ g m members finished, cb = .member g m → l.tally? g = some (members, finished) →
      (l.onDone c cb).Tallies g members finished) : l.Passes moved P (l.onDone c cb) := by
  have kinds (d : Nat) (kind : Kind) (there : l.kind? d = some kind) := (onDone_kind? l c cb d).trans there
  have results := result?_onDone l c cb
  have awaits := onDone_awaits? l c cb
  have done (d : Nat) (ended : l.isDone d = true) : (l.onDone c cb).isDone d = true := by rwa [isDone, results]
  have load := onDone_load l c cb home
  have turn (d : Callback) (turns : ∃ t, d = .step t ∨ ∃ e, d = .wake t e) :
      (l.onDone c cb).load d ≤ l.load d ∨ (l.onDone c cb).load d ≤ 1 := by
    have less := load d
    rw [List.count_singleton] at less
    split at less
    · rename_i same
      rw [beq_iff_eq] at same
      subst same
      rw [alone turns] at less
      exact .inr less
    · exact .inl less
  have active := onDone_active l c cb
  refine ⟨⟨kinds, fun d r there => (results d).trans there, fun d there _ =>
    ⟨results d, (onDone_stays l c cb).frames d, awaits d⟩, fun d missing _ => .inl ?_, .inl active⟩, ?_⟩
  · rw [(onDone_stays l c cb).frames, frames_of_missing (kind?_eq_none.mp missing)]
  · refine orderly.vary kinds results awaits (fun g members finished tally => ?_) (fun d member => ?_)
      (fun e d member => ?_) (fun t => turn _ ⟨t, .inl rfl⟩) (fun t d => turn _ ⟨t, .inr ⟨d, rfl⟩⟩)
      (fun t member => .inl (by rwa [onDone_timers] at member)) active
    · rw [onDone_tally?] at tally
      by_cases own : ∃ m, cb = .member g m
      · obtain ⟨m, same⟩ := own
        exact .inr (groups g m members finished same tally)
      · refine .inl ⟨tally, fun m => ?_⟩
        have less := load (.member g m)
        rwa [List.count_singleton, if_neg] at less
        intro same
        exact own ⟨m, beq_iff_eq.mp same⟩
    · refine (onDone_pending l c cb member).imp_right fun added => ?_
      obtain ⟨same, ended⟩ := added
      subst same
      exact (due ended).mono kinds done awaits fun t r same => ⟨r, active ▸ same⟩
    · refine (onDone_held l c cb member).imp_right fun added => ?_
      obtain ⟨own, same, waits⟩ := added
      subst own same
      exact ⟨waits, (awaited waits).mono kinds awaits⟩

/-- A task for which nothing is in store is to take its next step. -/
theorem callSoon_step_passes {t : Nat} (due : l.Due (.step t)) (free : l.Free t) :
    l.Passes moved P (l.callSoon (.step t)) := by
  have pending : (l.callSoon (.step t)).pending = l.pending ++ [.step t] := by simp [pending, callSoon]
  have load (cb : Callback) : (l.callSoon (.step t)).load cb = l.load cb + [Callback.step t].count cb := by
    rw [load, load, pending, List.count_append, Nat.add_right_comm]
    rfl
  have other {cb : Callback} (other : .step t ≠ cb) : (l.callSoon (.step t)).load cb ≤ l.load cb := by
    rw [load, List.count_singleton, if_neg (by simpa using other)]
    exact Nat.le_refl _
  refine ⟨.of_cells rfl (.inl rfl), ?_⟩
  refine orderly.vary (fun _ _ => id) (fun _ => rfl) (fun _ => rfl)
    (fun g members finished tally => .inl ⟨tally, fun m => other (by simp)⟩) (fun cb member => ?_)
    (fun c cb member => .inl member) (fun u => ?_) (fun u c => .inl (other (by simp))) (fun _ => .inl) rfl
  · rw [pending] at member
    rcases List.mem_append.mp member with old | new
    · exact .inl old
    · exact .inr (List.mem_singleton.mp new ▸ due)
  · by_cases own : u = t
    · subst own
      refine .inr ?_
      have unheld : Callback.step u ∉ l.held (Callback.step u).home := fun member => (orderly.held _ _ member).2
      rw [load, Loop.load, List.count_eq_zero.mpr free.step, List.count_eq_zero.mpr unheld]
      simp
    · exact .inl (other (by simpa using Ne.symm own))

/-- Nothing is in store for a task that is not there. -/
theorem free_of_missing {t : Nat} (missing : l.kind? t = none) : l.Free t := by
  refine ⟨fun member => ?_, fun c member => ?_, fun c d member => ?_⟩
  · cases missing.symm.trans (orderly.pending _ member).1
  · cases missing.symm.trans (kind?_of_awaits (orderly.pending _ member).1)
  · cases missing.symm.trans (kind?_of_awaits (orderly.held c _ member).2.2)

theorem newTask_passes {frames : List φ} (first : P frames) : l.Passes moved P (l.newTask frames).2 := by
  have missing : l.kind? l.cells.size = none := kind?_eq_none.mpr (Nat.le_refl _)
  have made : l.Passes moved P (l.newCell (.task ⟨frames, none, false⟩)).2 :=
    newCell_passes orderly rfl (by simp [Role.tally?]) (.inr first)
  have free := free_of_missing orderly missing
  refine made.trans (callSoon_step_passes made.orderly ⟨newCell_kind l _, ?_, fun r active => ?_⟩ ⟨free.step, free.wake,
    fun c d member => free.held c d (newCell_held l _ c ▸ member)⟩)
  · rw [newCell_awaits?, if_pos rfl]
    rfl
  · cases missing.symm.trans (orderly.active _ r active).1

/-- A group is made, and hears of its members. -/
theorem newGroup_passes (members : List Nat) : l.Passes moved P (l.newGroup members).2 ∧
    (l.newGroup members).2.kind? l.cells.size = some (.group members) := by
  have missing : l.kind? l.cells.size = none := kind?_eq_none.mpr (Nat.le_refl _)
  have made : l.Passes moved P (l.newCell (.group members 0 false)).2 :=
    newCell_passes orderly rfl (by simp [Role.tally?]) (.inl rfl)
  -- The group has yet to hear of as many members as are left.
  have told (rest : List Nat) (k : Loop α ν φ) (orderly : k.Orderly)
      (tally : k.tally? l.cells.size = some (members, 0)) (waits : k.result? l.cells.size = none)
      (room : ∀ m, k.load (.member l.cells.size m) + rest.count m ≤ members.count m) :
      k.Passes moved P (rest.foldl (fun k m => k.onDone m (.member l.cells.size m)) k) := by
    induction rest generalizing k with
    | nil => exact .refl orderly
    | cons m rest ih =>
      have load := onDone_load k m (.member l.cells.size m) rfl
      have left (d : Nat) : (k.onDone m (.member l.cells.size m)).load (.member l.cells.size d) + rest.count d ≤
          members.count d := by
        have less := load (.member l.cells.size d)
        have most := room d
        rw [List.count_cons] at most
        simp only [List.count_singleton, beq_iff_eq, Callback.member.injEq, true_and] at less most
        omega
      have there : ∃ kind, k.kind? l.cells.size = some kind := ⟨_, kind?_of_tally tally⟩
      have passes : k.Passes moved P (k.onDone m (.member l.cells.size m)) := by
        refine onDone_passes orderly rfl (fun done => ⟨there, done⟩) (fun _ => ⟨there, rfl⟩) (by simp) ?_
        rintro g d group finished ⟨⟩ counts
        cases tally.symm.trans counts
        rw [Tallies, result?_onDone, waits]
        refine ⟨[], rfl, by simp, fun d => ?_⟩
        have enough := left d
        simp only [List.count_nil, Nat.zero_add]
        omega
      exact passes.trans (ih _ passes.orderly ((onDone_tally? ..).trans tally) ((result?_onDone ..).trans waits) left)
  have passes := told members _ made.orderly (by rw [tally?, newCell_cell]; rfl) (by rw [result?, newCell_cell]; rfl)
    fun m => by
      have none : (l.newCell (.group members 0 false)).2.load (.member l.cells.size m) = 0 := by
        rw [load, newCell_held]
        exact member_load orderly missing m
      exact Nat.le_of_eq (by rw [none, Nat.zero_add])
  exact ⟨made.trans passes, passes.kinds _ _ (newCell_kind l _)⟩

omit orderly in
theorem newGroup_result? (members : List Nat) : (l.newGroup members).2.result? l.cells.size = none :=
  List.foldlRecOn members _ (motive := fun k : Loop α ν φ => k.result? l.cells.size = none)
    (by simp [result?]) fun k waits m _ => (result?_onDone k m _ _).trans waits

/-- A request to end leaves all tasks where they are. -/
theorem cancelWithin_passes (depth cell : Nat) : l.Passes moved P (l.cancelWithin depth cell).1 := by
  induction depth generalizing l cell with
  | zero => exact .refl orderly
  | succ depth ih =>
    have asked {k : Loop α ν φ} (orderly : k.Orderly) :
        k.Passes moved P (k.setTask cell ({ · with mustCancel := true })) :=
      setTask_passes orderly cell (fun _ => rfl) fun _ => rfl
    unfold cancelWithin
    split
    · exact .refl orderly
    · rename_i x found
      split
      · exact .refl orderly
      · split
        · rename_i plain
          exact complete_passes orderly (by rw [kind?, found, Option.map_some, plain]; rfl) _
        · rename_i members _ _ _
          dsimp only
          generalize folded : members.foldl _ (l, false) = pair
          have passed : l.Passes moved P pair.1 :=
            folded ▸ List.foldlRecOn members _ (motive := fun p : Loop α ν φ × Bool => l.Passes moved P p.1)
              (.refl orderly) fun p kept m _ => kept.trans (ih kept.orderly m)
          split
          · refine passed.trans (modify_passes passed.orderly (fun x => ?_) (fun x => ?_) (fun x => ?_) (fun x => ?_)
              (fun x => ?_) (fun x cb member => .inl ?_) fun x cb _ => ?_)
            all_goals
              obtain ⟨result, callbacks, role⟩ := x
              cases role
            all_goals first | rfl | exact Nat.le_refl _ | exact member
          · exact passed
        · split
          · rename_i a _
            have inner := ih orderly a
            dsimp only
            split
            · exact inner
            · exact inner.trans (asked inner.orderly)
          · exact asked orderly

theorem cancel_passes (cell : Nat) : l.Passes moved P (l.cancel cell) := cancelWithin_passes orderly _ _

end upkeep

section turn

variable {task : Nat} {callbacks : List Callback} {t : Task φ}

/-- A loop in which a task has changed, and it is settled who takes the next turn. -/
def turnTo (l : Loop α ν φ) (task : Nat) (f : Task φ → Task φ) (active : Option (Nat × Reply ν)) : Loop α ν φ :=
  { l.setTask task f with active }

theorem setTask_replaces {result : Option (Reply ν)} (found : l.cells[task]? = some ⟨result, callbacks, .task t⟩)
    (f : Task φ → Task φ) (active : Option (Nat × Reply ν)) :
    l.Replaces task ⟨result, callbacks, .task t⟩ ⟨result, callbacks, .task (f t)⟩
      (l.turnTo task f active) where
  found := found
  stored := by simp [turnTo, setTask, Array.getElem?_modify, found]
  others d other := by simp [turnTo, setTask, Array.getElem?_modify, Ne.symm other]

/-- The task that takes its turn is there, awaits nothing and has no result. -/
theorem Orderly.active_cell (orderly : l.Orderly) {r : Reply ν} (active : l.active = some (task, r)) :
    ∃ callbacks t, l.cells[task]? = some ⟨none, callbacks, .task t⟩ ∧ t.awaiting = none := by
  obtain ⟨kind, idle, open_⟩ := orderly.active task r active
  obtain ⟨⟨result, callbacks, role⟩, found, same⟩ := cell_of_kind kind
  cases role with
  | task t =>
    have open_ : result = none := by simpa [result?, found] using open_
    have idle : t.awaiting = none := by simpa [awaits?, found, Cell.awaits?] using idle
    exact ⟨callbacks, t, by rw [found, open_], idle⟩
  | _ => cases same

/-- A task for which nothing is in store comes to other calls. -/
theorem turnTo_passes (orderly : l.Orderly) (found : l.cells[task]? = some ⟨none, callbacks, .task t⟩)
    (free : l.Free task) (f : Task φ → Task φ) {active : Option (Nat × Reply ν)}
    (goes : ∀ other r, active = some (other, r) → other = task ∧ (f t).awaiting = none) :
    l.Passes (· = task) P (l.turnTo task f active) := by
  have replaces := setTask_replaces found f active
  refine ⟨.of_replaces replaces rfl (fun _ => id) (fun _ => .inl rfl)
    (.inr ⟨⟨task, rfl⟩, fun other r same => (goes other r same).1⟩), ?_⟩
  refine orderly.retask free (replaces.kind? rfl) (replaces.result? rfl) (fun c other => ?_) (replaces.tally? rfl)
    (replaces.held rfl) rfl rfl fun other r same => ?_
  · rw [awaits?, awaits?, replaces.others c other]
  · obtain ⟨own, idle⟩ := goes other r same
    refine ⟨own, ?_, ?_, replaces.result?_own⟩
    · rw [kind?, replaces.stored]
      rfl
    · rw [awaits?, replaces.stored]
      exact idle

theorem turnTo_frames {result : Option (Reply ν)} (found : l.cells[task]? = some ⟨result, callbacks, .task t⟩)
    (f : Task φ → Task φ) (active : Option (Nat × Reply ν)) :
    (l.turnTo task f active).frames task = (f t).frames := by
  rw [frames_eq, (setTask_replaces found f active).stored]
  rfl

/-- The first step of a task, or the next one after what it awaits. -/
theorem activate_passes (orderly : l.Orderly) (free : l.Free task) (r : Reply ν) :
    l.Passes (· = task) P (l.activate task r) := by
  unfold activate
  split
  · rename_i callbacks t found
    refine turnTo_passes orderly found free _ fun other s same => ?_
    cases same
    exact ⟨rfl, rfl⟩
  · exact .refl orderly

/-- A task that is not over takes its turn. -/
theorem activate_goes (kind : l.kind? task = some .task) (open_ : l.result? task = none) (r : Reply ν) :
    ∃ s, (l.activate task r).active = some (task, s) ∧ (s = r ∨ s = .raised .cancelled) := by
  obtain ⟨⟨result, callbacks, role⟩, found, same⟩ := cell_of_kind kind
  cases role with
  | task t =>
    obtain rfl : result = none := by simpa [result?, found] using open_
    unfold activate
    rw [found]
    refine ⟨_, rfl, ?_⟩
    split
    · exact .inr rfl
    · exact .inl rfl
  | _ => cases same

theorem activate_result? (task : Nat) (r : Reply ν) (c : Nat) : (l.activate task r).result? c = l.result? c := by
  unfold activate
  split
  · exact result?_setTask ..
  · rfl

section active

variable (orderly : l.Orderly) {signal : Reply ν} (active : l.active = some (task, signal))
include orderly active

theorem proceed_passes (frames : List φ) (r : Reply ν) : l.Passes (· = task) P (l.proceed task frames r) := by
  obtain ⟨callbacks, t, found, idle⟩ := orderly.active_cell active
  refine turnTo_passes orderly found (orderly.free active) _ fun other s same => ?_
  cases same
  exact ⟨rfl, idle⟩

theorem proceed_frames (frames : List φ) (r : Reply ν) : (l.proceed task frames r).frames task = frames := by
  obtain ⟨callbacks, t, found, -⟩ := orderly.active_cell active
  exact turnTo_frames found _ _

theorem yield_passes (frames : List φ) : l.Passes (· = task) P (l.yield task frames) := by
  obtain ⟨callbacks, t, found, idle⟩ := orderly.active_cell active
  have free := orderly.free active
  have left : l.Passes (· = task) P (l.turnTo task ({ · with frames }) none) :=
    turnTo_passes orderly found free _ (by simp)
  have replaces := setTask_replaces found ({ · with frames }) none
  refine left.trans (callSoon_step_passes left.orderly ⟨?_, ?_, by simp [turnTo]⟩
    ⟨free.step, free.wake, fun c d member => free.held c d (replaces.held rfl c ▸ member)⟩)
  · exact left.kinds task _ (orderly.active task signal active).1
  · rw [awaits?, replaces.stored]
    exact idle

theorem yield_frames (frames : List φ) : (l.yield task frames).frames task = frames := by
  obtain ⟨callbacks, t, found, -⟩ := orderly.active_cell active
  exact turnTo_frames found _ none

theorem await_passes (frames : List φ) (cell : Nat) : l.Passes (· = task) P (l.await task frames cell) := by
  unfold await
  split
  · exact proceed_passes orderly active frames _
  · rename_i open_
    obtain ⟨callbacks, t, found, -⟩ := orderly.active_cell active
    have free := orderly.free active
    have left : l.Passes (· = task) P (l.turnTo task ({ · with frames, awaiting := some cell }) none) :=
      turnTo_passes orderly found free _ (by simp)
    have replaces := setTask_replaces found ({ · with frames, awaiting := some cell }) none
    have still : (l.turnTo task ({ · with frames, awaiting := some cell }) none).result? cell = none := (replaces.result? rfl cell).trans open_
    have waits : (l.turnTo task ({ · with frames, awaiting := some cell }) none).awaits? task = some cell := by
      rw [awaits?, replaces.stored]
      rfl
    have same : l.suspend task frames cell =
        (l.turnTo task ({ · with frames, awaiting := some cell }) none).onDone cell (.wake task cell) := by
      have waits : (l.setTask task ({ · with frames, awaiting := some cell })).isDone cell = false := by
        rw [isDone, result?_setTask, open_]
        rfl
      have waits' : (l.turnTo task ({ · with frames, awaiting := some cell }) none).isDone cell = false := by
        rw [isDone, still]
        rfl
      simp only [suspend, onDone, waits, waits', Bool.false_eq_true, if_false]
      rfl
    rw [same]
    refine left.trans (onDone_passes left.orderly rfl (fun done => ⟨waits, done⟩) (fun _ => ⟨rfl, waits⟩) (fun _ => ?_)
      (by simp))
    exact Nat.add_eq_zero_iff.mpr ⟨List.count_eq_zero.mpr (free.wake cell), List.count_eq_zero.mpr fun member =>
      free.held cell cell (replaces.held rfl cell ▸ member)⟩

theorem await_frames (frames : List φ) (cell : Nat) : (l.await task frames cell).frames task = frames := by
  obtain ⟨callbacks, t, found, -⟩ := orderly.active_cell active
  unfold await
  split
  · exact turnTo_frames found _ _
  · exact ((onDone_stays _ cell _).frames task).trans (turnTo_frames found _ l.active)

/-- A task that awaits a cell without a result waits for it. -/
theorem await_awaits (frames : List φ) {cell : Nat} (open_ : l.result? cell = none) :
    (l.await task frames cell).awaits? task = some cell ∧ (l.await task frames cell).active = none := by
  obtain ⟨callbacks, t, found, -⟩ := orderly.active_cell active
  unfold await
  rw [open_]
  refine ⟨(onDone_awaits? _ cell _ task).trans ?_, rfl⟩
  have replaces := setTask_replaces found ({ · with frames, awaiting := some cell }) l.active
  exact congrArg (·.bind Cell.awaits?) replaces.stored

/-- A task that awaits a cell waits for it, or goes on with its result. -/
theorem await_hears (frames : List φ) (cell : Nat) : (l.await task frames cell).awaits? task = some cell ∨
    ∃ r, (l.await task frames cell).active = some (task, r) ∧ l.result? cell = some r := by
  cases done : l.result? cell with
  | none => exact .inl (await_awaits orderly active frames done).1
  | some r => exact .inr ⟨r, by simp only [await, done], rfl⟩

theorem leave_passes (frames : List φ) (r : Reply ν) : l.Passes (· = task) P (l.leave task frames r) := by
  cases frames with
  | cons frame rest => exact proceed_passes orderly active (frame :: rest) r
  | nil =>
    obtain ⟨callbacks, t, found, -⟩ := orderly.active_cell active
    have same := complete_setTask found ({ · with frames := [] }) r
    unfold leave
    rw [same]
    have replaces : l.Replaces task ⟨none, callbacks, .task t⟩ ⟨some r, [], .task { t with frames := [] }⟩ { l with
        cells := l.cells.set! task ⟨some r, [], .task { t with frames := [] }⟩
        queued := l.queued ++ callbacks.toArray
        active := none } := .of_set found rfl
    exact ⟨.of_replaces replaces rfl (by simp) (fun _ => .inl rfl) (.inr ⟨⟨task, rfl⟩, by simp⟩),
      orderly.finish replaces rfl rfl (by simp [Role.kind]) (by simp [pending]) rfl (by simp)⟩

theorem leave_frames (frames : List φ) (r : Reply ν) : (l.leave task frames r).frames task = frames := by
  cases frames with
  | nil => exact (leave_enters (P := fun _ => True) l trivial task [] r).own.elim id (·.2)
  | cons frame rest => exact proceed_frames orderly active (frame :: rest) r

/-- A task that leaves its last call comes to a result. -/
theorem leave_result (r : Reply ν) : (l.leave task [] r).result? task = some r := by
  obtain ⟨callbacks, t, found, -⟩ := orderly.active_cell active
  have inside := (Array.getElem?_eq_some_iff.mp found).1
  unfold leave
  rw [complete_setTask found ({ · with frames := [] }) r]
  simp [result?, inside]

end active

end turn

section round

theorem complete_set {c : Nat} {x : Cell ν φ} (found : l.cells[c]? = some x) (callbacks : List Callback)
    (role : Role φ) (r : Reply ν) :
    Loop.complete { l with cells := l.cells.set! c ⟨none, callbacks, role⟩ } c r = { l with
      cells := l.cells.set! c ⟨some r, [], role⟩
      queued := l.queued ++ callbacks.toArray } := by
  have inside := (Array.getElem?_eq_some_iff.mp found).1
  have stored : (l.cells.set! c ⟨none, callbacks, role⟩)[c]? = some ⟨none, callbacks, role⟩ := by simp [inside]
  unfold complete
  rw [stored]
  simp only [Array.set!_eq_setIfInBounds, Array.setIfInBounds_setIfInBounds]

/-- As many have told of their end as there are members, and none of them twice. -/
theorem mem_of_count_le {told members : List Nat} (count : ∀ m, told.count m ≤ members.count m)
    (length : told.length = members.length) {m : Nat} (member : m ∈ members) : m ∈ told :=
  ((List.subperm_ext_iff.mpr fun m _ => count m).perm_of_length_le (Nat.le_of_eq length.symm)).mem_iff.mpr member

/-- One more member of a group has told of its end, and none of them twice. -/
theorem count_passes (orderly : l.Orderly) {g finished : Nat} {callbacks : List Callback} {members told : List Nat}
    {asked : Bool} (found : l.cells[g]? = some ⟨none, callbacks, .group members finished asked⟩)
    (length : told.length = finished + 1) (ended : ∀ m ∈ told, ∃ v, l.result? m = some (.value v))
    (few : ∀ m, told.count m + l.load (.member g m) ≤ members.count m) :
    l.Passes moved P { l with cells := l.cells.set! g ⟨none, callbacks, .group members (finished + 1) asked⟩ } := by
  have counted : l.Replaces g _ ⟨none, callbacks, .group members (finished + 1) asked⟩ { l with
      cells := l.cells.set! g ⟨none, callbacks, .group members (finished + 1) asked⟩ } := .of_set found rfl
  have results := counted.result? rfl
  have load (cb : Callback) : Loop.load { l with
      cells := l.cells.set! g ⟨none, callbacks, .group members (finished + 1) asked⟩ } cb = l.load cb := by
    rw [Loop.load, Loop.load, counted.held rfl]
    rfl
  refine ⟨.of_replaces counted rfl (by simp) (by simp [Role.kind]) (.inl rfl), ?_⟩
  refine orderly.vary (fun c _ there => (counted.kind? rfl c).trans there) results (counted.awaits? rfl)
    (fun h others count tally => ?_) (fun cb member => .inl member)
    (fun c cb member => .inl (counted.held rfl c ▸ member)) (fun t => .inl (Nat.le_of_eq (load _)))
    (fun t c => .inl (Nat.le_of_eq (load _))) (fun t member => .inl member) rfl
  by_cases own : h = g
  · subst own
    rw [tally?, counted.stored] at tally
    cases tally
    refine .inr ?_
    rw [Tallies, counted.result?_own]
    refine ⟨told, length, fun m member => ?_, fun m => ?_⟩
    · obtain ⟨w, result⟩ := ended m member
      exact ⟨w, (results m).trans result⟩
    · rw [load]
      exact few m
  · rw [tally?, counted.others h own] at tally
    exact .inl ⟨tally, fun m => Nat.le_of_eq (load _)⟩

/-- A group hears of a member that has not told of its end yet. -/
theorem memberDone_passes (orderly : l.Orderly) {g member : Nat} (done : l.isDone member = true)
    (room : ∀ members finished, l.tally? g = some (members, finished) → l.result? g = none →
      ∃ told : List Nat, told.length = finished ∧ (∀ m ∈ told, ∃ v, l.result? m = some (.value v)) ∧
        ∀ m, told.count m + l.load (.member g m) + [member].count m ≤ members.count m) (v : ν) :
    l.Passes moved P (l.memberDone v g member) := by
  unfold memberDone
  split
  · rename_i callbacks members finished asked found
    obtain ⟨told, length, ended, few⟩ := room members finished (by rw [tally?, found]; rfl) (by rw [result?, found]; rfl)
    have few' (m : Nat) : (member :: told).count m + l.load (.member g m) ≤ members.count m := by
      have fewer := few m
      simp only [List.count_singleton] at fewer
      rw [List.count_cons]
      omega
    have results := (Replaces.of_set (y := ⟨none, callbacks, .group members (finished + 1) asked⟩) (k := { l with
      cells := l.cells.set! g ⟨none, callbacks, .group members (finished + 1) asked⟩ }) found rfl).result? rfl
    have finish {r : Reply ν} (settles : l.Settles members r) : l.Passes moved P (Loop.complete { l with
        cells := l.cells.set! g ⟨none, callbacks, .group members (finished + 1) asked⟩ } g r) := by
      rw [complete_set found]
      refine finish_passes orderly found (.group members (finished + 1) asked) rfl (by simp [Role.kind]) fun others same => ?_
      cases same
      exact settles
    dsimp only
    split
    · rename_i x raised
      refine finish (.inr ⟨member, ?_, (results member).symm.trans raised⟩)
      have once := few' member
      rw [List.count_cons_self] at once
      exact List.count_pos_iff.mp (by omega)
    · rename_i unraised
      have ended' (m : Nat) (told' : m ∈ member :: told) : ∃ v, l.result? m = some (.value v) := by
        rcases List.mem_cons.mp told' with rfl | earlier
        · obtain ⟨r, result⟩ := isDone_iff.mp done
          cases r with
          | value w => exact ⟨w, result⟩
          | raised x => exact absurd ((results m).trans result) (unraised x)
        · exact ended m earlier
      split
      · rename_i all
        refine finish ?_
        split
        · exact .inl rfl
        · intro m inside
          refine ended' m (mem_of_count_le (fun m => Nat.le_trans (Nat.le_add_right _ _) (few' m)) ?_ inside)
          simpa [length] using all
      · exact count_passes orderly found (by simp [length]) ended' few'
  · exact .refl orderly

/-- Running a callback moves no task but one that takes its turn. -/
theorem run_passes (orderly : l.Orderly) {cb : Callback} {rest : List Callback}
    (next : l.round = cb :: rest) (v : ν) : l.Passes cb.Turns P (Loop.run { l with round := rest } v cb) := by
  have begun : l.Passes cb.Turns P { l with round := rest } := begin_passes orderly next
  have due : l.Due cb := orderly.pending cb (by simp [pending, next])
  have load (d : Callback) : l.load d = Loop.load { l with round := rest } d + [cb].count d := by
    simp only [Loop.load, pending, next, List.cons_append, List.count_cons, List.count_nil, Nat.zero_add]
    exact Nat.add_right_comm ..
  have none (once : l.load cb ≤ 1) : cb ∉ Loop.pending { l with round := rest } ∧
      cb ∉ Loop.held { l with round := rest } cb.home := by
    have same := load cb
    rw [List.count_singleton_self] at same
    have zero : Loop.load { l with round := rest } cb = 0 := by omega
    obtain ⟨first, second⟩ := Nat.add_eq_zero_iff.mp zero
    exact ⟨List.count_eq_zero.mp first, List.count_eq_zero.mp second⟩
  have turn {t : Nat} (own : cb.Turns t) (free : Loop.Free { l with round := rest } t) (r : Reply ν) :
      l.Passes cb.Turns P (Loop.activate { l with round := rest } t r) :=
    begun.trans ((activate_passes begun.orderly free r).mono (fun c same => same ▸ own) fun _ => id)
  cases cb with
  | step t =>
    refine turn (.inl rfl) ⟨(none (orderly.steps t)).1, fun c member => ?_, fun c d member => ?_⟩ _
    · cases due.2.1.symm.trans (begun.orderly.pending _ member).1
    · cases due.2.1.symm.trans (begun.orderly.held c _ member).2.2
  | wake t c =>
    obtain ⟨waits, done⟩ := due
    refine turn (.inr ⟨c, rfl⟩) ⟨fun member => ?_, fun d member => ?_, fun d e member => ?_⟩ _
    · cases waits.symm.trans (begun.orderly.pending _ member).2.1
    · obtain rfl := Option.some.inj (waits.symm.trans (begun.orderly.pending _ member).1)
      exact (none (orderly.wakes t c)).1 member
    · obtain ⟨open_, rfl, waits'⟩ := begun.orderly.held d _ member
      have open_ : l.result? e = Option.none := open_
      obtain rfl := Option.some.inj (waits.symm.trans waits')
      rw [isDone, open_] at done
      cases done
  | member g m =>
    refine begun.trans (memberDone_passes begun.orderly due.2 (fun members finished tally open_ => ?_) v)
    have tallies := orderly.groups g members finished tally
    have open_ : l.result? g = Option.none := open_
    rw [Tallies, open_] at tallies
    obtain ⟨told, length, ended, few⟩ := tallies
    refine ⟨told, length, ended, fun d => ?_⟩
    have fewer := few d
    have same := load (.member g d)
    simp only [List.count_singleton, beq_iff_eq, Callback.member.injEq, true_and] at same ⊢
    omega
  | resolve c => exact begun.trans (complete_passes begun.orderly due _)

/-- No task comes to a result by what the loop does. -/
theorem run_result? (orderly : l.Orderly) {cb : Callback} {rest : List Callback} (next : l.round = cb :: rest) (v : ν)
    {c : Nat} (task : l.kind? c = some .task) : (Loop.run { l with round := rest } v cb).result? c = l.result? c := by
  have passes : l.Passes cb.Turns (fun _ => True) (Loop.run { l with round := rest } v cb) := run_passes orderly next v
  cases cb with
  | step t => exact activate_result? ..
  | wake t d => exact activate_result? ..
  | member g m => exact (passes.tasks c task (by rintro (⟨⟨⟩⟩ | ⟨_, ⟨⟩⟩))).1
  | resolve d => exact (passes.tasks c task (by rintro (⟨⟨⟩⟩ | ⟨_, ⟨⟩⟩))).1

/-- A task that waits for a cell goes on waiting, or takes its turn with the result of the cell or to
be cancelled. -/
theorem run_waits (orderly : l.Orderly) {cb : Callback} {rest : List Callback} (next : l.round = cb :: rest) (v : ν)
    {c a : Nat} (open_ : l.result? c = none) (waits : l.awaits? c = some a) :
    (Loop.run { l with round := rest } v cb).awaits? c = some a ∨
      ∃ r, (Loop.run { l with round := rest } v cb).active = some (c, r) ∧
        (r = .raised .cancelled ∨ l.result? a = some r) := by
  have passes : l.Passes cb.Turns (fun _ => True) (Loop.run { l with round := rest } v cb) := run_passes orderly next v
  have due : l.Due cb := orderly.pending cb (by simp [pending, next])
  have task := kind?_of_awaits waits
  by_cases own : cb.Turns c
  · rcases own with rfl | ⟨d, rfl⟩
    · cases waits.symm.trans due.2.1
    · obtain rfl := Option.some.inj (waits.symm.trans due.1)
      obtain ⟨result, done⟩ := isDone_iff.mp due.2
      obtain ⟨r, turn, given⟩ := activate_goes (l := { l with round := rest }) task open_
        ((Loop.result? { l with round := rest } a).getD (.value v))
      refine .inr ⟨r, turn, given.symm.imp_right ?_⟩
      rintro rfl
      change l.result? a = some ((l.result? a).getD _)
      rw [done, Option.getD_some]
  · exact .inl ((passes.tasks c task own).2.2.trans waits)

end round

end Partita.Loop
