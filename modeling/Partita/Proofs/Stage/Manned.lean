import Partita.Proofs.Stage.Interleaving
import Partita.Proofs.Stage.Upkeep

/-! The loop of a stage stays orderly. Nobody completes a cell but the one whose cell it is, those
who listen for a change have cells of their own, and while a task takes its turn all others stay
where they are. -/
namespace Partita

variable {α : Type}

def Frame.operates : Frame α → Bool
  | .run .. | .open_ .. | .main .. | .conductor .. => true
  | _ => false

/-- Whether calls hold no runs but those of some parts. -/
def Frame.RunsIn (Q : Nat → Prop) (frames : List (Frame α)) : Prop := ∀ k i, .run k i ∈ frames → Q k

namespace Stage

variable {moved Q : Nat → Prop} {s t u : Stage α} {task : Nat}

/-- A stage whose loop is orderly, and on which every listener has a cell of its own. -/
structure Manned (s : Stage α) : Prop where
  loop : s.loop.Orderly
  listeners : ∀ x ∈ s.listeners, s.loop.kind? x.cell = some .plain

/-- A later state of a stage, in which all tasks are as they were, but for some. -/
structure Passes (moved Q : Nat → Prop) (s t : Stage α) : Prop where
  loop : s.loop.Remains moved (Frame.RunsIn Q) t.loop
  manned : t.Manned

namespace Passes

theorem refl (manned : s.Manned) : s.Passes moved Q s := ⟨.refl _, manned⟩

theorem trans (first : s.Passes moved Q t) (second : t.Passes moved Q u) : s.Passes moved Q u :=
  ⟨first.loop.trans second.loop, second.manned⟩

theorem mono {moved' Q' : Nat → Prop} (passes : s.Passes moved Q t) (wider : ∀ c, moved c → moved' c)
    (more : ∀ k, Q k → Q' k) : s.Passes moved' Q' t :=
  ⟨passes.loop.mono wider fun _ runs k i member => more k (runs k i member), passes.manned⟩

/-- Nothing of a stage has changed but its loop. -/
theorem of_loop (manned : s.Manned) (passes : s.loop.Passes moved (Frame.RunsIn Q) t.loop)
    (listeners : ∀ x ∈ t.listeners, x ∈ s.listeners ∨ t.loop.kind? x.cell = some .plain) : s.Passes moved Q t :=
  ⟨passes.toRemains, passes.orderly, fun x member => (listeners x member).elim
    (fun old => passes.kinds _ _ (manned.listeners x old)) id⟩

theorem onLoop (manned : s.Manned) {l : Loop α (Value α) (Frame α)}
    (passes : s.loop.Passes moved (Frame.RunsIn Q) l) : s.Passes moved Q { s with loop := l } :=
  of_loop manned passes fun _ => .inl

/-- Where no task has moved the same one takes its turn. -/
theorem still (passes : s.Passes (fun _ => False) Q t) : t.loop.active = s.loop.active :=
  passes.loop.active.resolve_right fun ⟨⟨_, never⟩, _⟩ => never

theorem moves (passes : s.Passes (fun _ => False) Q t) : s.Passes (· = task) Q t :=
  passes.mono (fun _ => False.elim) fun _ => id

end Passes

theorem Manned.of_loop (manned : s.Manned) (loop : t.loop = s.loop) (listeners : t.listeners = s.listeners) :
    t.Manned :=
  ⟨loop ▸ manned.loop, by rw [loop, listeners]; exact manned.listeners⟩

section serve

variable (manned : s.Manned) {part : Nat} (runs : Q part)
include manned runs

theorem serve_passes (request : Request) : s.Passes moved Q (s.serve part request) := by
  cases request with
  | changed =>
    have told (heard : List Listener) (l : Loop α (Value α) (Frame α)) (orderly : l.Orderly)
        (own : ∀ x ∈ heard, l.kind? x.cell = some .plain) : l.Passes moved (Frame.RunsIn Q)
          (heard.foldl (fun l x => l.complete x.cell (.value .nothing)) l) := by
      induction heard generalizing l with
      | nil => exact .refl orderly
      | cons x heard ih =>
        have passes : l.Passes moved (Frame.RunsIn Q) (l.complete x.cell (.value .nothing)) :=
          Loop.complete_passes orderly (own x List.mem_cons_self) _
        exact passes.trans (ih _ passes.orderly fun y member =>
          passes.kinds _ _ (own y (List.mem_cons_of_mem _ member)))
    exact .of_loop manned (told _ _ manned.loop fun x member => manned.listeners x (List.mem_filter.mp member).1)
      fun x member => .inl (List.mem_filter.mp member).1
  | spawned run =>
    exact .of_loop manned (Loop.newTask_passes manned.loop fun k i member => by cases List.mem_singleton.mp member; exact runs)
      fun _ => .inl
  | cancel run =>
    unfold serve
    dsimp only
    split
    · exact .onLoop manned (Loop.cancel_passes manned.loop _)
    · exact .refl manned

theorem serveAll_passes (requests : List Request) :
    s.Passes moved Q (requests.foldl (fun s r => s.serve part r) s) := by
  induction requests generalizing s with
  | nil => exact .refl manned
  | cons request requests ih =>
    have first : s.Passes moved Q (s.serve part request) := serve_passes manned runs request
    exact first.trans (ih first.manned)

end serve

/-- Operating on a performance moves no task. -/
theorem onPart_passes {β : Type} (manned : s.Manned) {part : Nat} (runs : part < s.parts.size → Q part)
    (act : PerformM α β) : s.Passes moved Q (s.onPart part act).2 := by
  cases found : s.parts[part]? with
  | none =>
    unfold onPart
    rw [found]
    exact .refl manned
  | some x =>
    rw [onPart_eq found, ← Array.foldl_toList]
    have stored : (s.stored part x (runFrom act (s.mounted x)).2).Manned := .of_loop manned rfl rfl
    have first : s.Passes moved Q (s.stored part x (runFrom act (s.mounted x)).2) :=
      .of_loop manned (.refl manned.loop) fun _ => .inl
    exact first.trans (serveAll_passes stored (runs (Array.getElem?_eq_some_iff.mp found).1) _)

/-- A task that takes its turn on a stage whose loop is orderly. -/
structure Turns (s : Stage α) (task : Nat) : Prop extends s.Manned where
  active : ∃ r, s.loop.active = some (task, r)

namespace Turns

variable {frames : List (Frame α)}

theorem after (turns : s.Turns task) (passes : s.Passes (fun _ => False) Q t) : t.Turns task :=
  ⟨passes.manned, turns.active.imp fun _ same => passes.still.trans same⟩

variable (turns : s.Turns task)
include turns

theorem leave (frames : List (Frame α)) (r : Reply (Value α)) :
    s.Passes (· = task) Q (s.onLoop (·.leave task frames r)) := by
  obtain ⟨_, active⟩ := turns.active
  exact .onLoop turns.toManned (Loop.leave_passes turns.loop active frames r)

theorem proceed (frames : List (Frame α)) (r : Reply (Value α)) :
    s.Passes (· = task) Q (s.onLoop (·.proceed task frames r)) := by
  obtain ⟨_, active⟩ := turns.active
  exact .onLoop turns.toManned (Loop.proceed_passes turns.loop active frames r)

theorem yield (frames : List (Frame α)) : s.Passes (· = task) Q (s.onLoop (·.yield task frames)) := by
  obtain ⟨_, active⟩ := turns.active
  exact .onLoop turns.toManned (Loop.yield_passes turns.loop active frames)

theorem await (frames : List (Frame α)) (cell : Nat) :
    s.Passes (· = task) Q (s.onLoop (·.await task frames cell)) := by
  obtain ⟨_, active⟩ := turns.active
  exact .onLoop turns.toManned (Loop.await_passes turns.loop active frames cell)

/-- A task leaves its innermost call and gives up its timer. -/
theorem leaveTimer (timer : Nat) (frames : List (Frame α)) (r : Reply (Value α)) :
    s.Passes (· = task) Q (s.onLoop fun l => (l.cancelTimer timer).leave task frames r) := by
  obtain ⟨_, active⟩ := turns.active
  have dropped : s.loop.Passes (· = task) (Frame.RunsIn Q) (s.loop.cancelTimer timer) :=
    Loop.cancelTimer_passes turns.loop timer
  exact .onLoop turns.toManned (dropped.trans (Loop.leave_passes dropped.orderly active frames r))

end Turns

/-- A task ends its turn in some calls, after what else it has done to the loop: it awaits a cell,
lets all others have their turn, or goes on. -/
inductive Lands (Q : Nat → Prop) (s : Stage α) (task : Nat) (frames : List (Frame α)) : Stage α → Prop
  | awaits {l : Loop α (Value α) (Frame α)} (passes : s.loop.Passes (fun _ => False) (Frame.RunsIn Q) l) (cell : Nat) :
      Lands Q s task frames (s.onLoop fun _ => l.await task frames cell)
  | yields {l : Loop α (Value α) (Frame α)} (passes : s.loop.Passes (fun _ => False) (Frame.RunsIn Q) l) :
      Lands Q s task frames (s.onLoop fun _ => l.yield task frames)
  | proceeds {l : Loop α (Value α) (Frame α)} (passes : s.loop.Passes (fun _ => False) (Frame.RunsIn Q) l)
      (r : Reply (Value α)) : Lands Q s task frames (s.onLoop fun _ => l.proceed task frames r)

namespace Lands

variable {frames : List (Frame α)}

theorem parts (lands : Lands Q s task frames t) : t.parts = s.parts ∧ t.engines = s.engines := by
  cases lands <;> exact ⟨rfl, rfl⟩

/-- A task that leaves a call lands in the calls around it, unless there are none. -/
theorem of_leave {l : Loop α (Value α) (Frame α)} (passes : s.loop.Passes (fun _ => False) (Frame.RunsIn Q) l)
    {frame : Frame α} (r : Reply (Value α)) :
    Lands Q s task (frame :: frames) (s.onLoop fun _ => l.leave task (frame :: frames) r) := .proceeds passes r

variable (turns : s.Turns task) (lands : Lands Q s task frames t)
include turns lands

theorem passes : s.Passes (· = task) Q t := by
  obtain ⟨_, active⟩ := turns.active
  have moves {l k : Loop α (Value α) (Frame α)} (passes : s.loop.Passes (fun _ => False) (Frame.RunsIn Q) l)
      (later : l.Passes (· = task) (Frame.RunsIn Q) k) : s.Passes (· = task) Q (s.onLoop fun _ => k) :=
    .onLoop turns.toManned ((passes.mono (fun _ => False.elim) fun _ => id).trans later)
  cases lands with
  | awaits passes cell => exact moves passes (Loop.await_passes passes.orderly (passes.still.trans active) _ _)
  | yields passes => exact moves passes (Loop.yield_passes passes.orderly (passes.still.trans active) _)
  | proceeds passes r => exact moves passes (Loop.proceed_passes passes.orderly (passes.still.trans active) _ _)

theorem calls : t.loop.frames task = frames := by
  obtain ⟨_, active⟩ := turns.active
  cases lands with
  | awaits passes cell => exact Loop.await_frames passes.orderly (passes.still.trans active) _ _
  | yields passes => exact Loop.yield_frames passes.orderly (passes.still.trans active) _
  | proceeds passes r => exact Loop.proceed_frames passes.orderly (passes.still.trans active) _ _

/-- A task that lands in some calls has no result yet. -/
theorem result : t.loop.result? task = none := by
  obtain ⟨r, active⟩ := turns.active
  have open_ {l : Loop α (Value α) (Frame α)} (passes : s.loop.Passes (fun _ => False) (Frame.RunsIn Q) l) :
      l.result? task = none := (passes.orderly.active task r (passes.still.trans active)).2.2
  cases lands with
  | awaits passes cell => exact (Loop.result?_await ..).trans (open_ passes)
  | yields passes => exact (Loop.result?_setTask ..).trans (open_ passes)
  | proceeds passes r => exact (Loop.result?_setTask ..).trans (open_ passes)

end Lands

end Stage

namespace Loop

variable {l : Loop α (Value α) (Frame α)} {Q : Nat → Prop}

variable [Scalar α]

/-- A cell of its own is made, with a timer. -/
theorem timed_passes {moved : Nat → Prop} {P : List (Frame α) → Prop} (orderly : l.Orderly) (seconds : α) :
    l.Passes moved P ((l.newCell .plain).2.callLater seconds (.resolve l.cells.size)).2 := by
  have made : l.Passes moved P (l.newCell .plain).2 := newPlain_passes orderly
  exact made.trans (callLater_passes made.orderly seconds (newCell_kind l .plain))

end Loop

namespace Stage

section waiting

variable {moved Q : Nat → Prop} {s t : Stage α} {task : Nat} (turns : s.Turns task)
include turns

theorem endInner_lands (frames : List (Frame α)) (inner waiter timer : Nat) (timedOut : Bool) :
    Lands Q s task (.ending inner timer timedOut :: frames) (s.endInner task frames inner waiter timer timedOut) := by
  have forgot : s.loop.Passes (fun _ => False) (Frame.RunsIn Q) (s.loop.forget inner (.resolve waiter)) :=
    Loop.forget_passes turns.loop inner _
  have made := forgot.trans (Loop.newPlain_passes forgot.orderly)
  have told := made.trans (Loop.onDone_resolve_passes made.orderly inner (Loop.newCell_kind _ .plain))
  exact .awaits (told.trans (Loop.cancel_passes told.orderly inner)) _

theorem deliverWithin_passes (frames : List (Frame α)) (inner waiter timer : Nat) (r : Reply (Value α)) :
    s.Passes (· = task) Q (s.deliverWithin task frames inner waiter timer r) := by
  unfold deliverWithin
  split
  · exact turns.leaveTimer timer frames _
  · exact (endInner_lands turns frames inner waiter timer _).passes turns

theorem deliverEnding_passes (frames : List (Frame α)) (inner timer : Nat) (timedOut : Bool) (r : Reply (Value α)) :
    s.Passes (· = task) Q (s.deliverEnding task frames inner timer timedOut r) := turns.leaveTimer timer frames _

theorem deliverListen_passes (frames : List (Frame α)) (part epoch : Nat) (r : Reply (Value α)) :
    s.Passes (· = task) Q (s.deliverListen task frames part epoch r) := by
  unfold deliverListen
  split
  · exact turns.leave frames _
  · dsimp only
    split
    · exact turns.leave frames _
    · obtain ⟨_, active⟩ := turns.active
      have made : s.loop.Passes (· = task) (Frame.RunsIn Q) (s.loop.newCell .plain).2 := Loop.newPlain_passes turns.loop
      have waits := Loop.await_passes (P := Frame.RunsIn Q) made.orderly active (.listen part epoch :: frames)
        s.loop.cells.size
      refine .of_loop turns.toManned (made.trans waits) fun x member => ?_
      rcases List.mem_append.mp member with old | new
      · exact .inl old
      · obtain rfl := List.mem_singleton.mp new
        exact .inr (waits.kinds _ _ (Loop.newCell_kind s.loop .plain))

/-- A task is begun that is in no run. -/
theorem newTask_passes {frame : Frame α} (free : frame.isRun = false) (background : Option Nat) (waits : Array Nat) :
    s.Passes moved Q { s with loop := (s.loop.newTask [frame]).2, background, waits } :=
  .of_loop turns.toManned (Loop.newTask_passes turns.loop fun k i member => by
    cases List.mem_singleton.mp member
    cases free) fun _ => .inl

end waiting

variable [Scalar α] {moved Q : Nat → Prop} {s t : Stage α} {task : Nat} (turns : s.Turns task)
include turns

/-- A task that sleeps does so in a call of its own, or lets all others have their turn. -/
theorem sleep_lands (frames : List (Frame α)) (seconds : α) : Lands Q s task frames (s.sleep task frames seconds) ∨
    ∃ timer, Lands Q s task (.sleeping timer :: frames) (s.sleep task frames seconds) := by
  unfold sleep
  split
  · exact .inl (.yields (.refl turns.loop))
  · exact .inr ⟨_, .awaits (Loop.timed_passes turns.loop seconds) _⟩

theorem sleep_passes (frames : List (Frame α)) (seconds : α) :
    s.Passes (· = task) Q (s.sleep task frames seconds) := by
  rcases sleep_lands turns frames seconds with lands | ⟨_, lands⟩ <;> exact lands.passes turns

theorem waitWithin_lands (frames : List (Frame α)) {inner : Frame α} (free : inner.isRun = false) (seconds : α) :
    ∃ cell waiter timer, Lands Q s task (.within cell waiter timer :: frames)
      (s.waitWithin task frames inner seconds) := by
  have timed : s.loop.Passes (fun _ => False) (Frame.RunsIn Q) _ := Loop.timed_passes turns.loop seconds
  let limited := ((s.loop.newCell .plain).2.callLater seconds (.resolve s.loop.cells.size)).2
  have made : limited.Passes (fun _ => False) (Frame.RunsIn Q) (limited.newTask [inner]).2 :=
    Loop.newTask_passes timed.orderly fun k i member => by
      cases List.mem_singleton.mp member
      cases free
  have plain : limited.kind? s.loop.cells.size = some .plain := Loop.newCell_kind s.loop .plain
  exact ⟨_, _, _, .awaits ((timed.trans made).trans
    (Loop.onDone_resolve_passes made.orderly limited.cells.size (made.kinds _ _ plain))) _⟩

theorem waitWithin_passes (frames : List (Frame α)) {inner : Frame α} (free : inner.isRun = false) (seconds : α) :
    s.Passes (· = task) Q (s.waitWithin task frames inner seconds) := by
  obtain ⟨_, _, _, lands⟩ := waitWithin_lands turns frames free seconds
  exact lands.passes turns

theorem deliverSettle_passes (frames : List (Frame α)) (part : Nat) (baseline : Int) (timeout : α)
    (deadline : Option α) (r : Reply (Value α)) :
    s.Passes (· = task) Q (s.deliverSettle task frames part baseline timeout deadline r) := by
  unfold deliverSettle
  split
  · exact turns.leave frames _
  · exact turns.leave frames _
  · dsimp only
    split
    · exact turns.leave frames _
    · split
      · exact turns.leave frames _
      · exact turns.leave frames _
      · exact waitWithin_passes turns _ rfl _

theorem followRun_passes (frames : List (Frame α)) (part run : Nat) :
    s.Passes (· = task) Q (s.followRun task frames part run) := by
  unfold followRun
  dsimp only
  split
  · exact turns.leave frames _
  · rename_i x _
    split
    · exact turns.leave frames _
    · rename_i r _
      cases r.status with
      | ended outcome => cases outcome <;> exact turns.leave frames _
      | created => exact turns.proceed _ _
      | running => exact turns.proceed _ _
      | waiting seconds beats =>
        dsimp only
        split
        · exact turns.yield _
        · exact sleep_passes turns _ _
      | settling deadline => exact waitWithin_passes turns _ rfl _
      | playing children =>
        exact (Lands.awaits (Loop.newGroup_passes turns.loop _).1 _).passes turns

theorem turn_passes {part : Nat} (runs : part < s.parts.size → Q part) (run : Nat) (r : Reply (Value α)) :
    s.Passes (fun _ => False) Q (s.turn part run r) := onPart_passes turns.toManned runs _

theorem deliverRun_passes (frames : List (Frame α)) {part : Nat} (runs : part < s.parts.size → Q part) (run : Nat) (r : Reply (Value α)) :
    s.Passes (· = task) Q (s.deliverRun task frames part run r) := by
  rw [deliverRun_eq]
  have turned : s.Passes (fun _ => False) Q (s.turn part run r) := turn_passes turns runs run r
  exact turned.moves.trans (followRun_passes (turns.after turned) frames part run)

omit [Scalar α] in
/-- A task goes on after an operation on a performance. -/
theorem onPart_turns {β : Type} {part : Nat} (runs : part < s.parts.size → Q part) {act : PerformM α β} {result : Except Fault β}
    (ran : s.onPart part act = (result, t)) : s.Passes (· = task) Q t ∧ t.Turns task := by
  have operated : s.Passes (fun _ => False) Q (s.onPart part act).2 := onPart_passes turns.toManned runs act
  rw [ran] at operated
  exact ⟨operated.moves, turns.after operated⟩

theorem openMain_passes (frames : List (Frame α)) {part : Nat} (runs : part < s.parts.size → Q part) (replay : Bool) :
    s.Passes (· = task) Q (s.openMain task frames part replay) := by
  rw [openMain_eq]
  rcases ran : s.onPart part (opening s.loop.time replay) with ⟨result, t⟩
  obtain ⟨operated, turns⟩ := onPart_turns turns runs ran
  refine operated.trans ?_
  rcases result with f | ⟨_ | run, generation⟩
  · exact turns.leave frames _
  · exact turns.leave frames _
  · dsimp only
    split
    · exact turns.await _ _
    · exact turns.leave frames _

theorem closeMain_passes (frames : List (Frame α)) {part : Nat} (runs : part < s.parts.size → Q part) (generation : Nat)
    (r : Reply (Value α)) : s.Passes (· = task) Q (s.closeMain task frames part generation r) := by
  unfold closeMain
  split
  · split <;> rename_i ran <;> obtain ⟨operated, turns⟩ := onPart_turns turns runs ran
    · exact operated.trans (turns.leave frames _)
    · exact operated.trans (turns.leave frames _)
  · exact turns.leave frames _

theorem carryOut_passes (frames : List (Frame α)) (runs : 0 < s.parts.size → Q 0) (cue : Cue α) :
    s.Passes (· = task) Q (s.carryOut task frames cue) := by
  have finish {β : Type} {act : PerformM α β} {result : Except Fault β} {t : Stage α}
      (ran : s.onPart 0 act = (result, t)) (reply : Reply (Value α)) :
      s.Passes (· = task) Q (t.onLoop (·.proceed task frames reply)) := by
    obtain ⟨operated, turns⟩ := onPart_turns turns runs ran
    exact operated.trans (turns.proceed frames reply)
  have begun {frame : Frame α} (free : frame.isRun = false) (background : Option Nat) (waits : Array Nat) :
      s.Passes (· = task) Q (Stage.onLoop { s with loop := (s.loop.newTask [frame]).2, background, waits }
        (·.proceed task frames (.value .nothing))) := by
    have made : s.Passes (fun _ => False) Q { s with loop := (s.loop.newTask [frame]).2, background, waits } :=
      newTask_passes turns free background waits
    exact made.moves.trans ((turns.after made).proceed frames _)
  cases cue with
  | perform replay => exact openMain_passes turns frames runs replay
  | start replay => exact begun rfl _ _
  | spawn name position =>
    unfold carryOut
    dsimp only
    rcases ran : s.onPart 0 (Performance.spawn name position) with ⟨result, t⟩
    obtain ⟨operated, turns⟩ := onPart_turns turns runs ran
    refine operated.trans ?_
    rcases result with f | _ | run
    · exact turns.proceed frames _
    · exact turns.proceed frames _
    · dsimp only
      split
      · exact turns.await frames _
      · exact turns.proceed frames _
  | join =>
    unfold carryOut
    dsimp only
    split
    · exact turns.await frames _
    · exact turns.proceed frames _
  | cancel =>
    unfold carryOut
    dsimp only
    split
    · rename_i cell _
      have asked : s.Passes (fun _ => False) Q (s.onLoop (·.cancel cell)) :=
        .onLoop turns.toManned (Loop.cancel_passes turns.loop cell)
      exact asked.moves.trans ((turns.after asked).proceed frames _)
    · exact turns.proceed frames _
  | ticks count =>
    cases count with
    | zero => exact turns.proceed frames _
    | succ count => exact turns.yield _
  | sleep seconds => exact sleep_passes turns frames seconds
  | stop | forceStop | normalize | session | changed =>
    unfold carryOut
    dsimp only
    generalize ran : s.onPart 0 _ = outcome
    obtain ⟨result, t⟩ := outcome
    cases result <;> exact finish ran _
  | wait baseline timeout => exact begun rfl _ _
  | joinWaits => exact turns.proceed _ _

/-- While a task takes its turn all others stay where they are. -/
theorem deliver_passes (r : Reply (Value α)) 
    (runs : ∀ frame ∈ (s.loop.frames task).head?, frame.operates = true → frame.part < s.parts.size → Q frame.part) :
    s.Passes (· = task) Q (s.deliver task r) := by
  unfold deliver
  cases calls : s.loop.frames task with
  | nil => exact turns.leave [] r
  | cons frame frames =>
    rw [calls] at runs
    have runs : frame.operates = true → frame.part < s.parts.size → Q frame.part := runs frame rfl
    cases frame with
    | run part run => exact deliverRun_passes turns frames (runs rfl) run r
    | within inner waiter timer => exact deliverWithin_passes turns frames inner waiter timer r
    | ending inner timer timedOut => exact deliverEnding_passes turns frames inner timer timedOut r
    | sleeping timer => exact turns.leaveTimer timer frames r
    | listen part epoch => exact deliverListen_passes turns frames part epoch r
    | settle part baseline timeout deadline => exact deliverSettle_passes turns frames part baseline timeout deadline r
    | open_ part replay =>
      cases r with
      | raised x => exact turns.leave frames _
      | value v => exact openMain_passes turns frames (runs rfl) replay
    | main part generation => exact closeMain_passes turns frames (runs rfl) generation r
    | ticks count =>
      dsimp only
      split
      · exact turns.yield _
      · exact turns.leave frames _
    | joining cells =>
      dsimp only
      split
      · exact turns.await _ _
      · exact turns.leave frames _
      · exact turns.leave frames _
    | conductor cues busy =>
      have reported : s.Passes (fun _ => False) Q (if busy then s.report r else s) ∧
          (if busy then s.report r else s).parts = s.parts := by
        split
        · exact ⟨.of_loop turns.toManned (.refl turns.loop) fun _ => .inl, rfl⟩
        · exact ⟨.refl turns.toManned, rfl⟩
      obtain ⟨reported, same⟩ := reported
      have turns := turns.after reported
      cases cues with
      | nil => exact reported.moves.trans (turns.leave frames _)
      | cons cue rest => exact reported.moves.trans (carryOut_passes turns _ (same ▸ runs rfl) cue)
    | studio frame => exact turns.leave frames r

omit turns in
/-- A task that takes its turn comes to be in no run that it was not in. -/
theorem deliver_calls (r : Reply (Value α)) {k i : Nat} (member : .run k i ∈ (s.deliver task r).loop.frames task) :
    .run k i ∈ s.loop.frames task := by
  cases calls : s.loop.frames task with
  | nil =>
    have same : s.deliver task r = s.onLoop (·.leave task [] r) := by
      unfold deliver
      rw [calls]
    have bare : (s.deliver task r).loop.frames task = [] :=
      same ▸ (Loop.leave_enters s.loop (P := fun _ => True) trivial task [] r).own.elim id (·.2)
    rw [bare] at member
    cases member
  | cons frame rest =>
    obtain ⟨m, -, resumes⟩ := deliver_receives calls r
    rcases resumes.becomes.origin member rfl with outer | next
    · exact List.mem_cons_of_mem _ outer
    · cases next with
      | run => exact List.mem_cons_self

end Stage

end Partita
