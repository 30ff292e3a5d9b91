import Partita.Proofs.Stage.Opening
import Partita.Proofs.Studio.Order
import Partita.Proofs.Studio.Spent

/-! A render that fails. From its first small step to the one in which its caller hears of a fault
or a cancellation, the studio only gains entries in its journal. If the performance was broken off
everything in it is ended at once; if it was played to its end and could not be mixed, nobody has
outlasted the main run. So none of its runs dispatches a command again. -/
namespace Partita

open Score

variable {α : Type}

def Reply.raised? {ν : Type} : Reply ν → Option Interrupt
  | .value _ => none
  | .raised x => some x

/-- Whether a call of another task goes on without operating on the studio, or on the main run of
a part. -/
def Frame.isApart (part : Nat) : Frame α → Bool
  | .studio .live | .run .. => true
  | .studio _ => false
  | frame => !frame.operates || frame.part != part

namespace Hall

/-- Whether no other task is about to go on in a call that operates on the studio, or on the main
run of a part. -/
def undisturbed (h : Hall α) (task part : Nat) : Bool := match h.stage.loop.active with
  | some (c, _) => c == task || (h.stage.loop.frames c).head?.all (Frame.isApart part)
  | none => true

/-- What a task is told instead of a value when it goes on, or has ended with. -/
def raised? (h : Hall α) (task : Nat) : Option Interrupt := match h.stage.loop.active with
  | some (c, r) => if c = task then r.raised? else none
  | none => (h.stage.loop.result? task).bind Reply.raised?

variable [Scalar α]

def renders? (h : Hall α) : Option (Nat × List (Frame α) × Hall α) := match h.stage.loop.active with
  | none => none
  | some (task, r) => match h.stage.loop.frames task with
    | .studio .openRender :: frames => match r with
      | .value _ => some (task, frames, h)
      | .raised _ => none
    | .studio (.director (cue :: rest) busy) :: frames =>
      let g := if busy then h.report r else h
      match cue with
      | .render => some (task, .studio (.director rest true) :: frames, g)
      | .perform code =>
        some (task, .studio .performing :: .studio (.director rest true) :: frames, (g.onStudio (Studio.parse code)).2)
      | _ => none
    | _ => none

end Hall

/-- A call of a render: the studio that it finds, its task, the calls around it, and the part that
its performance has on the stage. -/
structure RenderCall (α : Type) where
  found : Studio α
  task : Nat
  frames : List (Frame α)
  part : Nat

namespace RenderCall

variable {c : RenderCall α} {h k : Hall α} {plan : MixPlan α} {x : Part α}

/-- The render waits for its performance. -/
structure Awaits (c : RenderCall α) (h : Hall α) (plan : MixPlan α) (x : Part α) : Prop where
  calls : h.stage.loop.frames c.task = .main c.part 0 :: .studio (.rendering c.part plan) :: c.frames
  apart : ∀ i, .run c.part i ∉ c.frames
  studio : c.found.Same h.studio
  staffed : h.stage.Staffed (fun _ => False) c.part x
  pending : h.stage.loop.result? c.task = none
  expects : h.stage.Expects c.task x

structure Closes (c : RenderCall α) (h : Hall α) (plan : MixPlan α) (x : Part α) : Prop where
  calls : h.stage.loop.frames c.task = .studio (.rendering c.part plan) :: c.frames
  studio : c.found.Same h.studio
  staffed : h.stage.Staffed (fun _ => False) c.part x
  hears : ∃ r, h.stage.loop.active = some (c.task, r) ∧
    ∀ v, r = .value v → ∀ i < x.performance.runs.size, x.performance.hasFinished i = true

/-- The render has come to a value, or it has left nothing behind. -/
structure Left (c : RenderCall α) (h : Hall α) : Prop where
  calls : h.stage.loop.frames c.task = c.frames
  failed : h.raised? c.task = none ∨ c.found.Same h.studio ∧ h.Quit c.part

inductive Under (c : RenderCall α) (h : Hall α) : Prop
  | awaits {plan : MixPlan α} {x : Part α} (awaits : c.Awaits h plan x)
  | closes {plan : MixPlan α} {x : Part α} (closes : c.Closes h plan x)
  | left (left : c.Left h)

theorem Left.of_leave (turns : h.stage.Turns c.task) {r : Reply (Value α)}
    (outcome : r.raised? = none ∨ c.found.Same h.studio ∧ h.Quit c.part) : c.Left (h.leave c.task c.frames r) := by
  obtain ⟨signal, active⟩ := turns.active
  have told : (h.leave c.task c.frames r).raised? c.task = r.raised? := by
    cases calls : c.frames with
    | nil =>
      have ended : (h.leave c.task [] r).stage.loop.result? c.task = some r := Loop.leave_result turns.loop active r
      change ((h.leave c.task [] r).stage.loop.result? c.task).bind Reply.raised? = _
      rw [ended]
      rfl
    | cons frame frames => exact if_pos rfl
  exact ⟨Loop.leave_frames turns.loop active c.frames r, told ▸ outcome⟩

variable [Scalar α]

section opening

variable {g : Hall α} {task : Nat} {frames : List (Frame α)}

/-- The performance of a render begins on an engine of its own. -/
theorem begins_under {found : Studio α} {mix : Mixdown α} (turns : k.stage.Turns task)
    (vacant : ∀ c i, .run k.stage.parts.size i ∉ k.stage.loop.frames c)
    (apart : ∀ i, .run k.stage.parts.size i ∉ frames) (obliging : mix.engine.Obliging)
    (same : found.Same k.studio) :
    Under ⟨found, task, frames, k.stage.parts.size⟩ { k with
      active := some k.stage.parts.size
      stage := (({ k.stage with engines := k.stage.engines.push mix.engine } : Stage α).addPart
        (Performance.initial k.studio.blocks k.studio.config (Hall.renderClock k.studio.config) {})
        k.stage.engines.size).2.openMain task (.studio (.rendering k.stage.parts.size mix.plan) :: frames)
          k.stage.parts.size false } := by
  have outside (i : Nat) : .run k.stage.parts.size i ∉ .studio (.rendering k.stage.parts.size mix.plan) :: frames := by
    simpa using apart i
  have added := Stage.addPart_staffed vacant obliging k.studio.blocks k.studio.config
    (Hall.renderClock k.studio.config)
  obtain ⟨y, u, opened, staffed, goes⟩ :=
    added.openMain ⟨⟨turns.loop, turns.listeners⟩, turns.active⟩ rfl (vacant task) outside
  rw [opened]
  rcases goes with ⟨calls, pending, expects⟩ | ⟨calls, runless, r, active⟩
  · exact .awaits ⟨calls, apart, same, staffed, pending, expects⟩
  · exact .closes ⟨calls, same, staffed, r, active, fun v value i inside => by simp [runless] at inside⟩

/-- A render is opened: it fails at once, or its performance begins. -/
theorem openRender_under (ordered : g.Ordered) (turns : g.stage.Turns task)
    (apart : ∀ i, .run g.stage.parts.size i ∉ frames)
    (willing : ∀ seconds mix, g.studio.tools.newMix seconds g.studio.config = .ok mix → mix.engine.Obliging) :
    Under ⟨g.studio, task, frames, g.stage.parts.size⟩ (g.openRender task frames) := by
  have vacant (c i : Nat) : .run g.stage.parts.size i ∉ g.stage.loop.frames c := fun member =>
    absurd (ordered.housed c _ i member) (Nat.lt_irrefl _)
  have nobody {h : Hall α} (parts : h.stage.parts = g.stage.parts) : h.Quit g.stage.parts.size := by
    intro x there
    rw [parts, Array.getElem?_eq_none (Nat.le_refl _)] at there
    cases there
  obtain ⟨journal, measured⟩ := Studio.runFrom_renderSeconds { g.studio with journal := #[] } g.room
  unfold Hall.openRender
  rcases first : g.onStudio (Studio.renderSeconds g.room) with ⟨result, h⟩
  have same : g.studio.Same h.studio :=
    Hall.onStudio_same (fun t ran => by rw [measured] at ran; cases ran; rfl) first
  have turned : h.stage.Turns task := (Hall.onStudio_readies turns.toManned first).turns turns
  obtain ⟨loop, -, parts⟩ := Hall.onStudio_stage first
  cases result with
  | error f => exact .left (.of_leave turned (.inr ⟨same, nobody parts⟩))
  | ok seconds =>
    have willing (mix : Mixdown α) (fresh : h.studio.tools.newMix seconds h.studio.config = .ok mix) :
        mix.engine.Obliging := willing seconds mix (by
      rw [show h.studio = { g.studio with journal := h.studio.journal } from same] at fresh
      exact fresh)
    dsimp only
    rcases second : h.onStudio (Studio.prepare seconds) with ⟨result, k⟩
    have prepared := Studio.runFrom_prepare_eq { h.studio with journal := #[] } seconds
    have same := same.trans (Hall.onStudio_same (fun t ran => by rw [prepared] at ran; cases ran; rfl) second)
    have turned : k.stage.Turns task := (Hall.onStudio_readies turned.toManned second).turns turned
    obtain ⟨loop', -, parts'⟩ := Hall.onStudio_stage second
    have loop := loop'.trans loop
    have parts := parts'.trans parts
    cases result with
    | error f => exact .left (.of_leave (h := { k with active := none }) turned (.inr ⟨same, nobody parts⟩))
    | ok mix =>
      have obliging : mix.engine.Obliging :=
        Studio.prepare_obliging (s := { h.studio with journal := #[] }) willing (congrArg Prod.fst second)
      rw [← parts, ← loop] at vacant
      rw [← parts] at apart ⊢
      exact begins_under turned vacant apart obliging same

end opening

/-- The main run of the performance has come to its end, and the render hears of it. -/
theorem Awaits.turn (awaits : c.Awaits h plan x) (ordered : h.Ordered) {r : Reply (Value α)}
    (active : h.stage.loop.active = some (c.task, r)) : ∃ y, c.Closes (h.deliver c.task r) plan y := by
  have turns : h.stage.Turns c.task := ⟨ordered.manned, r, active⟩
  have idle := (ordered.manned.loop.active c.task r active).2.1
  have main (v : Value α) (value : r = .value v) : x.performance.hasFinished 0 = true := by
    rcases awaits.expects with ⟨_, _, waits⟩ | ⟨s, goes, ended⟩
    · cases idle.symm.trans waits
    · cases active.symm.trans goes
      exact ended v value
  have delivered : h.deliver c.task r = { h with
      stage := h.stage.closeMain c.task (.studio (.rendering c.part plan) :: c.frames) c.part 0 r } := by
    simp only [Hall.deliver, Stage.deliver, awaits.calls]
  obtain ⟨u, v, closed, loop, listeners, parts, engines, same⟩ :=
    h.stage.closeMain_leaves c.task (.studio (.rendering c.part plan) :: c.frames) c.part 0 r
  obtain rfl := same x awaits.staffed.found awaits.staffed.generation
  obtain ⟨y, found, rests⟩ := parts c.part x awaits.staffed.found
  have turned : u.Turns c.task := ⟨ordered.manned.of_loop loop listeners, v, loop ▸ active⟩
  have began : h.stage.Passes (· = c.task) (· ≠ c.part) u :=
    .of_loop ordered.manned (by rw [loop]; exact .refl ordered.manned.loop) fun x member => .inl (listeners ▸ member)
  have left : (u.onLoop (·.leave c.task (.studio (.rendering c.part plan) :: c.frames) v)).loop.frames c.task =
      .studio (.rendering c.part plan) :: c.frames :=
    Loop.leave_frames turned.loop (loop ▸ active) (.studio (.rendering c.part plan) :: c.frames) v
  have foreign (i : Nat) : .run c.part i ∉ h.stage.loop.frames c.task := by
    simpa [awaits.calls] using awaits.apart i
  have staffed := awaits.staffed.others turns (awaits.staffed.strange awaits.pending foreign)
    (began.trans (turned.leave (.studio (.rendering c.part plan) :: c.frames) v))
    (fun i member => absurd member (by simpa [left] using awaits.apart i)) found rests
    fun i e there => ⟨e, engines i e there, .refl e⟩
  rw [delivered, closed]
  refine ⟨y, left, awaits.studio, staffed, v, rfl, fun w value => staffed.tended.finished ?_⟩
  rw [Performance.hasFinished, Performance.outcome?, rests.runs]
  exact main w value

omit [Scalar α] in
/-- Others have moved, and the render waits on. -/
theorem Awaits.stays (awaits : c.Awaits h plan x) {moved : Nat → Prop} {P : List (Frame α) → Prop} {y : Part α}
    (remains : h.stage.loop.Remains moved P k.stage.loop) (still : ¬ moved c.task)
    (idle : ∀ r, h.stage.loop.active ≠ some (c.task, r)) (studio : k.studio = h.studio)
    (staffed : k.stage.Staffed (fun _ => False) c.part y)
    (kept : ∀ i d : Nat, x.cells[i]? = some d → y.cells[i]? = some d) : c.Awaits k plan y := by
  obtain ⟨result, calls, waits⟩ := remains.tasks c.task (Loop.kind_of_frames awaits.calls) still
  refine ⟨calls.trans awaits.calls, awaits.apart, studio ▸ awaits.studio, staffed, result.trans awaits.pending, ?_⟩
  rcases awaits.expects with ⟨d, cell, expected⟩ | ⟨r, goes, -⟩
  · exact .inl ⟨d, kept 0 d cell, waits.trans expected⟩
  · exact absurd goes (idle r)

section other

variable {task : Nat} {r : Reply (Value α)} (awaits : c.Awaits h plan x) (ordered : h.Ordered)
  (active : h.stage.loop.active = some (task, r)) (different : task ≠ c.task)
include awaits ordered active different

/-- Another task takes its turn on the stage while the render waits. -/
theorem Awaits.delivers {y : Part α} (delivered : h.deliver task r = { h with stage := h.stage.deliver task r })
    (staffed : (h.stage.deliver task r).Staffed (fun _ => False) c.part y)
    (kept : ∀ i d : Nat, x.cells[i]? = some d → y.cells[i]? = some d) : c.Awaits (h.deliver task r) plan y := by
  have passes : h.stage.Passes (· = task) (fun _ => True) (h.stage.deliver task r) :=
    Stage.deliver_passes ⟨ordered.manned, r, active⟩ r fun _ _ _ _ => trivial
  rw [delivered]
  refine awaits.stays passes.loop (Ne.symm different) (fun s same => ?_) rfl staffed kept
  cases active.symm.trans same
  contradiction

/-- A task of the part takes its turn. -/
theorem Awaits.inside {i : Nat} (cell : x.cells[i]? = some task) : ∃ y, c.Awaits (h.deliver task r) plan y := by
  obtain ⟨run, there⟩ := awaits.staffed.run cell
  have delivered : h.deliver task r = { h with stage := h.stage.deliver task r } := by
    have open_ := (ordered.manned.loop.active task r active).2.2
    unfold Hall.deliver
    rcases (awaits.staffed.attends i task run cell there id).calls open_ with calls | ⟨⟨top, pause, calls⟩, -⟩
    · rw [calls]
    · rw [calls]
      cases top <;> first | rfl | cases pause
  obtain ⟨y, staffed, kept⟩ := awaits.staffed.deliver_own ordered.manned active cell
  exact ⟨y, awaits.delivers ordered active different delivered staffed kept⟩

/-- A task outside of the part takes its turn in a call that does not operate on it. -/
theorem Awaits.outside (unseen : ∀ i : Nat, x.cells[i]? ≠ some task)
    (apart : (h.stage.loop.frames task).head?.all (Frame.isApart c.part) = true) :
    c.Awaits (h.deliver task r) plan x := by
  have turns : h.stage.Turns task := ⟨ordered.manned, r, active⟩
  have foreign (i : Nat) : .run c.part i ∉ h.stage.loop.frames task := fun member =>
    unseen i (awaits.staffed.own task i member)
  by_cases live : (h.stage.loop.frames task).head? = some (.studio .live)
  · obtain ⟨frames, calls⟩ := List.head?_eq_some_iff.mp live
    have left := Loop.leave_frames turns.loop active frames r
    have staffed := awaits.staffed.elsewhere turns foreign (turns.leave frames r)
      (fun i member => foreign i (calls ▸ List.mem_cons_of_mem _ (left ▸ member))) rfl rfl
    have remains : h.stage.Passes (· = task) (fun _ => True) _ := turns.leave frames r
    have delivered : h.deliver task r = h.deliverStudio task frames r .live := by rw [Hall.deliver, calls]
    rw [delivered]
    refine awaits.stays remains.loop (Ne.symm different) (fun s same => ?_) rfl staffed fun _ _ => id
    cases active.symm.trans same
    contradiction
  · have elsewhere (frame : Frame α) (first : frame ∈ (h.stage.loop.frames task).head?)
        (acts : frame.operates = true) : frame.part ≠ c.part := by
      intro same
      rw [first] at apart
      cases frame with
      | run k i => exact foreign i (same ▸ List.mem_of_mem_head? first)
      | open_ | main | conductor => simp [Frame.isApart, acts, same] at apart
      | _ => cases acts
    have delivered : h.deliver task r = { h with stage := h.stage.deliver task r } := by
      unfold Hall.deliver
      split
      · rename_i frame frames calls
        rw [calls] at apart live
        cases frame <;> first | exact absurd rfl live | cases apart
      · rfl
    have staffed := awaits.staffed.deliver_other turns unseen (r := r) elsewhere
    exact awaits.delivers ordered active different delivered staffed fun _ _ => id

/-- Another task takes its turn while the render waits. -/
theorem Awaits.other (alone : h.undisturbed c.task c.part = true) : ∃ y, c.Awaits (h.deliver task r) plan y := by
  by_cases seen : ∃ i : Nat, x.cells[i]? = some task
  · obtain ⟨i, cell⟩ := seen
    exact awaits.inside ordered active different cell
  · refine ⟨x, awaits.outside ordered active different (fun i cell => seen ⟨i, cell⟩) ?_⟩
    simpa [Hall.undisturbed, active, different] using alone

end other

omit [Scalar α] in
/-- The loop goes on while the render waits. -/
theorem Awaits.called (awaits : c.Awaits h plan x) (ordered : h.Ordered) (idle : h.stage.loop.active = none)
    {cb : Callback} {rest : List Callback} (next : h.stage.loop.round = cb :: rest) :
    c.Awaits (h.onLoop fun l => { l with round := rest }.run .nothing cb) plan x := by
  have began : h.stage.loop.Stays { h.stage.loop with round := rest } := .of_cells rfl
  have stays := began.trans (Loop.run_stays _ Value.nothing cb)
  have kind := Loop.kind_of_frames awaits.calls
  refine ⟨(stays.frames c.task).trans awaits.calls, awaits.apart, awaits.studio,
    awaits.staffed.called ordered.manned idle next,
    (Loop.run_result? ordered.manned.loop next Value.nothing kind).trans awaits.pending, ?_⟩
  rcases awaits.expects with ⟨d, cell, waits⟩ | ⟨r, goes, -⟩
  · rcases Loop.run_waits ordered.manned.loop next Value.nothing awaits.pending waits with still | ⟨r, goes, given⟩
    · exact .inl ⟨d, cell, still⟩
    · refine .inr ⟨r, goes, fun v value => ?_⟩
      rcases given with rfl | done
      · cases value
      · exact awaits.staffed.finished cell (value ▸ done)
  · cases idle.symm.trans goes

/-- While the render waits nobody takes it out of its call but the main run. -/
theorem Awaits.step? (awaits : c.Awaits h plan x) (ordered : h.Ordered) (alone : h.undisturbed c.task c.part = true)
    (stepped : h.step? = some k) : c.Under k := by
  cases Hall.stepped_of_step? stepped with
  | @turn task r active =>
    by_cases own : task = c.task
    · subst own
      obtain ⟨y, closes⟩ := awaits.turn ordered active
      exact .closes closes
    · obtain ⟨y, awaits⟩ := awaits.other ordered active own alone
      exact .awaits awaits
  | call idle next => exact .awaits (awaits.called ordered idle next)
  | @round l idle drained begun =>
    have passes : h.stage.loop.Passes (fun _ => False) (fun _ => True) l :=
      Loop.nextRound?_passes ordered.manned.loop drained begun
    exact .awaits (awaits.stays passes.toRemains id (fun r goes => by cases idle.symm.trans goes) rfl
      (awaits.staffed.nextRound ordered.manned drained begun) fun _ _ => id)

/-- The render ends: with a buffer, or with nothing left to be done. -/
theorem Closes.step? (closes : c.Closes h plan x) (ordered : h.Ordered) (dated : x.performance.Dated)
    (stepped : h.step? = some k) : c.Left k := by
  obtain ⟨r, active, finished⟩ := closes.hears
  have turns : h.stage.Turns c.task := ⟨ordered.manned, r, active⟩
  have delivered : h.step? = some (h.closeRender c.task c.frames c.part plan r) := by
    simp only [Hall.step?, active, Hall.deliver, closes.calls, Hall.deliverStudio]
  obtain rfl := Option.some.inj (delivered.symm.trans stepped)
  unfold Hall.closeRender
  split
  · rename_i position
    dsimp only
    split
    · rename_i buffer g ran
      exact .of_leave (h := { g with active := none }) ((Hall.onStudio_readies turns.toManned ran).turns turns) (.inl rfl)
    · rename_i f g ran
      have same := Hall.onStudio_same (fun t failed => Studio.finishRender_failed failed) ran
      obtain ⟨-, -, parts⟩ := Hall.onStudio_stage ran
      have quit : g.Quit c.part := by
        intro y there
        rw [parts, closes.staffed.found] at there
        cases there
        exact .of_finished (finished _ rfl)
      exact .of_leave (h := { g with active := none }) ((Hall.onStudio_readies turns.toManned ran).turns turns)
        (.inr ⟨closes.studio.trans same, quit⟩)
  · have readies : h.stage.Readies (h.stage.execPart c.part Performance.forceStop) :=
      .onPart turns.toManned (fun p => p.forceStop_continues) (Prod.eta _).symm
    exact .of_leave (h := { h with stage := h.stage.execPart c.part Performance.forceStop, active := none })
      (readies.turns turns)
      (.inr ⟨closes.studio, fun y => Stage.execPart_forceStop_spent closes.staffed.found closes.staffed.obliging dated⟩)

/-- As long as the render has not left its call, the next small step keeps it in order. -/
theorem Under.step? (under : c.Under h) (ordered : h.Ordered) (inside : c.frames.length < (h.stage.loop.frames c.task).length)
    (alone : h.undisturbed c.task c.part = true)
    (dated : ∀ x, h.stage.parts[c.part]? = some x → x.performance.Dated) (stepped : h.step? = some k) :
    c.Under k := by
  cases under with
  | awaits awaits => exact awaits.step? ordered alone stepped
  | closes closes => exact .left (closes.step? ordered (dated _ closes.staffed.found) stepped)
  | left left => exact absurd inside (by rw [left.calls]; exact Nat.lt_irrefl _)

end RenderCall

namespace Hall

variable [Scalar α] {h k g : Hall α} {task : Nat} {frames : List (Frame α)}

theorem after_succ (h : Hall α) (n : Nat) : h.after (n + 1) = ((h.after n).step?).getD (h.after n) := by
  induction n generalizing h with
  | zero =>
    simp only [after]
    cases h.step? <;> rfl
  | succ n ih =>
    cases stepped : h.step? with
    | none => simp only [after, stepped, Option.getD_none]
    | some later =>
      have first (n : Nat) : h.after (n + 1) = later.after n := by simp only [after, stepped]
      rw [first, first, ih]

omit [Scalar α] in
theorem Ordered.of_same (ordered : h.Ordered) (loop : k.stage.loop = h.stage.loop)
    (listeners : k.stage.listeners = h.stage.listeners) (parts : k.stage.parts = h.stage.parts) : k.Ordered where
  manned := ordered.manned.of_loop loop listeners
  housed c j i member := parts ▸ ordered.housed c j i (loop ▸ member)

theorem renders?_opens (ordered : h.Ordered) (opens : h.renders? = some (task, frames, g)) :
    h.step? = some (g.openRender task frames) ∧ g.Ordered ∧ g.stage.Turns task ∧
      ∀ i, .run g.stage.parts.size i ∉ frames := by
  unfold renders? at opens
  split at opens
  · cases opens
  · rename_i own r active
    have turns : h.stage.Turns own := ⟨ordered.manned, r, active⟩
    split at opens
    · rename_i calls
      cases r with
      | raised x => cases opens
      | value v =>
        cases opens
        refine ⟨by simp only [step?, active, deliver, calls, deliverStudio], ordered, turns, fun i member => ?_⟩
        exact absurd (ordered.housed task _ i (calls ▸ List.mem_cons_of_mem _ member)) (Nat.lt_irrefl _)
    · rename_i cue rest busy outer calls
      obtain ⟨k, told, loop, listeners, parts⟩ : ∃ k, (if busy then h.report r else h) = k ∧
          k.stage.loop = h.stage.loop ∧ k.stage.listeners = h.stage.listeners ∧ k.stage.parts = h.stage.parts := by
        cases busy <;> exact ⟨_, rfl, rfl, rfl, rfl⟩
      rw [told] at opens
      have reported := ordered.of_same loop listeners parts
      have housed {i : Nat} (member : .run h.stage.parts.size i ∈ outer) : False :=
        absurd (ordered.housed own _ i (calls ▸ List.mem_cons_of_mem _ member)) (Nat.lt_irrefl _)
      cases cue with
      | render =>
        cases opens
        refine ⟨by simp only [step?, active, deliver, calls, deliverStudio, told, carryOut], reported,
          ⟨reported.manned, r, loop ▸ active⟩, fun i member => ?_⟩
        rw [parts] at member
        exact housed ((List.mem_cons.mp member).resolve_left (by simp))
      | perform code =>
        dsimp only at opens
        rcases parsed : k.onStudio (Studio.parse code) with ⟨result, l⟩
        rw [parsed] at opens
        cases opens
        obtain ⟨loop', listeners', parts'⟩ := onStudio_stage parsed
        have revised := reported.of_same loop' listeners' parts'
        refine ⟨by simp only [step?, active, deliver, calls, deliverStudio, told, carryOut, parsed], revised,
          ⟨revised.manned, r, loop'.trans loop ▸ active⟩, fun i member => ?_⟩
        rw [parts', parts] at member
        exact housed (by simpa using member)
      | _ => cases opens
    · cases opens

/-- Between two small steps a task is in a render that it opens in the first one, and of which it
hears in the last one that it has failed; meanwhile nobody else operates on the studio. -/
structure Fails (trace : Nat → Hall α) (n m task : Nat) (frames : List (Frame α)) (g : Hall α) : Prop where
  opens : (trace n).renders? = some (task, frames, g)
  later : n < m
  inside : ∀ i, n < i → i < m → frames.length < ((trace i).stage.loop.frames task).length
  alone : ∀ i, n < i → i < m → (trace i).undisturbed task g.stage.parts.size = true
  outside : ((trace m).stage.loop.frames task).length ≤ frames.length
  raised : ((trace m).raised? task).isSome = true

/-- Until it is left, a render is in order. -/
theorem Fails.under {n m : Nat} (fails : Fails h.after n m task frames g) (ordered : h.Ordered)
    (dated : ∀ (i part : Nat) (x : Part α), (h.after i).stage.parts[part]? = some x → x.performance.Dated)
    (willing : ∀ seconds mix, g.studio.tools.newMix seconds g.studio.config = .ok mix → mix.engine.Obliging)
    {i : Nat} (begun : n < i) (before : i ≤ m) :
    RenderCall.Under ⟨g.studio, task, frames, g.stage.parts.size⟩ (h.after i) := by
  induction i, begun using Nat.le_induction with
  | base =>
    obtain ⟨stepped, found, turns, apart⟩ := renders?_opens (ordered.after n) fails.opens
    rw [after_succ, stepped, Option.getD_some]
    exact RenderCall.openRender_under found turns apart willing
  | succ i begun ih =>
    have under := ih (Nat.le_of_succ_le before)
    rw [after_succ]
    cases stepped : (h.after i).step? with
    | none => exact under
    | some k =>
      exact under.step? (ordered.after i) (fails.inside i begun before) (fails.alone i begun before)
        (dated i g.stage.parts.size) stepped

/-- A failed render changes nothing. Whatever calls came before and however they overlap, and
whichever way the render fails, on an engine that takes whatever is set on its voices and with
nobody else operating on the studio: when its caller hears of it, the studio is what the render
found, but for its journal, and none of the runs that it has begun dispatches a command again,
whatever happens later. -/
theorem failed_render_leaves_no_trace {studio : Studio α} {engines : List (Engine α)} {cues : List (StudioCue α)}
    {h : Nat → Hall α} (steps : h = (directed studio engines cues).after) {n m task : Nat} {frames : List (Frame α)}
    {g : Hall α} (fails : Fails h n m task frames g)
    (willing : ∀ seconds mix, g.studio.tools.newMix seconds g.studio.config = .ok mix → mix.engine.Obliging) :
    (h m).studio = { g.studio with journal := (h m).studio.journal } ∧
      ∀ (k : Hall α) (run : Nat) (command : Command), (h m).Reaches k →
        k.dispatched? = some (g.stage.parts.size, run, command) → (h m).runCount g.stage.parts.size ≤ run := by
  subst steps
  have dated (i part : Nat) (x : Part α)
      (found : ((directed studio engines cues).after i).stage.parts[part]? = some x) : x.performance.Dated :=
    Reaches.dated (.head (.schedule _ _) (after_reaches (directed studio engines cues) i)) found
  have under := fails.under (directed_ordered studio engines cues) dated willing fails.later (Nat.le_refl m)
  have few := fails.outside
  cases under with
  | awaits awaits =>
    rw [awaits.calls] at few
    dsimp only [List.length_cons] at few
    omega
  | closes closes =>
    rw [closes.calls] at few
    dsimp only [List.length_cons] at few
    omega
  | left left =>
    rcases left.failed with quiet | ⟨same, quit⟩
    · have raised := fails.raised
      rw [quiet] at raised
      cases raised
    · exact ⟨same, fun k run command reached dispatches => quit.undispatched reached dispatches⟩

def faltering : Studio ℚ :=
  { Studio.initial default { Tools.fileless with
      newMix := fun seconds config => (MixPlan.ofConfig seconds config).map fun plan =>
        ⟨plan, { failing := [("flute", Mode.all.map Mode.name)] }⟩ } none {} with
    blocks := [("main", ["play together lead flute"]), ("lead", ["waitsec 1", "volume 50 0 1"]),
      ("flute", ["waitsec 1"])]
    rendered := some ⟨.ofColumns 1 #[#[1]], 1⟩ }

def faltered : Nat → Hall ℚ := (directed faltering [] [.render]).after

theorem faltered_vacant : (faltered 2).stage.parts.size = 0 := by decide +kernel

theorem faltered_willing (seconds : ℚ) (mix : Mixdown ℚ)
    (made : (faltered 2).studio.tools.newMix seconds (faltered 2).studio.config = .ok mix) : mix.engine.Obliging := by
  have tools : (faltered 2).studio.tools = faltering.tools := rfl
  rw [tools] at made
  change (MixPlan.ofConfig seconds _).map _ = .ok mix at made
  cases planned : MixPlan.ofConfig seconds (faltered 2).studio.config with
  | error f =>
    rw [planned] at made
    cases made
  | ok plan =>
    rw [planned] at made
    cases made
    exact fun _ _ _ => rfl

theorem faltered_fails : Fails faltered 2 14 0 [.studio (.director [] true)] (faltered 2) where
  opens := rfl
  later := by decide
  inside := by
    have inside : ∀ i < 14, 2 < i → 1 < ((faltered i).stage.loop.frames 0).length := by decide +kernel
    exact fun i begun before => inside i before begun
  alone := by
    rw [faltered_vacant]
    have alone : ∀ i < 14, 2 < i → (faltered i).undisturbed 0 0 = true := by decide +kernel
    exact fun i begun before => alone i before begun
  outside := by
    have outside : ((faltered 14).stage.loop.frames 0).length = 1 := by decide +kernel
    exact Nat.le_of_eq outside
  raised := by decide +kernel

/-- The block that is played waits when the other one fails; it goes no further, and the buffer of
the studio is the one it had. -/
theorem failed_render_leaves_no_trace_faltered :
    Fails faltered 2 14 0 [.studio (.director [] true)] (faltered 2) ∧ (faltered 14).runCount 0 = 2 ∧
      (faltered 14).studio.rendered = faltering.rendered ∧
      ∀ (k : Hall ℚ) (command : Command), (faltered 14).Reaches k → k.dispatched? ≠ some (0, 1, command) := by
  have count : (faltered 14).runCount 0 = 2 := by decide +kernel
  have found : (faltered 2).studio.rendered = faltering.rendered := rfl
  have steps : faltered = (directed faltering [] [.render]).after := rfl
  obtain ⟨same, quiet⟩ := failed_render_leaves_no_trace steps faltered_fails faltered_willing
  rw [faltered_vacant] at quiet
  have kept := congrArg Studio.rendered same
  dsimp only at kept
  refine ⟨faltered_fails, count, kept.trans found, fun k command reached dispatches => ?_⟩
  have old := quiet k 1 command reached dispatches
  rw [count] at old
  exact absurd old (by decide)

end Hall

end Partita
