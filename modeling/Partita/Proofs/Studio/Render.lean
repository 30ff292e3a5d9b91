import Partita.Proofs.Stage.Watch
import Partita.Proofs.Studio.Faults
import Partita.Proofs.Studio.Reach

/-! What the caller of a render is told. The length of the script is estimated first, and an
estimate that fails is passed on as it is. From then on, however the performance goes and
whatever the mix comes to, there is a buffer, a cancellation, or a fault of the kinds that
callers of a render are to expect, unless a note has a tail, an attack or a decay of more samples
than an index counts. -/
namespace Partita

open Score Text

variable {α β : Type}

/-- What a render may come to: a buffer, a cancellation, or a fault that its callers are to
expect. -/
inductive Reply.IsRender : Reply (Value α) → Prop
  | buffer (b : Buffer α) : IsRender (.value (.buffer b))
  | cancelled : IsRender (.raised .cancelled)
  | fault {f : Fault} (kind : f.kind ∈ Fault.renderKinds) : IsRender (.raised (.fault f))

def Reply.fault? {β : Type} : Reply β → Option Fault
  | .raised (.fault f) => some f
  | _ => none

def Stage.Stocks (s : Stage α) (part : Nat) : Prop :=
  ∃ x e, s.parts[part]? = some x ∧ s.engines[x.engine]? = some e ∧ e.Stocked

theorem Stage.Stocks.follows [Scalar α] {F : Fault → Prop} {s t : Stage α} {part : Nat} (stocks : s.Stocks part)
    (later : s.Follows F t) : t.Stocks part := by
  obtain ⟨x, e, found, held, stocked⟩ := stocks
  have inside := (Array.getElem?_eq_some_iff.mp found).1
  have there := Array.getElem?_eq_getElem (Nat.lt_of_lt_of_le inside later.size)
  obtain ⟨f, held, alike⟩ := later.engines _ e held
  rcases later.parts part _ there with ⟨_, old, same, -⟩ | ⟨new, -⟩
  · cases found.symm.trans old
    exact ⟨_, f, there, same ▸ held, alike.stocked stocked⟩
  · exact absurd inside (Nat.not_lt.mpr new)

namespace Hall

section

variable [Scalar α]

abbrev lastCall : List (Frame α) := [.studio (.director [] true)]

/-- A director that has heard the outcome of its last cue and is about to report it. -/
structure Reporting (r : Reply (Value α)) (h : Hall α) : Prop where
  active : h.stage.loop.active = some (0, r)
  waiting : ∃ callbacks awaiting mustCancel, h.stage.loop.cells[0]? =
    some ⟨none, callbacks, .task ⟨lastCall, awaiting, mustCancel⟩⟩
  reports : h.reports = #[]

theorem runUntil_step {h later : Hall α} {cell : Nat} (waits : h.stage.loop.isDone cell = false)
    (stepped : h.step? = some later) (fuel : Nat) : runUntil cell (fuel + 1) h = runUntil cell fuel later := by
  rw [runUntil, waits, stepped]
  rfl

theorem runUntil_cases (cell fuel : Nat) (h : Hall α) : runUntil cell (fuel + 1) h = h ∨
    ∃ later, h.step? = some later ∧ runUntil cell (fuel + 1) h = runUntil cell fuel later := by
  rw [runUntil]
  split
  · exact .inl rfl
  · split
    · exact .inr ⟨_, ‹_›, rfl⟩
    · exact .inl rfl

def reported (h : Hall α) (r : Reply (Value α)) : Hall α := (h.report r).leave 0 [] (.value .nothing)

theorem Reporting.runUntil {r : Reply (Value α)} {h : Hall α} (reporting : h.Reporting r) (fuel : Nat) :
    runUntil 0 (fuel + 1) h = h.reported r ∧ (h.reported r).reports.map (·.outcome) = #[r] := by
  obtain ⟨callbacks, awaiting, mustCancel, there⟩ := reporting.waiting
  have waits : h.stage.loop.isDone 0 = false := by simp [Loop.isDone, Loop.result?, there]
  have frames : h.stage.loop.frames 0 = lastCall := by simp [Loop.frames, there]
  have stepped : h.step? = some (h.reported r) := by
    simp [step?, reporting.active, deliver, frames, deliverStudio, Hall.reported]
  have ended : (h.reported r).stage.loop.isDone 0 = true := by
    have inside := (Array.getElem?_eq_some_iff.mp there).1
    change (Loop.leave h.stage.loop 0 [] _).isDone 0 = true
    rw [Loop.leave, Loop.complete_setTask there]
    simp [Loop.isDone, Loop.result?, inside]
  refine ⟨?_, by simp [Hall.reported, leave, onLoop, report, reporting.reports]⟩
  rw [runUntil_step waits stepped]
  cases fuel with
  | zero => rfl
  | succ fuel => rw [Hall.runUntil, ended, if_pos rfl]

/-- Whatever is reported from here on has a property, in the hall that is left. -/
def Reports (O : Hall α → Reply (Value α) → Prop) (h : Hall α) : Prop :=
  ∀ fuel, ∀ report ∈ (runUntil 0 fuel h).reports, O (runUntil 0 fuel h) report.outcome

theorem Reports.of_step {O : Hall α → Reply (Value α) → Prop} {h : Hall α} (none : h.reports = #[])
    (rest : ∀ later, h.step? = some later → later.Reports O) : h.Reports O := by
  intro fuel
  cases fuel with
  | zero => simp [runUntil, none]
  | succ fuel =>
    obtain same | ⟨later, stepped, same⟩ := runUntil_cases 0 fuel h
    · simp [same, none]
    · rw [same]
      exact rest later stepped fuel

theorem Reporting.reports_of {O : Hall α → Reply (Value α) → Prop} {r : Reply (Value α)} {h : Hall α}
    (reporting : h.Reporting r) (holds : O (h.reported r) r) : h.Reports O := by
  intro fuel report member
  cases fuel with
  | zero => simp [Hall.runUntil, reporting.reports] at member
  | succ fuel =>
    obtain ⟨same, only⟩ := reporting.runUntil fuel
    rw [same] at member ⊢
    have listed := Array.mem_map_of_mem (f := (·.outcome)) member
    rw [only] at listed
    rw [Array.mem_singleton.mp listed]
    exact holds

omit [Scalar α] in
theorem Reporting.of_keeps {v : Vigil α} {h : Hall α} {r : Reply (Value α)} (keeps : h.stage.loop.Keeps v)
    (waiter : v.waiter = 0) (frames : v.frames = lastCall)
    (active : h.stage.loop.active = some (0, r)) (reports : h.reports = #[]) : h.Reporting r := by
  obtain ⟨⟨result, callbacks, role⟩, there⟩ : ∃ x, h.stage.loop.cells[0]? = some x :=
    ⟨_, Array.getElem?_eq_getElem (waiter ▸ keeps.waiter)⟩
  obtain ⟨none, ⟨own, awaiting, mustCancel⟩, task, same⟩ := (keeps.cells 0 _ there).waiter waiter.symm
  obtain rfl : result = Option.none := none
  obtain rfl : role = .task ⟨own, awaiting, mustCancel⟩ := task
  obtain rfl : own = lastCall := same.trans frames
  exact ⟨active, ⟨callbacks, awaiting, mustCancel, there⟩, reports⟩

end

end Hall

def Fault.IsSetup (f : Fault) : Prop := f.isSetup = true

theorem Fault.IsSetup.kind {f : Fault} (setup : f.IsSetup) : f.kind = "EngineSetupError" := beq_iff_eq.mp setup

/-- Whether the engine of a part was asked to play a note of a kind. -/
def Stage.plays (kind : Note α → Bool) (part : Nat) (s : Stage α) : Bool :=
  (s.parts[part]?.bind fun x => s.engines[x.engine]?).any (Mix.plays kind)

namespace Hall

variable [Acoustic α]

/-- The director of a hall waits in some calls for the main run. -/
def vigil (frames : List (Frame α)) : Vigil α := ⟨0, 1, by decide, frames, Fault.IsSetup, false⟩

/-- What a render comes to. A note with an endless tail makes for a fault that escapes. Where
there is one with an endless ramp, what it comes to is left open. -/
def Renders.Ends (rate : Int) (part : Nat) (h : Hall α) (r : Reply (Value α)) : Prop :=
  r.IsRender ∨ r = .raised (.fault .paddingLimit) ∧ h.stage.plays (Mix.hasEndlessTail rate) part = true ∨
    h.stage.plays (Mix.hasEndlessRamp rate) part = true

/-- A render under way, whatever the director waits in. -/
structure Renders (frames : List (Frame α)) (part : Nat) (plan : MixPlan α) (h : Hall α) : Prop where
  stage : h.stage.Keeps (vigil frames)
  failing : h.stage.FailsWith Fault.IsSetup
  stocks : h.stage.Stocks part
  renders : h.studio.tools.render = Mixdown.render
  positive : 0 < plan.rate
  reports : h.reports = #[]

variable (signed : Scalar.Signed α) {part : Nat} {plan : MixPlan α} {h : Hall α} {r : Reply (Value α)}

theorem Renders.goesOn {frames later : List (Frame α)} {stage : Stage α} (renders : h.Renders frames part plan)
    (keeps : stage.Keeps (vigil later)) (follows : h.stage.Follows Fault.IsSetup stage) :
    Renders later part plan { h with stage } :=
  ⟨keeps, renders.failing.follows follows, renders.stocks.follows follows, renders.renders, renders.positive,
    renders.reports⟩

omit [Acoustic α] in
theorem renderReply_isRender (ended : r.OfRun Fault.IsSetup) (other : ∀ position, r ≠ .value (.number position)) :
    (renderReply r).IsRender := by
  cases ended with
  | finished position => exact absurd rfl (other position)
  | cancelled => exact .cancelled
  | failed setup => exact .fault (Fault.IsTold.inRender (.inl (by rw [setup.kind]; decide)))

abbrev mixing (part : Nat) (plan : MixPlan α) : List (Frame α) := .studio (.rendering part plan) :: lastCall

abbrev performing (part generation : Nat) (plan : MixPlan α) : List (Frame α) :=
  .main part generation :: mixing part plan

include signed in
/-- The performance of a render has ended: the director is told of a buffer, or of a fault
that it is to expect. -/
theorem closeRender_reports (renders : h.Renders (mixing part plan) part plan) (ended : r.OfRun Fault.IsSetup) :
    (h.closeRender 0 lastCall part plan r).Reports (Renders.Ends plan.rate part) := by
  have left (g : Hall α) (keeps : g.stage.Keeps (vigil (mixing part plan))) (reports : g.reports = #[])
      (s : Reply (Value α)) : (g.leaveIdle 0 lastCall s).Reporting s :=
    .of_keeps (keeps.loop.relieve lastCall (some (0, s))) rfl rfl rfl reports
  unfold closeRender
  split
  · rename_i position
    obtain ⟨x, e, found, held, stocked⟩ := renders.stocks
    have engine : (h.stage.parts[part]?.bind fun p => h.stage.engines[p.engine]?).getD {} = e := by
      simp [found, held]
    simp only [engine]
    have told {f : Fault} (failed : (h.onStudio (Studio.finishRender ⟨plan, e⟩ position)).1 = .error f) :
        f.IsTold ∨ f = .paddingLimit ∧ (h.onStudio (Studio.finishRender ⟨plan, e⟩ position)).2.stage.plays
          (Mix.hasEndlessTail plan.rate) part = true := by
      refine (Studio.finishRender_told (s := { h.studio with journal := #[] }) signed renders.renders
        renders.positive stocked position failed).imp_right (And.imp_right fun endless => ?_)
      change h.stage.plays (Mix.hasEndlessTail plan.rate) part = true
      simpa [Stage.plays, found, held] using endless
    have later := left (h.onStudio (Studio.finishRender ⟨plan, e⟩ position)).2
      ⟨renders.stage.loop, renders.stage.listeners⟩ renders.reports
    rcases ran : h.onStudio (Studio.finishRender ⟨plan, e⟩ position) with ⟨result, g⟩
    rw [ran] at told later
    cases result with
    | ok buffer => exact (later _).reports_of (.inl (.buffer buffer))
    | error f =>
      refine (later _).reports_of ?_
      rcases told rfl with told | ⟨rfl, endless⟩
      · exact .inl (.fault told.inRender)
      · exact .inr (.inl ⟨rfl, endless⟩)
  · rename_i other
    exact (left { h with stage := _ } (renders.stage.onPart part _) renders.reports _).reports_of
      (.inl (renderReply_isRender ended fun position => other position))

include signed in
theorem Renders.reports_of_mixing (renders : h.Renders (mixing part plan) part plan)
    (active : h.stage.loop.active = some (0, r)) (ended : r.OfRun Fault.IsSetup) : h.Reports (Renders.Ends plan.rate part) := by
  have frames : h.stage.loop.frames 0 = mixing part plan := renders.stage.loop.frames_waiter
  refine .of_step renders.reports fun later stepped => ?_
  simp only [step?, active, deliver, frames, deliverStudio, Option.some.injEq] at stepped
  exact stepped ▸ closeRender_reports signed renders ended

include signed in
/-- The main run of a render has ended, and the director has heard of it. -/
theorem Renders.reports_of_hears {generation : Nat}
    (renders : h.Renders (performing part generation plan) part plan)
    (hears : h.stage.Hears (vigil (performing part generation plan))) : h.Reports (Renders.Ends plan.rate part) := by
  obtain ⟨r, active, ended⟩ := hears.loop.heard
  have frames : h.stage.loop.frames 0 = performing part generation plan := renders.stage.loop.frames_waiter
  have active : h.stage.loop.active = some (0, r) := active
  refine .of_step renders.reports fun later stepped => ?_
  simp only [step?, active, deliver, frames, Stage.deliver, Option.some.injEq] at stepped
  subst stepped
  have closed := renders.stage.closeMain ended (.studio (.rendering part plan)) lastCall part generation
  have follows := h.stage.closeMain_follows (F := Fault.IsSetup) 0 (mixing part plan) part generation r
  obtain ⟨s, active, ended⟩ := closed.loop.heard
  exact (renders.goesOn ⟨closed.loop.toKeeps, closed.listeners⟩ follows).reports_of_mixing signed active ended

omit [Acoustic α] in
theorem step?_of_rests [Scalar α] {v : Vigil α} (rests : h.stage.Rests v) :
    h.step? = h.stage.step?.map fun stage => { h with stage } := by
  cases active : h.stage.loop.active with
  | none => simp only [step?, active]
  | some turn =>
    obtain ⟨task, r⟩ := turn
    have inner := rests.loop.toKeeps.inner (rests.loop.active task r active).1
    simp only [step?, active, Stage.step?, Option.map_some, Option.some.injEq]
    unfold deliver
    split
    · rename_i frames
      simp [frames, Frame.isInner] at inner
    · rfl

include signed in
/-- The director of a render waits while others are at work. -/
theorem Renders.reports_of_rests {generation : Nat}
    (renders : h.Renders (performing part generation plan) part plan)
    (rests : h.stage.Rests (vigil (performing part generation plan))) : h.Reports (Renders.Ends plan.rate part) := by
  intro fuel
  induction fuel generalizing h with
  | zero => simp [runUntil, renders.reports]
  | succ fuel ih =>
    obtain same | ⟨later, stepped, same⟩ := runUntil_cases 0 fuel h
    · simp [same, renders.reports]
    rw [step?_of_rests rests] at stepped
    obtain ⟨stage, taken, rfl⟩ := Option.map_eq_some_iff.mp stepped
    obtain ⟨follows, next⟩ := rests.step? renders.failing (fun f setup => setup) taken
    rw [same]
    rcases next with waits | hears
    · exact ih (renders.goesOn ⟨waits.loop.toKeeps, waits.listeners⟩ follows) waits
    · exact (renders.goesOn ⟨hears.loop.toKeeps, hears.listeners⟩ follows).reports_of_hears signed hears fuel

end Hall

structure Stage.Alone (s : Stage α) : Prop where
  cells : ∃ t, s.loop.cells = #[⟨none, [], .task t⟩]
  queued : s.loop.queued = #[]
  round : s.loop.round = []
  timers : s.loop.timers = []
  listeners : s.listeners = []
  parts : s.parts = #[]

namespace Hall

section

variable {h : Hall α}

theorem onStudio_noted (alone : h.stage.Alone) {act : StudioM α β} {result : Except Fault β}
    {journal : Array (Event α)}
    (ran : runFrom act { h.studio with journal := #[] } = (result, { h.studio with journal := journal })) :
    ∃ g, h.onStudio act = (result, g) ∧ g.stage.Alone ∧ g.studio = { h.studio with journal := #[] } ∧
      g.reports = h.reports := by
  unfold runFrom at ran
  refine ⟨(h.onStudio act).2, ?_,
    ⟨alone.cells, alone.queued, alone.round, alone.timers, alone.listeners, alone.parts⟩, ?_, rfl⟩
  · simp only [onStudio, ran]
  · simp only [onStudio, ran]

theorem leave_reporting (alone : h.stage.Alone) (none : h.reports = #[]) (r : Reply (Value α)) :
    (h.leave 0 lastCall r).Reporting r := by
  obtain ⟨t, cells⟩ := alone.cells
  refine ⟨rfl, ⟨[], t.awaiting, t.mustCancel, ?_⟩, none⟩
  simp [leave, onLoop, Stage.onLoop, Loop.leave, Loop.setTask, cells]

end

variable [Acoustic α] (signed : Scalar.Signed α) {h : Hall α}

/-- A render that is not even begun, since the length of its script cannot be told. -/
theorem openRender_of_unmeasured (alone : h.stage.Alone) (none : h.reports = #[])
    (main : h.studio.blocks.contains mainName = true) {f : Fault} (failed : h.studio.estimated h.room = .error f) :
    (h.openRender 0 lastCall).Reporting (.raised (.fault f)) := by
  obtain ⟨journal, ran⟩ := Studio.runFrom_renderSeconds { h.studio with journal := #[] } h.room
  have estimated : Studio.estimated { h.studio with journal := #[] } h.room = .error f := failed
  rw [if_pos main, estimated, Except.map] at ran
  obtain ⟨g, told, alone, -, same⟩ := onStudio_noted alone ran
  unfold openRender
  rw [told]
  exact leave_reporting alone (same.trans none) _

def staged (h : Hall α) (m : Mixdown α) : Stage α :=
  { h.stage with
    engines := h.stage.engines.push m.engine
    parts := #[⟨Performance.initial h.studio.blocks h.studio.config (renderClock h.studio.config) {},
      h.stage.engines.size, #[]⟩] }

theorem addPart_staged (alone : h.stage.Alone) (m : Mixdown α) :
    ({ h.stage with engines := h.stage.engines.push m.engine } : Stage α).addPart
      (Performance.initial h.studio.blocks h.studio.config (renderClock h.studio.config) {}) h.stage.engines.size =
        (0, h.staged m) := by
  simp [Stage.addPart, staged, alone.parts, Performance.initial]

include signed in
theorem staged_reports (alone : h.stage.Alone) (none : h.reports = #[]) (standard : h.studio.Standard)
    (main : h.studio.blocks.contains mainName = true) {m : Mixdown α} (rate : m.plan.rate = h.studio.config.renderRate)
    (stocked : m.engine.Stocked) :
    Reports (Renders.Ends h.studio.config.renderRate 0) { h with
      active := some 0
      stage := (h.staged m).openMain 0 (.studio (.rendering 0 m.plan) :: lastCall) 0 false } := by
  obtain ⟨lines, found⟩ := Option.isSome_iff_exists.mp main
  obtain ⟨t, cells⟩ := alone.cells
  obtain ⟨listeners, loop⟩ := (h.staged m).openMain_alone rfl rfl rfl found alone.listeners
    (by simp [staged, cells]) (mixing 0 m.plan)
  have rests : ((h.staged m).openMain 0 (mixing 0 m.plan) 0 false).Rests (vigil (performing 0 0 m.plan)) := by
    refine ⟨?_, by simp [listeners]⟩
    rw [loop]
    exact Loop.rests_alone cells alone.queued alone.round alone.timers 0 0 _
  have follows := (h.staged m).openMain_follows (F := Fault.IsSetup) 0 (mixing 0 m.plan) 0 false
  have fresh : (h.staged m).FailsWith Fault.IsSetup := by
    intro k i x r f there ran
    obtain rfl : _ = x := (Array.mem_singleton.mp (Array.mem_of_getElem? there)).symm
    simp [Performance.initial] at ran
  have stocks : (h.staged m).Stocks 0 := ⟨_, m.engine, rfl, by simp [staged], stocked⟩
  have positive : 0 < m.plan.rate := rate.symm ▸ standard.positive
  rw [← rate]
  exact Renders.reports_of_rests signed ⟨⟨rests.loop.toKeeps, rests.listeners⟩, fresh.follows follows,
    stocks.follows follows, standard.renders, positive, none⟩ rests

include signed in
/-- A render that is begun, or for which there is no main block. -/
theorem openRender_reports (alone : h.stage.Alone) (none : h.reports = #[]) (standard : h.studio.Standard)
    (measured : h.studio.blocks.contains mainName = true → ∃ seconds, h.studio.estimated h.room = .ok seconds) :
    (h.openRender 0 lastCall).Reports (Renders.Ends h.studio.config.renderRate 0) := by
  obtain ⟨journal, ran⟩ := Studio.runFrom_renderSeconds { h.studio with journal := #[] } h.room
  cases main : h.studio.blocks.contains mainName with
  | false =>
    rw [if_neg (by simp [main])] at ran
    obtain ⟨g, told, alone, -, same⟩ := onStudio_noted alone ran
    unfold openRender
    rw [told]
    exact (leave_reporting alone (same.trans none) _).reports_of (.inl (.fault (by decide)))
  | true =>
    obtain ⟨seconds, estimated⟩ := measured main
    have estimated : Studio.estimated { h.studio with journal := #[] } h.room = .ok seconds := estimated
    rw [if_pos main, estimated, Except.map] at ran
    obtain ⟨g, told, alone, studio, same⟩ := onStudio_noted alone ran
    have none := same.trans none
    have standard : g.studio.Standard := studio ▸ standard.journal _
    have main : g.studio.blocks.contains mainName = true := studio ▸ main
    have sampled : g.studio.config.renderRate = h.studio.config.renderRate := by rw [studio]
    unfold openRender
    rw [told]
    dsimp only
    rcases Studio.runFrom_prepare (s := { g.studio with journal := #[] }) standard.mixes
      (Estimate.renderSeconds seconds) with ⟨f, ran, kind⟩ | ⟨m, ran, rate, stocked⟩
    · obtain ⟨k, told, alone, -, same⟩ := onStudio_noted alone ran
      rw [told]
      exact (leave_reporting (h := { k with active := Option.none }) alone (same.trans none) _).reports_of
        (.inl (.fault kind.inRender))
    · obtain ⟨k, told, alone, studio, same⟩ := onStudio_noted alone ran
      rw [told]
      have same_rate : k.studio.config.renderRate = g.studio.config.renderRate := by rw [studio]
      have begun := staged_reports signed alone (same.trans none) (studio ▸ standard.journal _) (studio ▸ main)
        (rate.trans same_rate.symm) stocked
      simp only [addPart, addPart_staged alone]
      rwa [same_rate, sampled] at begun

def called (studio : Studio α) (engines : List (Engine α)) (room : Option Nat) : Hall α :=
  (ofStudio studio engines room).onLoop fun l => { l with
    cells := #[⟨none, [], .task ⟨[.studio (.director [.render] false)], none, false⟩⟩]
    active := some (0, .value .nothing) }

theorem called_alone (studio : Studio α) (engines : List (Engine α)) (room : Option Nat) :
    (called studio engines room).stage.Alone :=
  ⟨⟨_, rfl⟩, rfl, rfl, rfl, rfl, rfl⟩

theorem direct_render (studio : Studio α) (engines : List (Engine α)) (room : Option Nat) :
    (ofStudio studio engines room).direct [.render] =
      runUntil 0 999999999997 ((called studio engines room).openRender 0 lastCall) := by
  have patience : Stage.patience = 999999999997 + 3 := rfl
  unfold direct
  rw [patience]
  dsimp only
  rw [runUntil_step (by rfl) (by rfl), runUntil_step (by rfl) (by rfl), runUntil_step (by rfl) (by rfl)]
  rfl

theorem reports_of_unmeasured {studio : Studio α} (engines : List (Engine α)) {room : Option Nat}
    (main : studio.blocks.contains mainName = true) {f : Fault} (failed : studio.estimated room = .error f) :
    ((ofStudio studio engines room).direct [.render]).reports.map (·.outcome) = #[.raised (.fault f)] := by
  obtain ⟨same, told⟩ := (openRender_of_unmeasured (called_alone studio engines room) rfl main failed).runUntil 999999999996
  rw [direct_render, same, told]

end Hall

theorem Exact.signed : Scalar.Signed ℚ where
  ne_zero x positive := by simpa using positive.ne'
  ofInt_pos n positive := by
    change ((0 : Int) : ℚ) < (n : ℚ)
    exact_mod_cast positive
  half_pos n positive := by
    change ((0 : Int) : ℚ) < (n : ℚ) / ((2 : Int) : ℚ)
    have : (0 : ℚ) < (n : ℚ) := by exact_mod_cast positive
    simpa using this

namespace Hall

/-- What a render tells its caller, when there is room for so many nested estimates. If the
length of the script cannot be told, because the count of a loop is too long or too large, or
because its blocks nest deeper than there is room for, the caller is told of that as it is. In
all other cases, whatever the script, the samples and the settings are, it gets a buffer, or is
told of a cancellation or of a fault of the kinds it is to expect. Only where a note was played
with a tail of more samples than an index counts, another fault may escape; and nothing is said
of a note whose attack or decay is as long. -/
theorem render_reports [Acoustic α] (signed : Scalar.Signed α) {studio : Studio α} (standard : studio.Standard)
    (engines : List (Engine α)) (room : Option Nat) :
    let later := (ofStudio studio engines room).direct [.render]
    (∀ f, studio.blocks.contains mainName = true → studio.estimated room = .error f →
      f.IsUnmeasured studio.blocks room ∧ later.reports.map (·.outcome) = #[.raised (.fault f)]) ∧
    ((studio.blocks.contains mainName = true → ∃ seconds, studio.estimated room = .ok seconds) →
      ∀ report ∈ later.reports,
        report.outcome.IsRender ∨
          report.outcome = .raised (.fault .paddingLimit) ∧
            later.stage.plays (Mix.hasEndlessTail studio.config.renderRate) 0 = true ∨
          later.stage.plays (Mix.hasEndlessRamp studio.config.renderRate) 0 = true) := by
  refine ⟨fun f main failed => ⟨?_, reports_of_unmeasured engines main failed⟩, fun measured => ?_⟩
  · exact (Estimate.script_fails signed studio.blocks studio.config.bpm room #[]).2 f failed
  · rw [direct_render]
    exact openRender_reports signed (called_alone studio engines room) rfl standard measured 999999999997

def sparse (blocks : Blocks) : Studio ℚ :=
  { Studio.initial { (default : Config ℚ) with renderRate := 1 } Tools.fileless none {} with blocks }

theorem sparse_standard (blocks : Blocks) : (sparse blocks).Standard := ⟨Int.one_pos, rfl, rfl⟩

def sounding : Studio ℚ := sparse [("main", ["play lead"]), ("lead", ["tone a4 2", "waitsec 1"])]

def repeating (digits : Nat) : Studio ℚ :=
  sparse [("main", ["loop " ++ String.ofList (List.replicate digits '1')])]

theorem repeating_estimated {digits : Nat} (long : maxIntegerDigits < digits) :
    (repeating digits).estimated = .error (.tooManyDigits digits) := by
  have ones (c : Char) (member : c ∈ List.replicate digits '1') : c = '1' := List.eq_of_mem_replicate member
  have solid (c : Char) (member : c ∈ List.replicate digits '1') : isBlank c = false := by
    rw [ones c member]
    decide
  have command := parse?_loop solid (by simpa using Nat.ne_of_gt (Nat.zero_lt_of_lt long))
  have unreadable : count? (String.ofList (List.replicate digits '1')) = .error (.tooManyDigits digits) := by
    have counted := count?_of_long (fun c member => ones c member ▸ by decide)
      (Nat.lt_of_lt_of_eq long (List.length_replicate (a := '1')).symm)
    rwa [List.length_replicate] at counted
  refine Estimate.script_of_unreadable _ rfl (by rw [List.filterMap_cons, command]) rfl ?_
  simp [countOr, unreadable, bind, Except.bind]

def nested : Studio ℚ := sparse [("main", ["play a"]), ("a", ["play b"]), ("b", ["waitsec 1"])]

set_option maxRecDepth 100000 in
theorem render_reports_sounding :
    sounding.Standard ∧ ((ofStudio sounding []).direct [.render]).reports.size = 1 ∧
      (∀ report ∈ ((ofStudio sounding []).direct [.render]).reports, report.outcome.IsRender) ∧
      (repeating 4301).Standard ∧ (Fault.tooManyDigits 4301).IsUnmeasured (repeating 4301).blocks none ∧
      nested.Standard ∧ Fault.nestingLimit.IsUnmeasured nested.blocks (some 2) := by
  have standard : sounding.Standard := sparse_standard _
  have measured : ∃ seconds, sounding.estimated = .ok seconds := by
    have ok : sounding.estimated.isOk = true := by decide +kernel
    cases told : sounding.estimated with
    | ok seconds => exact ⟨seconds, rfl⟩
    | error f => simp [told, Except.isOk, Except.toBool] at ok
  have short : let stage := ((ofStudio sounding []).direct [.render]).stage
      stage.plays (Mix.hasEndlessTail 1) 0 = false ∧ stage.plays (Mix.hasEndlessRamp 1) 0 = false := by
    decide +kernel
  have counted : (repeating 4301).estimated = .error (.tooManyDigits 4301) := repeating_estimated (by decide)
  have sunk : nested.estimated (some 2) = .error .nestingLimit := by decide +kernel
  have told := (render_reports Exact.signed standard [] none).2 fun _ => measured
  have long := (render_reports Exact.signed (sparse_standard (repeating 4301).blocks) [] none).1 _ rfl counted
  have deep := (render_reports Exact.signed (sparse_standard nested.blocks) [] (some 2)).1 _ rfl sunk
  refine ⟨standard, by decide +kernel, fun report member => ?_, sparse_standard _, long.1, sparse_standard _, deep.1⟩
  rcases told report member with render | ⟨-, endless⟩ | endless
  · exact render
  · cases short.1.symm.trans endless
  · cases short.2.symm.trans endless

def ringing : Studio ℚ := sparse [("main", ["play a"]), ("a", ["reverb 0.5 1 1e20", "tone c4 1"])]

set_option maxRecDepth 100000 in
/-- What escapes from a render: a count of more digits than are read, blocks that nest deeper
than there is room for, and a tail of more samples than an index counts. -/
theorem render_escapes :
    ((ofStudio (repeating 4301) []).direct [.render]).reports.map (·.outcome.fault?) =
        #[some (.tooManyDigits 4301)] ∧
      ((ofStudio nested [] (some 2)).direct [.render]).reports.map (·.outcome.fault?) = #[some .nestingLimit] ∧
      ((ofStudio ringing []).direct [.render]).reports.map (·.outcome.fault?) = #[some .paddingLimit] ∧
      ∀ f ∈ [Fault.tooManyDigits 4301, .nestingLimit, .paddingLimit],
        ¬ (Reply.raised (.fault f) : Reply (Value ℚ)).IsRender := by
  have counted : (repeating 4301).estimated = .error (.tooManyDigits 4301) := repeating_estimated (by decide)
  have long := congrArg (Array.map Reply.fault?) (reports_of_unmeasured [] rfl counted)
  refine ⟨by simpa [Function.comp_def, Reply.fault?] using long, by decide +kernel, by decide +kernel, fun f member rendered => ?_⟩
  cases rendered with
  | fault kind =>
    revert f
    decide

end Hall

end Partita
