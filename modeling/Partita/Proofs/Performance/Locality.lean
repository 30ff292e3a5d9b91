import Partita.Proofs.Performance.Plan
import Partita.Proofs.Performance.Reading
import Partita.Proofs.Performance.Separation

/-! Commands are local to their block. A turn is offstage, but for what the command that is
dispatched does to the instrument of its block; a play apart, which builds instruments. -/
namespace Partita.Performance

open Score

variable {α : Type} [Scalar α]

section turns

variable {R : Performance α → Performance α → Prop} [IsPreorder (Performance α) R] {time : α} {id : Nat} {run : Run α}
  (off : ∀ p q : Performance α, p.Offstage q → R p q)
include off

theorem carryOut_within {plan : Plan α} (composed : plan.Composed)
    (operated : ∀ act, Desk.Composed act → Within R (fun _ => True) (onInstrument run.name act)) :
    Within R (fun _ => True) (plan.carryOut time id run) := by
  have aside {β : Type} {act : PerformM α β} (aloof : Aloof act) : Within R (fun _ => True) act :=
    fun p => ⟨off _ _ (aloof p).1, fun _ _ => trivial⟩
  cases plan with
  | enter status => exact .of_pure status
  | settle => exact aside (.of_get_bind fun p => settle_aloof time _ id p)
  | openLoop passes => exact aside ((setRun_aloof _ _).bind fun _ => .of_pure _)
  | closeLoop => exact aside ((setRun_aloof _ _).bind fun _ => .of_pure _)
  | cue name gain text =>
    have queued : Aloof (modify fun p : Performance α =>
        { p with engine.cues := p.engine.cues.push ⟨name, gain, run.position⟩ }) :=
      modify_aloof fun _ => ⟨rfl, rfl, rfl, rfl⟩
    have noted : Aloof (do
        log .debug text
        return .running : PerformM α (Status α)) := (log_aloof _ _).bind fun _ => .of_pure _
    have recorded : Aloof (record (.playSample name gain run.position)) := modify_aloof fun _ => ⟨rfl, rfl, rfl, rfl⟩
    refine aside (queued.bind fun _ => .of_get_bind fun p => ?_)
    dsimp only
    split
    · exact (recorded.bind fun _ => noted) p
    · exact noted p
  | tempo bpm text =>
    have set : Aloof (setSession (α := α) (·.setBpm bpm)) := modify_aloof fun _ => ⟨rfl, rfl, rfl, rfl⟩
    exact aside (set.bind fun _ => (log_aloof _ _).bind fun _ => .of_pure _)
  | operate act text? =>
    refine (operated act composed).bind fun _ => ?_
    cases text? with
    | some text => exact aside ((log_aloof _ _).bind fun _ => .of_pure _)
    | none => exact .of_pure _

omit off in
theorem perform_within {c : Command} (single : c.verb ≠ "play")
    (carried : ∀ plan : Plan α, plan.Composed → Within R (fun _ => True) (plan.carryOut time id run)) :
    Within R (fun _ => True) (perform time id run c) := by
  refine .of_related fun p => ?_
  obtain ⟨f, -, refused⟩ | ⟨plan, composed, planned⟩ := perform_planned time id run p (.inl single)
  · rw [refused]
    exact refl_of R p
  · rw [planned]
    exact (carried plan composed p).1

theorem dispatch_within {c : Command} (performed : Within R (fun _ => True) (perform time id run c)) :
    Within R (fun _ => True) (dispatch time id run c) := by
  have reported (p : Performance α) (text : String) : R p (runFrom (do
      log .error text
      return .running : PerformM α (Status α)) p).2 := off _ _ ⟨rfl, rfl, rfl, rfl⟩
  refine .of_related fun p => ?_
  have kept := (performed p).1
  rw [runFrom_dispatch]
  split
  · rcases ran : runFrom (perform time id run c) p with ⟨result, q⟩
    rw [ran] at kept
    cases result with
    | ok status => exact kept
    | error f =>
      dsimp only
      split
      · exact kept
      · exact trans_of R kept (reported q _)
  · exact reported p _

theorem step_within {p : Performance α} (found : p.runs[id]? = some run) (performed : ∀ c,
    p.dispatched? id (.step id) = some c → Within R (fun _ => True) (perform time id run.advance c)) :
    R p (exec (step time id) p) := by
  rw [exec_step found]
  cases next : run.next? p.session with
  | none => exact off _ _ ⟨rfl, rfl, rfl, rfl⟩
  | some line =>
    dsimp only
    cases parsed : Command.parse? line with
    | none => exact off _ _ ⟨rfl, rfl, rfl, rfl⟩
    | some c =>
      have dispatched : p.dispatched? id (.step id) = some c := by
        simp only [dispatched?, read?, if_true, found, Option.bind_some, next, parsed]
      have moved : R p (p.onRun id Run.advance) := off _ _ ⟨rfl, rfl, rfl, rfl⟩
      have ran := (dispatch_within off (performed c dispatched) (p.onRun id Run.advance)).1
      exact trans_of R moved (trans_of R ran (off _ _ (entered_offstage _ _ _)))

/-- A turn in which a run dispatches no play. -/
theorem turn_within {p : Performance α} {m : Moment α} (found : p.runs[id]? = some run) (turn : m.act.actor? = some id)
    (single : ∀ c, p.dispatched? id m.act = some c → c.verb ≠ "play")
    (operated : ∀ act, Desk.Composed act → Within R (fun _ => True) (onInstrument run.name act)) :
    R p (p.take m) := by
  obtain ⟨time, act⟩ := m
  cases act with
  | step j =>
    cases turn
    exact step_within off found fun c dispatched =>
      perform_within (single c dispatched) fun plan composed => carryOut_within off composed operated
  | wake j w => exact off _ _ (wake_aloof time j w p).1
  | _ => cases turn

end turns

theorem operated_confined {name : String} (act : DeskM α Unit) (composed : Desk.Composed act) :
    Within (Confined (· = name)) (fun _ => True) (onInstrument name act) :=
  onInstrument_confined name (composed.inside fun op => Desk.step_tends (.operate op))

theorem perform_keeping (time : α) (id : Nat) (run : Run α) (c : Command) : Keeping (perform time id run c) := by
  by_cases single : c.verb = "play"
  · simp only [perform, single]
    refine .of_get_bind fun p => ?_
    split
    · exact Within.of_throw trivial p
    · exact play_keeping run _ p
    · exact play_keeping run _ p
  · have confined : Within (Confined (· = run.name)) (fun _ => True) (perform time id run c) :=
      perform_within single fun plan composed => carryOut_within (fun _ _ => .of_offstage) composed operated_confined
    exact fun p => ⟨(confined p).1.mono fun _ _ => trivial, fun _ _ => trivial⟩

/-- Every act keeps instruments apart. -/
theorem Separate.take {p : Performance α} (apart : p.Separate) (m : Moment α) : (p.take m).Separate := by
  obtain ⟨time, act⟩ := m
  have after {β : Type} {act : PerformM α β} (keeping : Keeping act) : (runFrom act p).2.Separate :=
    ((keeping p).1 apart).1
  unfold Performance.take
  cases act with
  | step id =>
    cases found : p.runs[id]? with
    | none =>
      have idle : runFrom (step time id) p = (.ok (), p) := by rw [step, runFrom_get_bind, found, runFrom_pure]
      change (runFrom (step time id) p).2.Separate
      rw [idle]
      exact apart
    | some run => exact (step_within (fun _ _ => Confined.of_offstage) found (fun c _ => perform_keeping time id run.advance c) apart).1
  | wake id w => exact ((wake_aloof time id w p).1).separate apart
  | spawn name position => exact after (spawn_keeping name position)
  | begin => exact after (begin_keeping time)
  | replay => exact after (replay_keeping time)
  | stop => exact after stop_keeping
  | forceStop => exact after forceStop_keeping
  | normalize => exact after normalizeVolumes_keeping

theorem Fresh.separate {p : Performance α} (fresh : p.Fresh) : p.Separate := by
  obtain ⟨blocks, config, clock, engine, rfl⟩ := fresh
  have none {c : String} {i : Nat} (holds : (initial blocks config clock engine).Holds c i) : False := by
    obtain ⟨s, found, -⟩ | ⟨id, v, found, -⟩ := holds <;> cases found
  constructor
  · intro entry member
    cases member
  · intro c id there
    cases there
  · intro b c id there
    cases there
  · intro c i holds
    exact (none holds).elim
  · intro b c i holds
    exact (none holds).elim
  · rfl

/-- What is offstage as long as the main block has no instrument in use. -/
def Silently (p q : Performance α) : Prop := p.voices.lookup mainName = none → p.Offstage q

omit [Scalar α] in
instance : IsPreorder (Performance α) Silently where
  refl p _ := refl_of Offstage p
  trans _ _ _ first second unused := by
    have off := first unused
    exact trans_of Offstage off (second (off.held ▸ unused))

theorem operated_silently (act : DeskM α Unit) : Within Silently (fun _ => True) (onInstrument mainName act) := by
  refine .of_related fun p unused => ?_
  simp only [onInstrument, runFrom_get_bind, unused]
  exact refl_of Offstage p

/-- Whatever has happened, a turn in which a run dispatches no play leaves the instruments of
all other blocks as they are, and all other runs; a run of the main block leaves every
instrument as it is. -/
theorem turns_are_local {p : Performance α} {ms : List (Moment α)} {m : Moment α} {id : Nat} {run : Run α}
    (fresh : p.Fresh) (ran : Execution p ms) (ready : (p.after ms).enabled m.act = true)
    (turn : m.act.actor? = some id) (found : (p.after ms).runs[id]? = some run)
    (single : ∀ c, (p.after ms).dispatched? id m.act = some c → c.verb ≠ "play") :
    (∀ c, c ≠ run.name → (p.after ms).Untouched c ((p.after ms).take m)) ∧
      (run.name = mainName → (p.after ms).Offstage ((p.after ms).take m)) ∧
      ∀ j, j ≠ id → ∀ r, (p.after ms).runs[j]? = some r → ((p.after ms).take m).runs[j]? = some r := by
  have apart : (p.after ms).Separate := ran.invariant (fun _ m holds _ => holds.take m) fresh.separate
  refine ⟨?_, fun main => ?_, fun j other r there => take_other there ready fun own => ?_⟩
  · have confined : (p.after ms).Confined (· = run.name) ((p.after ms).take m) :=
      turn_within (fun _ _ => .of_offstage) found turn single operated_confined
    exact (confined apart).2
  · have operated (act : DeskM α Unit) (_ : Desk.Composed act) :
        Within Silently (fun _ => True) (onInstrument run.name act) := main ▸ operated_silently act
    have silently : (p.after ms).Silently ((p.after ms).take m) :=
      turn_within (R := Silently) (fun _ _ off _ => off) found turn single operated
    exact silently apart.main
  · exact other (Option.some.inj (own.symm.trans turn))

def swingingDuet : Performance ℚ :=
  initial [("main", ["play together left right"]), ("left", ["autovolume 0 100 1", "tone c4 4"]),
    ("right", ["autovolume 0 50 2", "tone e4 4", "begin pan", "autovolume 0 50 8"])] default (.virtual 0) {}

def bothPlay : List (Moment ℚ) :=
  [⟨0, .begin⟩, ⟨0, .wake 0 .go⟩, ⟨0, .step 0⟩, ⟨0, .wake 1 .go⟩, ⟨0, .step 1⟩, ⟨0, .step 1⟩,
    ⟨0, .wake 2 .go⟩, ⟨0, .step 2⟩, ⟨0, .step 2⟩, ⟨0, .step 2⟩]

theorem turns_are_local_duet :
    ((swingingDuet.after bothPlay).engine.lfos.map (·.running) = #[true, true]) ∧
      (((swingingDuet.after bothPlay).take ⟨0, .step 2⟩).engine.lfos.map (·.running) = #[true, false, true]) ∧
      (swingingDuet.after bothPlay).Untouched "left" ((swingingDuet.after bothPlay).take ⟨0, .step 2⟩) := by
  have fresh : swingingDuet.Fresh := ⟨_, _, _, _, rfl⟩
  obtain ⟨ran, ready, read, named, before, after⟩ : Execution swingingDuet bothPlay ∧
      (swingingDuet.after bothPlay).enabled (.step 2) = true ∧
      ((swingingDuet.after bothPlay).dispatched? 2 (.step 2)).map (·.verb) = some "autovolume" ∧
      (swingingDuet.after bothPlay).runs[2]?.map (·.name) = some "right" ∧
      (swingingDuet.after bothPlay).engine.lfos.map (·.running) = #[true, true] ∧
      ((swingingDuet.after bothPlay).take ⟨0, .step 2⟩).engine.lfos.map (·.running) = #[true, false, true] := by
    decide +kernel
  obtain ⟨run, found, name⟩ := Option.map_eq_some_iff.mp named
  have single (c : Command) (dispatched : (swingingDuet.after bothPlay).dispatched? 2 (.step 2) = some c) :
      c.verb ≠ "play" := by
    rw [dispatched, Option.map_some, Option.some.injEq] at read
    rw [read]
    decide
  have other : "left" ≠ run.name := by
    rw [name]
    decide
  exact ⟨before, after, (turns_are_local (m := ⟨0, .step 2⟩) fresh ran ready rfl found single).1 "left" other⟩

end Partita.Performance
