import Partita.Proofs.Performance.Execution
import Partita.Proofs.Performance.Plan

/-! Commands that are turned down. A command that is no play either is turned down before it
has done anything, and leaves a report of the error and nothing else, or is carried out and
reports no error, unless the engine fails. -/
namespace Partita

open Score

variable {α : Type}

def Event.isError : Event α → Bool
  | .log r => r.severity == .error
  | _ => false

/-- A journal that grows by entries that report no error. -/
def Harmless (before after : Array (Event α)) : Prop :=
  ∃ entries : List (Event α), after.toList = before.toList ++ entries ∧ ∀ e ∈ entries, e.isError = false

namespace Harmless

theorem refl (j : Array (Event α)) : Harmless j j := ⟨[], by simp, by simp⟩

theorem trans {j k l : Array (Event α)} (first : Harmless j k) (second : Harmless k l) : Harmless j l := by
  obtain ⟨xs, grown, calm⟩ := first
  obtain ⟨ys, grown', calm'⟩ := second
  refine ⟨xs ++ ys, by rw [grown', grown, List.append_assoc], fun e member => ?_⟩
  rcases List.mem_append.mp member with earlier | later
  · exact calm e earlier
  · exact calm' e later

theorem push {e : Event α} (harmless : e.isError = false) (j : Array (Event α)) : Harmless j (j.push e) :=
  ⟨[e], by simp, by simpa using harmless⟩

end Harmless

namespace Desk

def Calmly (d e : Desk α) : Prop := Harmless d.journal e.journal

instance : IsPreorder (Desk α) Calmly where
  refl d := .refl d.journal
  trans _ _ _ first second := first.trans second

theorem note_calm {e : Event α} (harmless : e.isError = false) : Inside Calmly (note e) :=
  .of_modify fun d => .push harmless d.journal

theorem log_calm {severity : Severity} (text : String) (mild : severity ≠ .error) :
    Inside Calmly (log (α := α) severity text) := note_calm (beq_false_of_ne mild)

variable [Scalar α]

theorem send_calm (call : Call α) : Inside Calmly (send call) := by
  have applied : Inside Calmly (modify fun d => { d with engine := d.engine.apply d.instrument.voice call }) :=
    .of_modify fun d => .refl d.journal
  refine .of_get_bind fun d => ?_
  dsimp only
  split
  · exact Within.of_throw trivial d
  split
  · exact (note_calm rfl).bind (fun _ => applied) d
  · split
    · exact (note_calm rfl).bind (fun _ => applied) d
    · exact applied d

theorem calm_carries : Carries (Calmly (α := α)) :=
  .of_calls log_calm (fun _ => send_calm _) fun _ => .of_modify fun d => .refl d.journal

theorem operate_calm (op : Operation α) : Inside Calmly op.act :=
  calm_carries.operate op fun _ _ _ trigger => trigger ▸ send_calm _

end Desk

namespace Performance

def Calmly (p q : Performance α) : Prop := Harmless p.journal q.journal

instance : IsPreorder (Performance α) Calmly where
  refl p := .refl p.journal
  trans _ _ _ first second := first.trans second

def Reports (p q : Performance α) : Prop := ∃ e ∈ q.journal.toList.drop p.journal.size, e.isError = true

theorem Calmly.not_reports {p q : Performance α} (calm : p.Calmly q) : ¬ p.Reports q := by
  rintro ⟨e, member, error⟩
  obtain ⟨entries, grown, harmless⟩ := calm
  rw [grown, ← Array.length_toList, List.drop_left] at member
  rw [harmless e member] at error
  contradiction

theorem log_calm {E : Fault → Prop} {severity : Severity} (text : String) (mild : severity ≠ .error) :
    Within Calmly E (log (α := α) severity text) :=
  .of_modify fun p => Harmless.push (e := .log ⟨severity, "scheduler", text⟩) (beq_false_of_ne mild) p.journal

variable [Scalar α]

theorem onInstrument_calm (name : String) {act : DeskM α Unit} (calm : Desk.Inside Desk.Calmly act) :
    Within Calmly (fun _ => True) (onInstrument name act) := by
  refine .of_get_bind fun p => ?_
  split
  · refine ⟨?_, fun _ _ => trivial⟩
    rw [runFrom_onDesk]
    exact (calm (p.deskOf name _)).1
  · exact Within.of_pure () p

/-- On an engine without faults an operation that always returns does so in a performance. -/
theorem onInstrument_returns (name : String) {act : DeskM α Unit} (completes : Completes Desk.Willing act)
    {p : Performance α} (faultless : p.engine.Faultless) : ∃ q, runFrom (onInstrument name act) p = (.ok (), q) := by
  simp only [onInstrument, runFrom_get_bind]
  cases p.voices.lookup name with
  | none => exact ⟨p, rfl⟩
  | some voice =>
    obtain ⟨_, d, ran, -⟩ := completes (p.deskOf name voice) (faultless.calls name)
    exact ⟨_, by rw [runFrom_onDesk, ran]⟩

theorem settle_calm (time deadline : α) (id : Nat) :
    Within Calmly (fun _ => False) (settle (α := α) time deadline id) := by
  refine .of_get_bind fun p => ?_
  split
  · exact Within.of_pure _ p
  · have mild : Severity.warning ≠ .error := by decide
    exact ((log_calm _ mild).bind fun _ => .of_pure _) p
  · split
    · exact Within.of_pure _ p
    · exact (Within.of_modify fun p => .refl p.journal).bind (fun _ => .of_pure _) p

/-- A plan reports no error. -/
theorem carryOut_calm (time : α) (id : Nat) (run : Run α) {plan : Plan α} (composed : plan.Composed) :
    Within Calmly (fun _ => True) (plan.carryOut time id run) := by
  have unseen {f : Performance α → Performance α} (same : ∀ p, (f p).journal = p.journal) :
      Within Calmly (fun _ : Fault => True) (modify f : PerformM α PUnit) := .of_modify fun p => by
    rw [Calmly, same]
    exact .refl p.journal
  have placed (f : Run α → Run α) : Within Calmly (fun _ : Fault => True) (setRun id f : PerformM α Unit) :=
    unseen fun _ => rfl
  cases plan with
  | enter status => exact .of_pure status
  | settle => exact .of_get_bind fun p => (settle_calm time _ id).mono (fun _ _ => trivial) p
  | openLoop passes => exact (placed (·.openLoop passes)).bind fun _ => .of_pure _
  | closeLoop => exact (placed Run.closeLoop).bind fun _ => .of_pure _
  | cue name gain text =>
    have noted : Within Calmly (fun _ : Fault => True) (do
        log .debug text
        return .running : PerformM α (Status α)) := (log_calm text (by decide)).bind fun _ => .of_pure _
    have queued : Within Calmly (fun _ : Fault => True) (modify fun p => { p with
        engine.cues := p.engine.cues.push ⟨name, gain, run.position⟩ } : PerformM α PUnit) := unseen fun _ => rfl
    refine queued.bind fun _ => .of_get_bind fun p => ?_
    dsimp only
    split
    · have recorded : Within Calmly (fun _ : Fault => True) (record (.playSample name gain run.position)) :=
        .of_modify fun p => Harmless.push rfl p.journal
      exact recorded.bind (fun _ => noted) p
    · exact noted p
  | tempo bpm text =>
    have paced : Within Calmly (fun _ : Fault => True) (setSession (·.setBpm bpm) : PerformM α Unit) :=
      unseen fun _ => rfl
    exact paced.bind fun _ => (log_calm text (by decide)).bind fun _ => .of_pure _
  | operate act text? =>
    refine (onInstrument_calm run.name (composed.inside Desk.operate_calm)).bind fun _ => ?_
    cases text? with
    | some text => exact (log_calm text (by decide)).bind fun _ => .of_pure _
    | none => exact .of_pure _

/-- On an engine without faults a plan is carried out. -/
theorem carryOut_returns (time : α) (id : Nat) (run : Run α) {plan : Plan α} (composed : plan.Composed)
    {p : Performance α} (faultless : p.engine.Faultless) :
    ∃ status q, runFrom (plan.carryOut time id run) p = (.ok status, q) := by
  cases plan with
  | settle =>
    -- waiting for the session never fails
    rcases ran : runFrom (Plan.settle.carryOut time id run) p with ⟨result, q⟩
    cases result with
    | ok status => exact ⟨status, q, rfl⟩
    | error f =>
      have fails := (settle_calm time (time + p.config.finishTimeout) id p).2 f
      exact (fails (congrArg Prod.fst ran)).elim
  | cue name gain text =>
    simp only [Plan.carryOut, runFrom_modify_bind, runFrom_get_bind]
    cases p.engine.recorder <;> exact ⟨_, _, rfl⟩
  | operate act text? =>
    obtain ⟨q, operated⟩ := onInstrument_returns run.name composed.completes faultless
    simp only [Plan.carryOut]
    rw [runFrom_bind_ok operated]
    cases text? <;> exact ⟨_, _, rfl⟩
  | enter | openLoop | closeLoop | tempo => exact ⟨_, _, rfl⟩

/-- On an engine without faults, dispatching a command that is no play ends in a report of an
error with nothing done, or reports none. -/
theorem dispatch_cases (time : α) (id : Nat) (run : Run α) {c : Command} {p : Performance α}
    (faultless : p.engine.Faultless) (single : c.verb ≠ "play" ∨ c.args = []) :
    (∃ r : Record, r.severity = .error ∧ runFrom (dispatch time id run c) p =
        (.ok .running, { p with journal := p.journal.push (.log r) })) ∨
      ∃ status q, runFrom (dispatch time id run c) p = (.ok status, q) ∧ p.Calmly q := by
  rw [runFrom_dispatch]
  cases c.known with
  | false => exact .inl ⟨_, rfl, rfl⟩
  | true =>
    rw [if_pos rfl]
    obtain ⟨f, reason, refused⟩ | ⟨plan, composed, planned⟩ := perform_planned time id run p single
    · have passing : f.isSetup = false := reason.resolve_right (not_not_intro faultless)
      rw [refused]
      dsimp only
      rw [passing, if_neg Bool.false_ne_true]
      exact .inl ⟨_, rfl, rfl⟩
    · obtain ⟨status, q, ran⟩ := carryOut_returns time id run composed faultless
      have calm := (carryOut_calm time id run composed p).1
      rw [ran] at calm
      rw [planned, ran]
      exact .inr ⟨status, q, rfl, calm⟩

/-- A run that wakes from a pause of its own, or wakes to its first step, reports no error. -/
theorem wake_calm {id : Nat} {run : Run α} {p : Performance α} (found : p.runs[id]? = some run) (time : α) {w : Wake}
    (uncancelled : w ≠ .cancel) (single : ∀ children, run.status ≠ .playing children) :
    p.Calmly (exec (wake time id w) p) := by
  change p.Calmly (runFrom (wake time id w) p).2
  rw [wake, runFrom_get_bind, found]
  dsimp only
  have unseen : p.Calmly p := .refl p.journal
  cases status : run.status with
  | playing children => exact absurd status (single children)
  | created =>
    cases w with
    | cancel => contradiction
    | _ => exact unseen
  | running | ended =>
    cases w with
    | cancel => contradiction
    | _ => exact unseen
  | waiting seconds beats =>
    cases w with
    | cancel => contradiction
    | _ =>
      cases beats with
      | some b => exact Harmless.push rfl p.journal
      | none => exact unseen
  | settling deadline =>
    have settles : p.Calmly (runFrom (settleStatus id (settle time deadline id)) p).2 := by
      obtain ⟨calm, fails⟩ := settle_calm time deadline id p
      rw [runFrom_settleStatus]
      cases outcome : (runFrom (settle time deadline id) p).1 with
      | ok status => exact calm
      | error f => exact (fails f outcome).elim
    cases w with
    | cancel => contradiction
    | timeout => exact Harmless.push rfl p.journal
    | _ => exact settles

/-- On an engine without faults, and for every command that is no play: if dispatching it
reports an error, the performance is what it was but for the cursor of the run, which is past
the line, and one record. Commands that suspend their run report no error when it wakes. -/
theorem rejected_command_leaves_no_trace {p : Performance α} (faultless : p.engine.Faultless) {id : Nat} (time : α) :
    (∀ c, p.enabled (.step id) = true → p.dispatched? id (.step id) = some c → c.verb ≠ "play" ∨ c.args = [] →
      p.Reports (p.take ⟨time, .step id⟩) → ∃ r : Record, r.severity = .error ∧
        p.take ⟨time, .step id⟩ = { p.onRun id Run.advance with journal := p.journal.push (.log r) }) ∧
    ∀ w run, p.runs[id]? = some run → w ≠ .cancel → (∀ children, run.status ≠ .playing children) →
      ¬ p.Reports (p.take ⟨time, .wake id w⟩) := by
  refine ⟨fun c enabled dispatched single reports => ?_, fun w run found uncancelled single => ?_⟩
  · obtain ⟨run, found, running⟩ : ∃ run, p.runs[id]? = some run ∧ run.status = .running := by
      simp only [Performance.enabled] at enabled
      split at enabled
      · rename_i run found
        refine ⟨run, found, ?_⟩
        split at enabled
        · assumption
        · contradiction
      · contradiction
    obtain ⟨line, next, parsed⟩ : ∃ line, run.next? p.session = some line ∧ Command.parse? line = some c := by
      simpa only [dispatched?, read?, if_true, found, Option.bind_some, Option.bind_eq_some_iff] using dispatched
    have taken : p.take ⟨time, .step id⟩ =
        (runFrom (dispatch time id run.advance c) (p.onRun id Run.advance)).2.entered id
          (runFrom (dispatch time id run.advance c) (p.onRun id Run.advance)).1 := by
      have stepped := exec_step found time
      rw [next] at stepped
      dsimp only at stepped
      rw [parsed] at stepped
      exact stepped
    obtain ⟨r, error, dispatched⟩ | ⟨status, q, dispatched, calm⟩ :=
      dispatch_cases time id run.advance (p := p.onRun id Run.advance) faultless single
    · refine ⟨r, error, ?_⟩
      rw [taken, dispatched]
      have running : (p.onRun id Run.advance).runs.modify id (·.withStatus .running) = p.runs.modify id Run.advance := by
        apply Array.ext_getElem?
        intro i
        simp only [onRun, Array.getElem?_modify]
        split
        · subst i
          simp [found, Run.withStatus, Run.advance, running]
        · rfl
      simp only [entered, onRun] at running ⊢
      rw [running]
    · rw [taken, dispatched] at reports
      exact absurd reports (Calmly.not_reports calm)
  · exact (wake_calm found time uncancelled single).not_reports

def discord : Performance ℚ :=
  (initial [("main", ["play lead"]), ("lead", ["loop 2", "volume 50 0 1", "tones c4 h4 1"])] default (.virtual 0)
    { recorder := true }).after
    [⟨0, .begin⟩, ⟨0, .wake 0 .go⟩, ⟨0, .step 0⟩, ⟨0, .wake 1 .go⟩, ⟨0, .step 1⟩, ⟨0, .step 1⟩]

theorem rejected_command_leaves_no_trace_discord :
    discord.engine.Faultless ∧ discord.Reports (discord.take ⟨0, .step 1⟩) ∧
      ∃ r : Record, r.severity = .error ∧
        discord.take ⟨0, .step 1⟩ = { discord.onRun 1 Run.advance with journal := discord.journal.push (.log r) } := by
  obtain ⟨refused, failing, usable, ready, reported, read⟩ : discord.engine.refused = [] ∧
      discord.engine.failing = [] ∧ discord.engine.closed = false ∧ discord.enabled (.step 1) = true ∧
      ((discord.take ⟨0, .step 1⟩).journal.toList.drop discord.journal.size).any Event.isError = true ∧
      (discord.dispatched? 1 (.step 1)).map (·.verb) = some "tones" := by
    decide +kernel
  have faultless : discord.engine.Faultless :=
    ⟨fun _ _ => by rw [Engine.refusal?, refused]; rfl, fun _ => by rw [Engine.refusal?, refused]; rfl,
      fun _ _ => by rw [Engine.fails, failing]; rfl, usable⟩
  have reports : discord.Reports (discord.take ⟨0, .step 1⟩) := List.any_eq_true.mp reported
  obtain ⟨c, dispatched, tones⟩ := Option.map_eq_some_iff.mp read
  have single : c.verb ≠ "play" := by
    rw [tones]
    decide
  exact ⟨faultless, reports,
    (rejected_command_leaves_no_trace faultless 0).1 c ready dispatched (.inl single) reports⟩

end Performance

end Partita
