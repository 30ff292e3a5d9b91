import Partita.Proofs.Performance.Dispatch
import Partita.Proofs.Voice.Handling

/-! What a command comes to once its arguments are read. Every command reads all of them
ahead of its first effect, so that it is turned down with nothing done, or left with one of
few plans: a status, a wait for the session, a step of a loop, a sample, a tempo, or
operations on the instrument of its block. -/
namespace Partita

open Score

variable {α : Type} [Scalar α]

open Desk Instrument in
/-- On an engine that refuses no call, a known operation returns. -/
theorem Operation.completes {op : Operation α} (known : op.isKnown = true) : Completes Willing op.act := by
  cases op with
  | setVolume volume => exact (setVolume_assigns volume).returns
  | setPan pan => exact (setPan_assigns pan).returns
  | setFilter s => exact (setFilter_assigns s).returns
  | setDistortion amount => exact (setDistortion_assigns amount).returns
  | setEnvelope s => exact (setEnvelope_assigns s).returns
  | setReverb s => exact (setReverb_assigns s).returns
  | setDelay s => exact (setDelay_assigns s).returns
  | setAutopan s => exact (setAutopan_assigns s).returns
  | setAutovolume s at_ => exact (setAutovolume_assigns s at_).returns
  | begin effect =>
    obtain ⟨kind, found⟩ := Option.isSome_iff_exists.mp known
    rw [act, Instrument.begin, found]
    exact change_completes _
  | finish effect at_ =>
    refine current_calling.returns.bind fun p => ?_
    split
    · exact (Calling.of_pure ()).returns
    · refine (change_completes _).bind fun _ => ?_
      dsimp only
      split
      · exact (restore_assigns at_ _).returns
      · exact fun d => (log_calling _ _).returns d
  | trigger frequencies duration at_ => exact send_completes _
  | release => exact dropLfo_completes.bind fun _ => send_completes _

inductive Desk.Composed : DeskM α Unit → Prop
  | nothing : Composed (pure ())
  | operate (op : Operation α) (known : op.isKnown = true) : Composed op.act
  | next {first rest : DeskM α Unit} : Composed first → Composed rest → Composed (first >>= fun _ => rest)

namespace Desk.Composed

variable {act : DeskM α Unit}

theorem inside {R : Desk α → Desk α → Prop} [IsPreorder (Desk α) R]
    (each : ∀ op : Operation α, Inside R op.act) (composed : Composed act) : Inside R act := by
  induction composed with
  | nothing => exact .of_pure ()
  | operate op known => exact each op
  | next _ _ first rest => exact first.bind fun _ => rest

theorem completes (composed : Composed act) : Completes Willing act := by
  induction composed with
  | nothing => exact fun d willing => ⟨(), d, rfl, willing⟩
  | operate op known => exact Operation.completes known
  | next _ _ first rest => exact first.bind fun _ => rest

end Desk.Composed

/-- What is left of a command once its arguments are read. -/
inductive Plan (α : Type) where
  | enter (status : Status α)
  | settle
  | openLoop (passes : Int)
  | closeLoop
  | cue (name : String) (gain : α) (text : String)
  | tempo (bpm : α) (text : String)
  | operate (act : DeskM α Unit) (text? : Option String)

namespace Plan

open Performance

def carryOut (time : α) (id : Nat) (run : Run α) : Plan α → PerformM α (Status α)
  | enter status => pure status
  | settle => do Performance.settle time (time + (← get).config.finishTimeout) id
  | openLoop passes => do
    setRun id (·.openLoop passes)
    return .running
  | closeLoop => do
    setRun id Run.closeLoop
    return .running
  | cue name gain text => do
    modify fun p => { p with engine.cues := p.engine.cues.push ⟨name, gain, run.position⟩ }
    if (← get).engine.recorder then record (.playSample name gain run.position)
    log .debug text
    return .running
  | tempo bpm text => do
    setSession (·.setBpm bpm)
    log .info text
    return .running
  | operate act text? => do
    onInstrument run.name act
    match text? with
    | some text => log .debug text
    | none => pure ()
    return .running

def Composed : Plan α → Prop
  | operate act _ => Desk.Composed act
  | _ => True

end Plan

namespace Performance

/-- A command is turned down with nothing done, or comes to a plan. -/
def Planned (time : α) (id : Nat) (run : Run α) (p : Performance α) (act : PerformM α (Status α)) : Prop :=
  (∃ f : Fault, (f.Passing ∨ ¬ p.engine.Faultless) ∧ runFrom act p = (.error f, p)) ∨
    ∃ plan : Plan α, plan.Composed ∧ runFrom act p = runFrom (plan.carryOut time id run) p

section

variable {time : α} {id : Nat} {run : Run α} {p : Performance α}

theorem Planned.of_throw {f : Fault} (passing : f.Passing) : Planned time id run p (throw f) :=
  .inl ⟨f, .inl passing, rfl⟩

theorem Planned.of_misuse (m : Misuse) : Planned time id run p (throw (.misuse m)) :=
  .of_throw (Fault.misuse_passing m)

theorem Planned.of_plan (plan : Plan α) (composed : plan.Composed) :
    Planned time id run p (plan.carryOut time id run) := .inr ⟨plan, composed, rfl⟩

theorem Planned.get_bind {next : Performance α → PerformM α (Status α)} (rest : Planned time id run p (next p)) :
    Planned time id run p (get >>= next) := rest

theorem Planned.of_lift {β : Type} {read : Except Fault β} {next : β → PerformM α (Status α)}
    (passing : ∀ f, read = .error f → f.Passing) (rest : ∀ b, Planned time id run p (next b)) :
    Planned time id run p (lift read >>= next) := by
  cases read with
  | ok b => exact rest b
  | error f => exact .inl ⟨f, .inl (passing f rfl), rfl⟩

end

theorem ofInt_passing {n : Int} {f : Fault} (failed : (Scalar.ofInt? n : Except Fault α) = .error f) : f.Passing := by
  unfold Scalar.ofInt? at failed
  dsimp only at failed
  split at failed
  · contradiction
  · cases failed
    rfl

/-- The arguments of a command that concerns an instrument are read ahead of what is done to
it. -/
theorem setParameter_composed (bpm position : α) (c : Command) (p : Performance α) :
    (∃ f : Fault, f.Passing ∧ runFrom (setParameter bpm position c) p = (.error f, p)) ∨
      ∃ act, Desk.Composed act ∧ runFrom (setParameter bpm position c) p = (.ok act, p) := by
  by_cases strikes : c.verb = "tone" ∨ c.verb = "tones"
  · obtain ⟨f, passing, read⟩ := strikes.elim (@setParameter_tone α _ bpm position c · p)
      (@setParameter_tones α _ bpm position c · p)
    cases notes : c.struck? bpm with
    | none => exact .inl ⟨f, passing, by rw [read, notes]⟩
    | some chord => exact .inr ⟨_, .operate (.trigger chord.1 chord.2 position) rfl, by rw [read, notes]; rfl⟩
  obtain ⟨tone, tones⟩ := not_or.mp strikes
  unfold setParameter
  split
  · contradiction
  · contradiction
  · refine .inr ⟨_, .next (.operate (.setVolume _) rfl) ?_, rfl⟩
    split
    · exact .operate (.setAutovolume _ _) rfl
    · exact .nothing
  · exact .inr ⟨_, .operate (.setPan _) rfl, rfl⟩
  · exact .inr ⟨_, .operate (.setReverb _) rfl, rfl⟩
  · cases read : countOr (c.arg? 2) 0 with
    | ok pingpong => exact .inr ⟨_, .operate (.setDelay _) rfl, rfl⟩
    | error f => exact .inl ⟨f, countOr_passing read, rfl⟩
  · dsimp only
    split
    · exact .inr ⟨_, .operate (.setFilter _) rfl, rfl⟩
    · exact .inl ⟨_, Fault.misuse_passing _, rfl⟩
  · exact .inr ⟨_, .operate (.setDistortion _) rfl, rfl⟩
  · exact .inr ⟨_, .operate (.setEnvelope _) rfl, rfl⟩
  · exact .inr ⟨_, .operate (.setAutopan _) rfl, rfl⟩
  · exact .inr ⟨_, .operate (.setAutovolume _ _) rfl, rfl⟩
  · split
    · split
      · rename_i known
        exact .inr ⟨_, .operate (.begin _) known, rfl⟩
      · exact .inl ⟨_, Fault.misuse_passing _, rfl⟩
    · exact .inl ⟨_, Fault.misuse_passing _, rfl⟩
  · exact .inr ⟨_, .nothing, rfl⟩

theorem sample_planned (time : α) (id : Nat) (run : Run α) (c : Command) (p : Performance α) :
    Planned time id run p (do
      sample run.position c
      return .running) := by
  cases named : c.arg? 0 with
  | none => exact .inl ⟨_, .inl (Fault.misuse_passing _), runFrom_bind_error (runFrom_sample_unnamed named)⟩
  | some name =>
    cases present : p.engine.hasSample name with
    | false =>
      exact .inl ⟨_, .inl (Fault.misuse_passing _), runFrom_bind_error (runFrom_sample_missing named present)⟩
    | true =>
      cases accepted : p.engine.refusal? name "play_sample" with
      | some f =>
        have faulty : ¬ p.engine.Faultless := fun faultless => by
          cases (faultless.sample name).symm.trans accepted
        exact .inl ⟨f, .inr faulty, runFrom_bind_error (runFrom_sample_refused named present accepted)⟩
      | none =>
        refine .inr ⟨.cue name (linearToDb (numberOr (c.arg? 1) 1))
          s!"Playing sample {name} at volume {Scalar.text (numberOr (c.arg? 1) 1 : α)}", trivial, ?_⟩
        rw [runFrom_bind]
        simp only [sample, Plan.carryOut, named, runFrom_get_bind, present, accepted, if_true, runFrom_modify_bind]
        cases p.engine.recorder <;> rfl

/-- Every command but a play comes to a plan, unless its arguments are turned down. -/
theorem perform_planned (time : α) (id : Nat) (run : Run α) {c : Command} (p : Performance α)
    (single : c.verb ≠ "play" ∨ c.args = []) : Planned time id run p (perform time id run c) := by
  refine .get_bind ?_
  dsimp only
  split
  · split
    · exact .of_misuse _
    · split
      · exact .of_misuse _
      · exact .of_lift (fun f failed => quotient_passing failed) fun seconds => .of_plan (.enter _) trivial
  · split
    · exact .of_misuse _
    · exact .of_plan (.enter _) trivial
  · exact .of_plan .settle trivial
  · rename_i play
    obtain other | none := single
    · contradiction
    · rw [none]
      exact .of_misuse _
  · exact .of_lift (fun f failed => countOr_passing failed) fun passes => .of_plan (.openLoop passes) trivial
  · split
    · split
      · exact .of_plan .closeLoop trivial
      · exact .of_plan (.operate _ none) (.operate (.finish _ _) rfl)
    · exact .of_plan .closeLoop trivial
  · exact sample_planned time id run c p
  · split
    · exact .of_misuse _
    · split
      · exact .of_misuse _
      · exact .of_plan (.tempo _ _) trivial
  · refine .of_lift (fun f failed => countOr_passing failed) fun value => ?_
    split
    · exact .of_misuse _
    · exact .of_lift (fun f failed => ofInt_passing failed) fun tempo => .of_plan (.tempo _ _) trivial
  · split
    · exact .of_plan (.enter .running) trivial
    · obtain ⟨f, passing, refused⟩ | ⟨act, composed, read⟩ := setParameter_composed p.session.bpm run.position c p
      · exact .inl ⟨f, .inl passing, runFrom_bind_error refused⟩
      · exact .inr ⟨.operate act _, composed, runFrom_bind_ok read⟩

end Performance

end Partita
