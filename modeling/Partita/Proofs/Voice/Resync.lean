import Partita.Proofs.Voice.Oscillator

/-! What sending every parameter again brings back. Ahead of a replay the voice of an
instrument may be in any state: silent, faded, or out of line with its parameters after a
call that was refused. All of its patch is brought in line. The oscillator is not: one that
was stopped with its notes does not start again before the swing of the volume is set anew. -/
namespace Partita

open Score (EffectKind)

variable {α : Type} [Scalar α]

def Parameters.replayGain (p : Parameters α) : α := volumeToDb p.volume + p.normalization

/-- The gain that a step leaves the voice with, if it sends every parameter again. -/
def Handling.resends? : Handling α → Option (Parameters α → α)
  | .sync => some Parameters.gain
  | .normalize => some Parameters.replayGain
  | _ => none

omit [Scalar α] in
/-- Whether the oscillator is stilled after a step, that is, stopped with the notes while the
swing of the volume is as it was, by whether it was before. A swing that is set, or given
back by an end, is no longer stilled. -/
def Handling.stills (p : Parameters α) (stilled : Bool) : Handling α → Bool
  | .operate .release | .silence => true
  | .operate (.setAutovolume ..) => false
  | .operate (.finish effect _) =>
    stilled && !p.stack.head?.any fun saved => saved.kind == .autovolume && saved.kind.name == effect
  | _ => stilled

namespace Instrument

open Desk Leads

theorem normalize_leads {p : Parameters α} {a : Patch α} :
    ∃ q : Parameters α, q.lfo = p.lfo ∧ q.autovolume = p.autovolume ∧
      Leads p a normalize q { q.patch with gain := q.replayGain } := by
  have sent (q : Parameters α) : Leads q a (do
      sync
      let p ← current
      send (.setGain (volumeToDb p.volume + p.normalization))) q { q.patch with gain := q.replayGain } :=
    sync_leads.bind (current_bind (of_send _))
  by_cases default : (p.volume == defaultVolume) = true
  · refine ⟨{ p with volume := boostedVolume }, rfl, rfl, current_bind ?_⟩
    dsimp only
    rw [if_pos default]
    exact (of_change _).bind (sent _)
  · refine ⟨p, rfl, rfl, current_bind ?_⟩
    dsimp only
    rw [if_neg default]
    exact sent p

end Instrument

namespace Desk

variable {first : Nat} {d e : Desk α} {before : Bool}

def stilled (d : Desk α) (before : Bool) : List (Trial α) → Bool
  | [] => before
  | t :: rest => (d.tried t).stilled (t.step.stills d.instrument.params before) rest

/-- An oscillator is held if the swing of the volume is active and not stilled, and only then. -/
def Sways (before : Bool) (d : Desk α) : Prop :=
  d.instrument.params.lfo.isSome = (d.instrument.params.autovolume.active && !before)

omit [Scalar α] in
theorem Spares.autovolume {kinds : EffectKind → Prop} (spares : d.Spares kinds e) (other : ¬ kinds .autovolume) :
    e.instrument.params.autovolume = d.instrument.params.autovolume :=
  Snapshot.autovolume.inj (spares.others .autovolume other)

theorem Sways.spared {kinds : EffectKind → Prop} (sways : d.Sways before) (spares : d.Spares kinds e)
    (other : ¬ kinds .autovolume) : e.Sways before := by
  rw [Sways, spares.lfo other, spares.autovolume other]
  exact sways

/-- On a willing engine the oscillator that is held is dropped. -/
theorem Swings.drop_willing (swings : d.Swings first) (willing : d.Willing) :
    ∃ e, runFrom Instrument.dropLfo d = (.ok (), e) ∧ e.Willing ∧ e.instrument.params.lfo = none := by
  obtain ⟨f, refused⟩ | ⟨e, dropped, -, idle, same⟩ := swings.drop
  · obtain ⟨_, _, returned, -⟩ := Instrument.dropLfo_completes d willing
    rw [refused] at returned
    cases returned
  · exact ⟨e, dropped, by rwa [Willing, same], idle⟩

theorem Swings.set_sways (swings : d.Swings first) (willing : d.Willing) (s : AutoVolume α) (at_ : α) :
    (runFrom (Instrument.setAutovolume s at_) d).2.Sways false := by
  obtain ⟨e, dropped, willing, idle⟩ := swings.drop_willing willing
  rw [Instrument.setAutovolume, runFrom_bind_ok dropped]
  cases active : s.active with
  | true =>
    obtain ⟨journal, sent⟩ := send_eq (willing (.startLfo s.rate (linearToDb s.min) (linearToDb s.max) at_))
    simp only [if_true, runFrom_get_bind]
    rw [runFrom_bind_ok sent]
    exact (active.symm.trans (Bool.and_true _).symm :)
  | false =>
    obtain ⟨_, t, sent, -⟩ := Instrument.applyGain_calling.returns e willing
    have steady := (Instrument.applyGain_calling.steady e).1
    simp only [Bool.false_eq_true, if_false]
    rw [runFrom_bind_ok sent]
    rw [sent] at steady
    have idle : t.instrument.params.lfo = none := by rw [steady.params, idle]
    change t.instrument.params.lfo.isSome = (s.active && !false)
    rw [idle, active]
    rfl

theorem Swings.drop_sways (swings : d.Swings first) (willing : d.Willing) (call : Call α) :
    (runFrom (Instrument.dropLfo >>= fun _ => send call) d).2.Sways true := by
  obtain ⟨e, dropped, willing, idle⟩ := swings.drop_willing willing
  rw [runFrom_bind_ok dropped, Sways, ((send_calling call).steady e).1.params, idle, Bool.not_true, Bool.and_false]
  rfl

/-- Of all snapshots one of the swing of the volume sets it anew. -/
theorem Sways.restore (sways : d.Sways before) (swings : d.Swings first) (willing : d.Willing) (at_ : α)
    (saved : Snapshot α) :
    (runFrom (Instrument.restore at_ saved) d).2.Sways (before && !(saved.kind == .autovolume)) := by
  by_cases swing : saved.kind = .autovolume
  · rw [swing, beq_self_eq_true, Bool.not_true, Bool.and_false]
    cases saved with
    | autovolume s => exact swings.set_sways willing s at_
    | _ => cases swing
  · rw [beq_false_of_ne swing, Bool.not_false, Bool.and_true]
    exact sways.spared ((Instrument.restore_assigns at_ saved).spares d).1 (Ne.symm swing)

/-- A step keeps track of whether the oscillator is stilled. -/
theorem Sways.step (sways : d.Sways before) (swings : d.Swings first) (willing : d.Willing) (step : Handling α) :
    (runFrom step.act d).2.Sways (step.stills d.instrument.params before) := by
  have calling {act : DeskM α Unit} (calls : Calling act) : (runFrom act d).2.Sways before :=
    sways.spared (calls.spares (fun _ => False) d).1 not_false
  have assigning {saved : Snapshot α} {act : DeskM α Unit} (assigns : Assigns saved act)
      (other : saved.kind ≠ .autovolume) : (runFrom act d).2.Sways before :=
    sways.spared (assigns.spares d).1 (Ne.symm other)
  cases step with
  | sync => exact calling Instrument.sync_calling
  | applyGain => exact calling Instrument.applyGain_calling
  | normalize => exact sways.spared (Instrument.normalize_spares d).1 (by decide)
  | silence => exact swings.drop_sways willing _
  | operate op =>
    cases op with
    | setVolume volume => exact assigning (Instrument.setVolume_assigns volume) (by simp [Snapshot.kind])
    | setPan pan => exact assigning (Instrument.setPan_assigns pan) (by simp [Snapshot.kind])
    | setFilter s => exact assigning (Instrument.setFilter_assigns s) (by simp [Snapshot.kind])
    | setDistortion amount => exact assigning (Instrument.setDistortion_assigns amount) (by simp [Snapshot.kind])
    | setEnvelope s => exact assigning (Instrument.setEnvelope_assigns s) (by simp [Snapshot.kind])
    | setReverb s => exact assigning (Instrument.setReverb_assigns s) (by simp [Snapshot.kind])
    | setDelay s => exact assigning (Instrument.setDelay_assigns s) (by simp [Snapshot.kind])
    | setAutopan s => exact assigning (Instrument.setAutopan_assigns s) (by simp [Snapshot.kind])
    | setAutovolume s at_ => exact swings.set_sways willing s at_
    | trigger frequencies duration at_ => exact calling (send_calling _)
    | release => exact swings.drop_sways willing _
    | begin effect =>
      simp only [Handling.act, Operation.act, Instrument.begin, Handling.stills]
      cases EffectKind.ofName? effect <;> exact sways
    | finish effect at_ =>
      simp only [Handling.act, Operation.act, Instrument.finish, Handling.stills, current, bind_assoc,
        runFrom_get_bind, pure_bind]
      rcases stacked : d.instrument.params.stack with _ | ⟨saved, rest⟩
      · rw [List.head?_nil, Option.any_none, Bool.not_false, Bool.and_true]
        exact sways
      have pops : runFrom (change fun p => { p with stack := rest }) d =
        (.ok (), { d with instrument.params.stack := rest }) := rfl
      dsimp only
      rw [runFrom_bind_ok pops, List.head?_cons, Option.any_some]
      cases saved.kind.name == effect with
      | false =>
        rw [Bool.and_false, Bool.not_false, Bool.and_true]
        exact sways
      | true =>
        rw [Bool.and_true]
        exact Sways.restore (d := { d with instrument.params.stack := rest }) sways
          (swings.unswung ⟨rfl, rfl, rfl, rfl, rfl, rfl⟩) willing at_ saved

theorem Sways.throughout (sways : d.Sways before) (swings : d.Swings first) (trials : List (Trial α))
    (accepted : ∀ t ∈ trials, t.refused = []) : (d.throughout trials).Sways (d.stilled before trials) := by
  induction trials generalizing d before with
  | nil => exact sways
  | cons t rest ih =>
    obtain ⟨here, later⟩ := List.forall_mem_cons.mp accepted
    have willing : ({ d with engine.refused := t.refused } : Desk α).Willing := fun call => by
      rw [here]
      rfl
    have ready : ({ d with engine.refused := t.refused } : Desk α).Swings first :=
      swings.unswung ⟨rfl, rfl, rfl, rfl, rfl, rfl⟩
    exact ih (Sways.step (d := { d with engine.refused := t.refused }) sways ready willing t.step) (swings.tried t)
      later

/-- A step that sends every parameter again is carried out on a willing engine, and leaves
the oscillator and the swing of the volume as they are. -/
theorem resends {again : Handling α} {gain : Parameters α → α} (resends : again.resends? = some gain)
    {p : Parameters α} {a : Patch α} :
    ∃ q : Parameters α, q.lfo = p.lfo ∧ q.autovolume = p.autovolume ∧
      Leads p a again.act q { q.patch with gain := gain q } := by
  cases again with
  | sync =>
    cases resends
    exact ⟨p, rfl, rfl, Instrument.sync_leads⟩
  | normalize =>
    cases resends
    exact Instrument.normalize_leads
  | _ => contradiction

/-- Whatever was done to an instrument, and whichever calls were refused meanwhile: once
every parameter is sent again, the patch of the voice is the one that goes with the
parameters, gain included. No oscillator of the voice runs but one that follows the swing of
the volume, and that one is active. If no call was refused, one runs just in case the swing
is active and was not stilled since it was set. -/
theorem resending_reflects_parameters {d : Desk α} {v : Voice α}
    (there : d.engine.voices[d.instrument.voice]? = some v) (fresh : v.lfo = none)
    (idle : d.instrument.params.lfo = none) (trials : List (Trial α)) {again : Handling α}
    {gain : Parameters α → α} (resends : again.resends? = some gain) :
    ∃ e, runFrom again.act { d.throughout trials with engine.refused := [] } = (.ok (), e) ∧
      (∃ w, e.engine.voices[d.instrument.voice]? = some w ∧
        w.patch = { e.instrument.params.patch with gain := gain e.instrument.params }) ∧
      (∀ i l, d.engine.lfos.size ≤ i → e.engine.lfos[i]? = some l → l.running = true →
        l.Follows e.instrument.params.autovolume ∧ e.instrument.params.autovolume.active = true) ∧
      ((∀ t ∈ trials, t.refused = []) →
        ((∃ i l, d.engine.lfos.size ≤ i ∧ e.engine.lfos[i]? = some l ∧ l.running = true) ↔
          e.instrument.params.autovolume.active = true ∧
            d.stilled d.instrument.params.autovolume.active trials = false)) := by
  have started := Swings.of_fresh there fresh idle
  have swings := started.throughout trials
  let ready : Desk α := { d.throughout trials with engine.refused := [] }
  have seat : ready.instrument.voice = d.instrument.voice := d.throughout_seat trials
  have within : d.instrument.voice < ready.engine.voices.size := seat ▸ swings.voice
  have has : ready.Has d.instrument.voice ready.instrument.params ready.engine.voices[d.instrument.voice].patch :=
    ⟨fun _ => rfl, rfl, seat, _, Array.getElem?_eq_getElem within, rfl⟩
  obtain ⟨q, lfo, autovolume, leads⟩ := Desk.resends resends
  obtain ⟨e, ran, has⟩ := leads d.instrument.voice ready has
  have resent : e.Swings d.engine.lfos.size := by
    have stepped := Swings.tried swings ⟨[], again⟩
    rwa [tried, ran] at stepped
  refine ⟨e, ran, ?_, fun i l own found running => ?_, fun accepted => ?_⟩
  · rw [has.params]
    exact has.voice
  · have holds := resent.sole i l own found running
    obtain ⟨-, k, held, -, follows⟩ := resent.held i holds
    rw [found] at held
    cases held
    exact ⟨follows, resent.active (by rw [holds, Option.isSome_some])⟩
  · have sways : e.Sways (d.stilled d.instrument.params.autovolume.active trials) := by
      have start : d.Sways d.instrument.params.autovolume.active := by
        rw [Sways, idle, Bool.and_not_self]
        rfl
      rw [Sways, has.params, lfo, autovolume]
      exact start.throughout started trials accepted
    rw [← Bool.not_eq_true' , ← Bool.and_eq_true_iff, ← sways, Option.isSome_iff_exists]
    constructor
    · rintro ⟨i, l, own, found, running⟩
      exact ⟨i, resent.sole i l own found running⟩
    · rintro ⟨i, holds⟩
      obtain ⟨latest, l, found, running, -⟩ := resent.held i holds
      exact ⟨i, l, resent.own i latest, found, running⟩

def solo : Desk ℚ := ⟨⟨"lead", 0, .initial⟩, { voices := #[Voice.initial "lead" .full] }, #[]⟩

def encore : List (Trial ℚ) :=
  [⟨[], .operate (.setAutovolume ⟨0.2, 0.8, 2⟩ 0)⟩, ⟨[], .operate .release⟩]

/-- The swing of the volume is active, every parameter was sent again, and the only
oscillator does not run. -/
theorem resending_leaves_swing_off :
    ((solo.throughout encore).tried ⟨[], .sync⟩).instrument.params.autovolume.active = true ∧
      ((solo.throughout encore).tried ⟨[], .sync⟩).engine.lfos.toList.map (·.running) = [false] := by
  decide +kernel

theorem resending_reflects_parameters_encore :
    (∃ e, runFrom Instrument.normalize { solo.throughout encore with engine.refused := [] } = (.ok (), e) ∧
      (∃ w, e.engine.voices[0]? = some w ∧
        w.patch = { e.instrument.params.patch with gain := e.instrument.params.replayGain }) ∧
      (∀ i l, 0 ≤ i → e.engine.lfos[i]? = some l → l.running = true →
        l.Follows e.instrument.params.autovolume ∧ e.instrument.params.autovolume.active = true) ∧
      ((∀ t ∈ encore, t.refused = []) →
        ((∃ i l, 0 ≤ i ∧ e.engine.lfos[i]? = some l ∧ l.running = true) ↔
          e.instrument.params.autovolume.active = true ∧ solo.stilled false encore = false))) ∧
      (∀ t ∈ encore, t.refused = []) ∧ solo.stilled false encore = true :=
  ⟨resending_reflects_parameters (d := solo) (v := Voice.initial "lead" .full) rfl rfl rfl encore
      (show Handling.normalize.resends? = some Parameters.replayGain from rfl),
    by decide +kernel, by decide +kernel⟩

end Desk

end Partita
