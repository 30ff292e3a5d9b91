import Partita.Proofs.Voice.Mirror

/-! Sections of an instrument. A `begin` puts the value of an effect on the stack and an
`end` takes the latest one off, whatever its kind. What is done in between may open and
close sections of its own, and be refused at any call: as long as it takes off no more
than it put on, the end of a section finds the snapshot that the begin took. -/
namespace Partita

open Score (EffectKind)

variable {α : Type}

theorem Score.EffectKind.ofName?_name (kind : EffectKind) : EffectKind.ofName? kind.name = some kind := by
  cases kind <;> decide +kernel

namespace Parameters

def assign (p : Parameters α) : Snapshot α → Parameters α
  | .filter s => { p with filter := s }
  | .distortion amount => { p with distortion := amount }
  | .reverb s => { p with reverb := s }
  | .delay s => { p with delay := s }
  | .envelope s => { p with envelope := s }
  | .pan position => { p with pan := position }
  | .autopan s => { p with autopan := s }
  | .autovolume s => { p with autovolume := s }
  | .volume level => { p with volume := level }

theorem assign_stack (p : Parameters α) (saved : Snapshot α) : (p.assign saved).stack = p.stack := by
  cases saved <;> rfl

theorem assign_lfo (p : Parameters α) (saved : Snapshot α) : (p.assign saved).lfo = p.lfo := by
  cases saved <;> rfl

theorem assign_here (p : Parameters α) (saved : Snapshot α) : (p.assign saved).snapshot saved.kind = saved := by
  cases saved <;> rfl

theorem assign_others (p : Parameters α) {saved : Snapshot α} {kind : EffectKind} (other : kind ≠ saved.kind) :
    (p.assign saved).snapshot kind = p.snapshot kind := by
  cases saved <;> cases kind <;> first | rfl | exact absurd rfl other

theorem snapshot_stack (p : Parameters α) (stack : List (Snapshot α)) (kind : EffectKind) :
    ({ p with stack } : Parameters α).snapshot kind = p.snapshot kind := by
  cases kind <;> rfl

theorem kind_snapshot (p : Parameters α) (kind : EffectKind) : (p.snapshot kind).kind = kind := by
  cases kind <;> rfl

end Parameters

/-- Everything that can be asked of an instrument, in tune with its voice or not. -/
inductive Handling (α : Type) where
  | operate (op : Operation α)
  | sync
  | applyGain
  | normalize
  | silence

namespace Handling

def act [Scalar α] : Handling α → DeskM α Unit
  | .operate op => op.act
  | .sync => Instrument.sync
  | .applyGain => Instrument.applyGain
  | .normalize => Instrument.normalize
  | .silence => Instrument.silence

/-- How many snapshots of its own a section has on the stack after a step, by how many it
had before. There has to be one for an end to take off. -/
def own? : Nat → Handling α → Option Nat
  | own, .operate (.begin effect) => if (EffectKind.ofName? effect).isSome then some (own + 1) else some own
  | 0, .operate (.finish ..) => none
  | own + 1, .operate (.finish ..) => some own
  | own, _ => some own

/-- Steps that take off the snapshots they put on, and no others. -/
def Balanced (steps : List (Handling α)) : Prop := steps.foldlM own? 0 = some 0

instance (steps : List (Handling α)) : Decidable (Balanced steps) :=
  inferInstanceAs (Decidable (steps.foldlM own? 0 = some 0))

end Handling

namespace Desk

def through [Scalar α] (d : Desk α) (steps : List (Handling α)) : Desk α :=
  steps.foldl (fun d step => (runFrom step.act d).2) d

/-- Calls were made, with the parameters as they are. -/
structure Steady (d e : Desk α) : Prop where
  params : e.instrument.params = d.instrument.params
  refusal : e.refusal? = d.refusal?

instance : IsPreorder (Desk α) Steady where
  refl _ := ⟨rfl, rfl⟩
  trans _ _ _ first second := ⟨second.params.trans first.params, second.refusal.trans first.refusal⟩

/-- Effects of some kinds were changed, with the stack as it is. The oscillator goes with
the swing of the volume. -/
structure Spares (kinds : EffectKind → Prop) (d e : Desk α) : Prop where
  stack : e.instrument.params.stack = d.instrument.params.stack
  others : ∀ kind, ¬ kinds kind → e.instrument.params.snapshot kind = d.instrument.params.snapshot kind
  lfo : ¬ kinds .autovolume → e.instrument.params.lfo = d.instrument.params.lfo
  refusal : e.refusal? = d.refusal?

instance (kinds : EffectKind → Prop) : IsPreorder (Desk α) (Spares kinds) where
  refl _ := ⟨rfl, fun _ _ => rfl, fun _ => rfl, rfl⟩
  trans _ _ _ first second :=
    ⟨second.stack.trans first.stack,
      fun kind other => (second.others kind other).trans (first.others kind other),
      fun other => (second.lfo other).trans (first.lfo other), second.refusal.trans first.refusal⟩

theorem Steady.spares {d e : Desk α} (steady : d.Steady e) (kinds : EffectKind → Prop) : d.Spares kinds e where
  stack := by rw [steady.params]
  others _ _ := by rw [steady.params]
  lfo _ := by rw [steady.params]
  refusal := steady.refusal

theorem Spares.widen {kinds wider : EffectKind → Prop} {d e : Desk α} (spares : d.Spares kinds e)
    (included : ∀ kind, kinds kind → wider kind) : d.Spares wider e where
  stack := spares.stack
  others kind other := spares.others kind fun within => other (included kind within)
  lfo other := spares.lfo fun within => other (included _ within)
  refusal := spares.refusal

/-- An operation that makes calls only, and returns unless one is refused. -/
structure Calling {β : Type} (act : DeskM α β) : Prop where
  steady : Within Steady (fun _ => True) act
  returns : Completes Willing act

theorem Calling.bind {β γ : Type} {act : DeskM α β} {next : β → DeskM α γ} (first : Calling act)
    (rest : ∀ b, Calling (next b)) : Calling (act >>= next) :=
  ⟨first.steady.bind fun b => (rest b).steady, first.returns.bind fun b => (rest b).returns⟩

theorem Calling.of_pure {β : Type} (b : β) : Calling (pure b : DeskM α β) :=
  ⟨.of_pure b, fun d willing => ⟨b, d, rfl, willing⟩⟩

theorem Calling.of_get_bind {β : Type} {next : Desk α → DeskM α β} (rest : ∀ d, Calling (next d)) :
    Calling (get >>= next) :=
  ⟨.of_get_bind fun d => (rest d).steady d, fun d willing => (rest d).returns d willing⟩

theorem current_calling : Calling (current (α := α)) := .of_get_bind fun _ => .of_pure _

theorem log_calling (severity : Severity) (text : String) : Calling (log (α := α) severity text) :=
  ⟨.of_modify fun _ => ⟨rfl, rfl⟩, fun _ willing => ⟨(), _, rfl, willing⟩⟩

theorem send_calling [Scalar α] (call : Call α) : Calling (send call) := by
  refine ⟨.of_related fun d => ?_, send_completes call⟩
  obtain ⟨f, -, failed⟩ | ⟨-, journal, sent⟩ := send_cases call d
  · rw [failed]
    exact ⟨rfl, rfl⟩
  · rw [sent]
    exact ⟨rfl, refusal?_of_alike (by rfl) (d.engine.apply_alike _ call)⟩

theorem Calling.spares {β : Type} {act : DeskM α β} (calls : Calling act) (kinds : EffectKind → Prop) :
    Within (Spares kinds) (fun _ => True) act :=
  .of_related fun d => (calls.steady d).1.spares kinds

/-- An operation that gives one effect a value and leaves all others alone. The swing of
the volume keeps its old value when a call is refused. -/
structure Assigns (saved : Snapshot α) (act : DeskM α Unit) : Prop where
  spares : Within (Spares (· = saved.kind)) (fun _ => True) act
  returns : Completes Willing act
  assigned : ∀ d, saved.kind ≠ .autovolume ∨ (runFrom act d).1 = .ok () →
    (runFrom act d).2.instrument.params.snapshot saved.kind = saved

theorem change_assign_spares (saved : Snapshot α) :
    Within (Spares (· = saved.kind)) (fun _ => True) (change (·.assign saved)) := by
  refine .of_modify fun d => ⟨?_, fun kind other => ?_, fun _ => ?_, rfl⟩
  · exact Parameters.assign_stack _ _
  · exact Parameters.assign_others _ other
  · exact Parameters.assign_lfo _ _

theorem change_completes (f : Parameters α → Parameters α) : Completes Willing (change f) :=
  fun _ willing => ⟨(), _, rfl, willing⟩

/-- Most effects are changed first, and sent after that. -/
theorem Assigns.of_change {saved : Snapshot α} {next : DeskM α Unit} (calls : Calling next) :
    Assigns saved (change (·.assign saved) >>= fun _ => next) where
  spares := (change_assign_spares saved).bind fun _ => calls.spares _
  returns := (change_completes _).bind fun _ => calls.returns
  assigned d _ := by
    have changed : runFrom (change (·.assign saved)) d =
        (.ok (), { d with instrument.params := d.instrument.params.assign saved }) := rfl
    rw [runFrom_bind_ok changed, (calls.steady _).1.params]
    exact Parameters.assign_here _ _

/-- What an end makes of a desk: it takes off the latest snapshot and gives it back to its
effect. The swing of the volume is not given back when a call is refused. -/
structure Restored (saved : Snapshot α) (rest : List (Snapshot α)) (d : Desk α) (result : Except Fault Unit)
    (e : Desk α) : Prop where
  stack : e.instrument.params.stack = rest
  others : ∀ kind, kind ≠ saved.kind → e.instrument.params.snapshot kind = d.instrument.params.snapshot kind
  lfo : saved.kind ≠ .autovolume → e.instrument.params.lfo = d.instrument.params.lfo
  back : saved.kind ≠ .autovolume ∨ result = .ok () → e.instrument.params.snapshot saved.kind = saved

end Desk

namespace Instrument

open Desk

variable [Scalar α]

theorem send_current_calling (call : Parameters α → Call α) : Calling (current >>= fun p => send (call p)) :=
  current_calling.bind fun p => send_calling (call p)

theorem applyGain_calling : Calling (applyGain (α := α)) := send_current_calling _

theorem sync_calling : Calling (sync (α := α)) :=
  current_calling.bind fun _ => (send_calling _).bind fun _ => (send_current_calling _).bind fun _ =>
  current_calling.bind fun _ => (send_calling _).bind fun _ => (send_current_calling _).bind fun _ =>
  (send_current_calling _).bind fun _ => (send_current_calling _).bind fun _ =>
  current_calling.bind fun _ => (send_calling _).bind fun _ => applyGain_calling

theorem setVolume_assigns (volume : α) : Assigns (.volume volume) (setVolume volume) := by
  refine .of_change (current_calling.bind fun p => .of_get_bind fun d => ?_)
  dsimp only
  split
  · exact send_calling _
  · exact (log_calling _ _).bind fun _ => send_calling _

theorem setPan_assigns (pan : α) : Assigns (.pan pan) (setPan pan) := .of_change (send_calling _)

theorem setFilter_assigns (s : Filter α) : Assigns (.filter s) (setFilter s) :=
  .of_change ((send_current_calling _).bind fun _ => .of_get_bind fun _ => log_calling _ _)

theorem setDistortion_assigns (amount : α) : Assigns (.distortion amount) (setDistortion amount) :=
  .of_change (send_calling _)

theorem setEnvelope_assigns (s : Envelope α) : Assigns (.envelope s) (setEnvelope s) :=
  .of_change (send_current_calling _)

theorem setReverb_assigns (s : Reverb α) : Assigns (.reverb s) (setReverb s) :=
  .of_change ((send_current_calling _).bind fun _ => applyGain_calling)

theorem setDelay_assigns (s : Delay α) : Assigns (.delay s) (setDelay s) := by
  refine .of_change ((send_current_calling _).bind fun _ => applyGain_calling.bind fun _ =>
    current_calling.bind fun p => .of_get_bind fun d => ?_)
  have warned (name : String) : Calling (if 0.7 < s.feedback then
      log .info s!"{name}: high delay feedback ({Scalar.text s.feedback}), volume compensated"
      else pure () : DeskM α Unit) := by
    split
    · exact log_calling _ _
    · exact .of_pure ()
  dsimp only
  split
  · exact warned _
  · exact (log_calling _ _).bind fun _ => warned _

theorem setAutopan_assigns (s : AutoPan α) : Assigns (.autopan s) (setAutopan s) := .of_change (send_calling _)

omit [Scalar α] in
theorem change_lfo_spares (lfo : Option Nat) :
    Within (Spares (· = .autovolume)) (fun _ => True) (change (α := α) ({ · with lfo })) :=
  .of_modify fun _ => ⟨rfl, fun kind _ => by cases kind <;> rfl, fun other => absurd rfl other, rfl⟩

theorem dropLfo_spares : Within (Spares (· = .autovolume)) (fun _ => True) (dropLfo (α := α)) := by
  refine (current_calling.spares _).bind fun p => ?_
  split
  · exact ((send_calling _).spares _).bind fun _ => change_lfo_spares none
  · exact .of_pure ()

theorem dropLfo_completes : Completes Willing (dropLfo (α := α)) := by
  refine current_calling.returns.bind fun p => ?_
  split
  · exact (send_completes _).bind fun _ => change_completes _
  · exact (Calling.of_pure ()).returns

def swing (s : AutoVolume α) (at_ : α) : DeskM α Unit := do
  dropLfo
  if s.active then
    let id := (← get).engine.lfos.size
    send (.startLfo s.rate (linearToDb s.min) (linearToDb s.max) at_)
    change ({ · with lfo := some id })
  else applyGain

theorem setAutovolume_eq (s : AutoVolume α) (at_ : α) :
    setAutovolume s at_ = swing s at_ >>= fun _ => change (·.assign (.autovolume s)) := by
  unfold setAutovolume swing
  cases s.active <;> simp [bind_assoc, Parameters.assign]

theorem swing_spares (s : AutoVolume α) (at_ : α) :
    Within (Spares (· = .autovolume)) (fun _ => True) (swing s at_) := by
  refine dropLfo_spares.bind fun _ => ?_
  split
  · exact .of_get_bind fun d => ((send_calling _).spares _).bind (fun _ => change_lfo_spares _) d
  · exact applyGain_calling.spares _

theorem swing_completes (s : AutoVolume α) (at_ : α) : Completes Willing (swing s at_) := by
  refine dropLfo_completes.bind fun _ => ?_
  split
  · exact fun d => (send_completes _).bind (fun _ => change_completes _) d
  · exact applyGain_calling.returns

/-- The swing of the volume is changed last, after the calls. -/
theorem setAutovolume_assigns (s : AutoVolume α) (at_ : α) : Assigns (.autovolume s) (setAutovolume s at_) := by
  rw [setAutovolume_eq]
  refine ⟨(swing_spares s at_).bind fun _ => change_assign_spares (.autovolume s),
    (swing_completes s at_).bind fun _ => change_completes _, fun d returned => ?_⟩
  obtain other | returned := returned
  · exact absurd rfl other
  · obtain ⟨_, t, -, ran⟩ := runFrom_bind_eq_ok (Prod.ext returned rfl)
    rw [← (Prod.ext_iff.mp ran).2]
    exact t.instrument.params.assign_here (.autovolume s)

theorem restore_assigns (at_ : α) (saved : Snapshot α) : Assigns saved (restore at_ saved) := by
  cases saved with
  | filter s => exact setFilter_assigns s
  | distortion amount => exact setDistortion_assigns amount
  | reverb s => exact setReverb_assigns s
  | delay s => exact setDelay_assigns s
  | envelope s => exact setEnvelope_assigns s
  | pan position => exact setPan_assigns position
  | autopan s => exact setAutopan_assigns s
  | autovolume s => exact setAutovolume_assigns s at_
  | volume level => exact setVolume_assigns level

theorem normalize_spares : Within (Spares (· = .volume)) (fun _ => True) (normalize (α := α)) := by
  have sent : Calling (do
      sync
      let p ← current
      send (.setGain (volumeToDb p.volume + p.normalization)) : DeskM α Unit) :=
    sync_calling.bind fun _ => send_current_calling _
  refine (current_calling.spares _).bind fun p => ?_
  dsimp only
  split
  · exact (change_assign_spares (.volume boostedVolume)).bind fun _ => sent.spares _
  · exact sent.spares _

/-- An end of the right kind takes a snapshot off and brings it back. It returns unless a
call is refused. -/
theorem finish_restores {d : Desk α} {saved : Snapshot α} {rest : List (Snapshot α)}
    (stacked : d.instrument.params.stack = saved :: rest) (at_ : α) :
    ∃ result ended, runFrom (finish saved.kind.name at_) d = (result, ended) ∧
      d.Restored saved rest result ended ∧ (d.Willing → result = .ok ()) := by
  let popped : Desk α := { d with instrument.params.stack := rest }
  have ends : runFrom (finish saved.kind.name at_) d = runFrom (restore at_ saved) popped := by
    rw [finish, current, bind_assoc, runFrom_get_bind, pure_bind, stacked]
    dsimp only
    rw [beq_self_eq_true, if_pos rfl]
    rfl
  have assigns := restore_assigns at_ saved
  have spares := (assigns.spares popped).1
  refine ⟨_, _, ends, ⟨spares.stack, fun kind other => ?_, spares.lfo ∘ Ne.symm, assigns.assigned popped⟩,
    fun willing => ?_⟩
  · exact (spares.others kind other).trans (Parameters.snapshot_stack _ _ kind)
  · obtain ⟨_, _, returned, -⟩ := assigns.returns popped willing
    exact congrArg Prod.fst returned

end Instrument

open Desk Instrument

namespace Handling

def pile (p : Parameters α) : Handling α → List (Snapshot α)
  | .operate (.begin effect) => match EffectKind.ofName? effect with
    | some kind => p.snapshot kind :: p.stack
    | none => p.stack
  | .operate (.finish ..) => p.stack.tail
  | _ => p.stack

variable [Scalar α]

/-- Apart from the stack, a step changes parameters only, and the setup of the engine
stays. -/
theorem act_spares (step : Handling α) (d : Desk α) :
    Spares (fun _ => True) { d with instrument.params.stack := step.pile d.instrument.params }
      (runFrom step.act d).2 := by
  have calling {act : DeskM α Unit} (calls : Calling act) : Spares (fun _ => True) d (runFrom act d).2 :=
    (calls.spares _ d).1
  have assigning {saved : Snapshot α} {act : DeskM α Unit} (assigns : Assigns saved act) (e : Desk α) :
      Spares (fun _ => True) e (runFrom act e).2 := (assigns.spares e).1.widen fun _ _ => trivial
  have dropping (call : Call α) : Spares (fun _ => True) d (runFrom (dropLfo >>= fun _ => send call) d).2 :=
    (dropLfo_spares.bind (fun _ => (send_calling call).spares _) d).1.widen fun _ _ => trivial
  cases step with
  | sync => exact calling sync_calling
  | applyGain => exact calling applyGain_calling
  | normalize => exact (normalize_spares d).1.widen fun _ _ => trivial
  | silence => exact dropping _
  | operate op =>
    cases op with
    | setVolume volume => exact assigning (setVolume_assigns volume) d
    | setPan pan => exact assigning (setPan_assigns pan) d
    | setFilter s => exact assigning (setFilter_assigns s) d
    | setDistortion amount => exact assigning (setDistortion_assigns amount) d
    | setEnvelope s => exact assigning (setEnvelope_assigns s) d
    | setReverb s => exact assigning (setReverb_assigns s) d
    | setDelay s => exact assigning (setDelay_assigns s) d
    | setAutopan s => exact assigning (setAutopan_assigns s) d
    | setAutovolume s at_ => exact assigning (setAutovolume_assigns s at_) d
    | trigger frequencies duration at_ => exact calling (send_calling _)
    | release => exact dropping _
    | begin effect =>
      simp only [act, Operation.act, begin, pile]
      cases EffectKind.ofName? effect <;> exact refl_of (Spares fun _ => True) _
    | finish effect at_ =>
      simp only [act, Operation.act, finish, pile, current, bind_assoc, runFrom_get_bind, pure_bind]
      rcases stacked : d.instrument.params.stack with _ | ⟨saved, rest⟩
      · change Spares _ { d with instrument.params.stack := [] } d
        rw [← stacked]
        exact refl_of (Spares fun _ => True) d
      · have popped : runFrom (change fun p => { p with stack := rest }) d =
          (.ok (), { d with instrument.params.stack := rest }) := rfl
        dsimp only
        rw [runFrom_bind_ok popped]
        split
        · exact assigning (restore_assigns at_ saved) _
        · exact ((log_calling _ _).spares _ _).1

end Handling

namespace Desk

/-- The stack holds a number of snapshots above those that were there. -/
def Above (base : List (Snapshot α)) (own : Nat) (d : Desk α) : Prop :=
  ∃ top, d.instrument.params.stack = top ++ base ∧ top.length = own

variable [Scalar α]

theorem Above.step {base : List (Snapshot α)} {own own' : Nat} {d : Desk α} (above : d.Above base own)
    {step : Handling α} (counted : Handling.own? own step = some own') :
    (runFrom step.act d).2.Above base own' := by
  obtain ⟨top, stacked, size⟩ := above
  suffices ∃ top', step.pile d.instrument.params = top' ++ base ∧ top'.length = own' by
    simpa only [Above, (step.act_spares d).stack] using this
  have same : ∃ top', d.instrument.params.stack = top' ++ base ∧ top'.length = own := ⟨top, stacked, size⟩
  rcases step with op | _ | _ | _ | _
  · cases op with
    | begin effect =>
      cases known : EffectKind.ofName? effect with
      | none =>
        simp only [Handling.own?, known, Option.isSome_none, Bool.false_eq_true, if_false] at counted
        cases counted
        simpa only [Handling.pile, known] using same
      | some kind =>
        simp only [Handling.own?, known, Option.isSome_some, if_true] at counted
        cases counted
        refine ⟨d.instrument.params.snapshot kind :: top, ?_, by rw [List.length_cons, size]⟩
        simp only [Handling.pile, known, stacked, List.cons_append]
    | finish effect at_ =>
      subst size
      rcases top with _ | ⟨saved, rest⟩
      · contradiction
      · cases counted
        exact ⟨rest, by simp only [Handling.pile, stacked, List.cons_append, List.tail_cons], rfl⟩
    | _ => cases counted; exact same
  all_goals cases counted; exact same

/-- Over all steps the snapshots from before are as they were. -/
theorem Above.through {base : List (Snapshot α)} {steps : List (Handling α)} {own own' : Nat} {d : Desk α}
    (above : d.Above base own) (counted : steps.foldlM Handling.own? own = some own') :
    (d.through steps).Above base own' := by
  induction steps generalizing own d with
  | nil => cases counted; exact above
  | cons step rest ih =>
    rw [List.foldlM_cons] at counted
    obtain ⟨next, here, later⟩ := Option.bind_eq_some_iff.mp counted
    exact ih (above.step here) later

theorem Willing.through {d : Desk α} (willing : d.Willing) (steps : List (Handling α)) :
    (d.through steps).Willing := by
  induction steps generalizing d with
  | nil => exact willing
  | cons step rest ih =>
    apply ih
    rw [Willing, (step.act_spares d).refusal]
    exact willing

/-- A section of an effect, whatever is done in between: the stack and the effect are as
they were ahead of the section, and all other effects as they were left. -/
theorem section_restores (d : Desk α) (kind : EffectKind) {steps : List (Handling α)}
    (balanced : Handling.Balanced steps) (at_ : α) :
    ∃ opened, runFrom (begin kind.name) d = (.ok (), opened) ∧
      ∃ result ended, runFrom (finish kind.name at_) (opened.through steps) = (result, ended) ∧
        (opened.through steps).Restored (d.instrument.params.snapshot kind) d.instrument.params.stack result ended ∧
        (d.Willing → result = .ok ()) := by
  let saved := d.instrument.params.snapshot kind
  let opened : Desk α := { d with instrument.params.stack := saved :: d.instrument.params.stack }
  have began : runFrom (begin kind.name) d = (.ok (), opened) := by
    rw [begin, kind.ofName?_name]
    rfl
  -- what is left on the stack of the section itself is nothing, so that its snapshot is on top
  obtain ⟨top, stacked, size⟩ : (opened.through steps).Above opened.instrument.params.stack 0 :=
    Above.through ⟨[], rfl, rfl⟩ balanced
  obtain rfl := List.length_eq_zero_iff.mp size
  obtain ⟨result, ended, ends, restored, returns⟩ := finish_restores stacked at_
  rw [d.instrument.params.kind_snapshot kind] at ends
  have begun : d.Willing → opened.Willing := id
  exact ⟨opened, began, result, ended, ends, restored, fun willing => returns ((begun willing).through steps)⟩

def stubborn : Desk ℚ :=
  ⟨⟨"lead", 0, { (.initial : Parameters ℚ) with volume := 50, stack := [.pan 1] }⟩,
    { voices := #[Voice.initial "lead" .full], refused := ["set_reverb"] }, #[]⟩

def interlude : List (Handling ℚ) :=
  [.operate (.begin "volume"), .operate (.setAutovolume ⟨0, 1, 2⟩ 0), .operate (.begin "echo"),
    .operate (.begin "reverb"), .operate (.setReverb ⟨1, 0, 2, 0⟩), .sync, .operate (.finish "pan" 1), .normalize,
    .operate (.setAutovolume ⟨0, 1, 3⟩ 1), .operate (.finish "volume" 2), .silence]

theorem section_restores_interlude :
    Handling.Balanced interlude ∧
      ∃ opened, runFrom (begin "autovolume") stubborn = (.ok (), opened) ∧
        ∃ result ended, runFrom (finish "autovolume" 3) (opened.through interlude) = (result, ended) ∧
          (opened.through interlude).Restored (.autovolume ⟨0, 0, 0⟩) [.pan 1] result ended ∧
          (stubborn.Willing → result = .ok ()) := by
  have balanced : Handling.Balanced interlude := by decide +kernel
  exact ⟨balanced, section_restores stubborn .autovolume balanced 3⟩

end Desk

end Partita
