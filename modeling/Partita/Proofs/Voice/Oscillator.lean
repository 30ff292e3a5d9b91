import Partita.Proofs.Voice.Handling

/-! The oscillator that swings the volume of a voice is held in three places: by the
instrument, by the voice, and by the notes that were played while it ran. The instrument
starts one for a swing of the volume, a restored one included, and stops it when the swing is
replaced or removed and when its notes fade or stop, and any of these calls may be refused.
What holds at every moment is that no oscillator runs but the one the instrument holds. -/
namespace Partita

variable {α : Type} [Scalar α]

/-- An oscillator that swings between the levels of a swing of the volume, at its rate. -/
structure Lfo.Follows (l : Lfo α) (s : AutoVolume α) : Prop where
  rate : l.rate = s.rate
  low : l.low = linearToDb s.min
  high : l.high = linearToDb s.max

namespace Engine

omit [Scalar α] in
theorem stopLfo_lfos (e : Engine α) (j : Nat) {i : Nat} {l : Lfo α} (found : (e.stopLfo j).lfos[i]? = some l)
    (running : l.running = true) : e.lfos[i]? = some l ∧ i ≠ j := by
  simp only [stopLfo, Array.getElem?_modify] at found
  split at found
  · obtain ⟨k, -, rfl⟩ := Option.map_eq_some_iff.mp found
    contradiction
  · exact ⟨found, fun same => by omega⟩

/-- Calls that set a parameter, and notes, leave the oscillators alone. -/
theorem apply_lfos {e : Engine α} (id : Nat) {call : Call α}
    (quiet : call.isPlain = true ∨ call.isNote = true) :
    (e.apply id call).lfos = e.lfos ∧ (e.apply id call).voices.size = e.voices.size ∧
      (e.apply id call).voices[id]?.bind (·.lfo) = e.voices[id]?.bind (·.lfo) := by
  cases call with
  | startLfo | stopLfo | silence => simp [Call.isPlain, Call.isNote] at quiet
  | trigger frequencies duration at_ =>
    simp only [apply]
    split
    · exact ⟨rfl, rfl, rfl⟩
    · split
      · exact ⟨rfl, rfl, rfl⟩
      · simp [Array.getElem?_modify, Option.bind_map]
  | _ => simp [apply, Array.getElem?_modify, Voice.apply, Option.bind_map]

/-- All calls but those that play notes keep the notes of the voice, or drop them together. -/
theorem apply_notes (e : Engine α) (id : Nat) {call : Call α} (silent : call.isNote = false) :
    (e.apply id call).voices[id]?.map (·.notes) = e.voices[id]?.map (·.notes) ∨
      (e.apply id call).voices[id]?.map (·.notes) = e.voices[id]?.map fun _ => #[] := by
  cases call with
  | trigger frequencies duration at_ => contradiction
  | startLfo rate low high at_ =>
    simp only [apply]
    split
    · exact .inl rfl
    · simp [Array.getElem?_modify, Function.comp_def]
  | stopLfo index => exact .inl rfl
  | silence =>
    right
    simp only [apply]
    split <;> simp [stopLfo, Array.getElem?_modify, Voice.apply, Function.comp_def]
  | _ => simp [apply, Array.getElem?_modify, Voice.apply, Function.comp_def]

end Engine

namespace Desk

def latest? (d : Desk α) : Option Nat := d.engine.voices[d.instrument.voice]?.bind (·.lfo)

/-- The oscillators of a voice are those of the numbers from `first` on. None of them runs
but the one that the instrument holds, which its voice started last, and that one swings the
volume as the instrument has it set. -/
structure Swings (first : Nat) (d : Desk α) : Prop where
  voice : d.instrument.voice < d.engine.voices.size
  room : first ≤ d.engine.lfos.size
  own : ∀ i, d.latest? = some i → first ≤ i
  sole : ∀ i l, first ≤ i → d.engine.lfos[i]? = some l → l.running = true → d.instrument.params.lfo = some i
  held : ∀ i, d.instrument.params.lfo = some i → d.latest? = some i ∧
    ∃ l, d.engine.lfos[i]? = some l ∧ l.running = true ∧ l.Follows d.instrument.params.autovolume
  active : d.instrument.params.lfo.isSome = true → d.instrument.params.autovolume.active = true

/-- A voice that has started no oscillator yet will have those that are started next. -/
theorem Swings.of_fresh {d : Desk α} {v : Voice α} (there : d.engine.voices[d.instrument.voice]? = some v)
    (fresh : v.lfo = none) (idle : d.instrument.params.lfo = none) : d.Swings d.engine.lfos.size := by
  obtain ⟨within, -⟩ := Array.getElem?_eq_some_iff.mp there
  have unstarted : d.latest? = none := by rw [latest?, there, Option.bind_some, fresh]
  refine ⟨within, le_rfl, ?_, fun i l own found => ?_, ?_, ?_⟩
  · simp only [unstarted, reduceCtorEq, false_implies, implies_true]
  · exact absurd (Array.getElem?_eq_some_iff.mp found).1 (Nat.not_lt.mpr own)
  · simp only [idle, reduceCtorEq, false_implies, implies_true]
  · simp only [idle, Option.isSome_none, Bool.false_eq_true, false_implies]

structure Unswung (d e : Desk α) : Prop where
  seat : e.instrument.voice = d.instrument.voice
  voices : e.engine.voices.size = d.engine.voices.size
  latest : e.latest? = d.latest?
  lfos : e.engine.lfos = d.engine.lfos
  lfo : e.instrument.params.lfo = d.instrument.params.lfo
  autovolume : e.instrument.params.autovolume = d.instrument.params.autovolume

variable {first : Nat} {d e : Desk α}

theorem Swings.unswung (swings : d.Swings first) (same : d.Unswung e) : e.Swings first := by
  constructor
  · rw [same.seat, same.voices]
    exact swings.voice
  · rw [same.lfos]
    exact swings.room
  · rw [same.latest]
    exact swings.own
  · rw [same.lfos, same.lfo]
    exact swings.sole
  · rw [same.latest, same.lfos, same.lfo, same.autovolume]
    exact swings.held
  · rw [same.lfo, same.autovolume]
    exact swings.active

theorem send_unswung {call : Call α}
    (quiet : call.isPlain = true ∨ call.isNote = true) (d : Desk α) : d.Unswung (runFrom (send call) d).2 := by
  obtain ⟨f, -, refused⟩ | ⟨-, journal, sent⟩ := send_cases call d
  · rw [refused]
    exact ⟨rfl, rfl, rfl, rfl, rfl, rfl⟩
  · obtain ⟨lfos, voices, latest⟩ := Engine.apply_lfos (e := d.engine) d.instrument.voice quiet
    rw [sent]
    exact ⟨rfl, voices, latest, lfos, rfl, rfl⟩

/-- An instrument that holds no oscillator, so that none of its voice runs, whichever swing
of the volume is set. -/
theorem Swings.of_idle (swings : d.Swings first) (seat : e.instrument.voice = d.instrument.voice)
    (voices : e.engine.voices.size = d.engine.voices.size) (latest : e.latest? = d.latest?)
    (room : d.engine.lfos.size ≤ e.engine.lfos.size) (idle : e.instrument.params.lfo = none)
    (stopped : ∀ i l, first ≤ i → e.engine.lfos[i]? = some l → l.running = false) : e.Swings first := by
  constructor
  · rw [seat, voices]
    exact swings.voice
  · exact swings.room.trans room
  · rw [latest]
    exact swings.own
  · intro i l own found running
    rw [stopped i l own found] at running
    contradiction
  · intro i holds
    rw [idle] at holds
    contradiction
  · intro holds
    rw [idle] at holds
    contradiction

/-- With no oscillator held, none of the voice runs. -/
theorem Swings.stopped (swings : d.Swings first) (idle : d.instrument.params.lfo = none) {i : Nat} {l : Lfo α}
    (own : first ≤ i) (found : d.engine.lfos[i]? = some l) : l.running = false := by
  cases running : l.running with
  | false => rfl
  | true =>
    have holds := swings.sole i l own found running
    rw [idle] at holds
    contradiction

/-- The oscillator that is held is dropped, unless the engine refuses to stop it. -/
theorem Swings.drop (swings : d.Swings first) :
    (∃ f, runFrom Instrument.dropLfo d = (.error f, d)) ∨
      ∃ e, runFrom Instrument.dropLfo d = (.ok (), e) ∧ e.Swings first ∧ e.instrument.params.lfo = none ∧
        e.refusal? = d.refusal? := by
  rw [Instrument.dropLfo, current, bind_assoc, runFrom_get_bind, pure_bind]
  rcases holds : d.instrument.params.lfo with _ | i
  · exact .inr ⟨d, rfl, swings, holds, rfl⟩
  dsimp only
  obtain ⟨f, -, refused⟩ | ⟨-, journal, sent⟩ := send_cases (.stopLfo i) d
  · exact .inl ⟨_, runFrom_bind_error refused⟩
  rw [runFrom_bind_ok sent]
  refine .inr ⟨_, rfl, ?_, rfl, rfl⟩
  refine swings.of_idle rfl rfl rfl (by simp [Engine.apply, Engine.stopLfo]) rfl fun j l own found => ?_
  cases running : l.running with
  | false => rfl
  | true =>
    -- another one that runs would be held as well
    obtain ⟨found, other⟩ := d.engine.stopLfo_lfos i found running
    have also := swings.sole j l own found running
    rw [holds] at also
    cases also
    contradiction

/-- The oscillator that was started is held from then on, and the swing of the volume is
the one that it follows. -/
theorem Swings.start (swings : d.Swings first) (idle : d.instrument.params.lfo = none) {s : AutoVolume α}
    (active : s.active = true) (at_ : α) (journal : Array (Event α)) :
    Swings first
      ⟨{ d.instrument with
          params := { d.instrument.params with lfo := some d.engine.lfos.size, autovolume := s } },
        d.engine.apply d.instrument.voice (.startLfo s.rate (linearToDb s.min) (linearToDb s.max) at_), journal⟩ := by
  obtain ⟨v, found⟩ : ∃ v, d.engine.voices[d.instrument.voice]? = some v :=
    ⟨_, Array.getElem?_eq_getElem swings.voice⟩
  constructor
  · simpa [Engine.apply, found] using swings.voice
  · simpa [Engine.apply, found] using swings.room.trans (Nat.le_succ _)
  · intro i latest
    simp only [latest?, Engine.apply, found, Array.getElem?_modify, if_true, Option.map_some, Option.bind_some,
      Option.some.injEq] at latest
    exact latest ▸ swings.room
  · intro i l own there running
    simp only [Engine.apply, found, Array.getElem?_push] at there
    split at there
    · rename_i here
      exact congrArg some here.symm
    · rw [swings.stopped idle own there] at running
      contradiction
  · intro i holds
    cases holds
    refine ⟨by simp [latest?, Engine.apply, found, Array.getElem?_modify],
      ⟨v.lfoCount, s.rate, linearToDb s.min, linearToDb s.max, at_, true⟩, ?_, rfl, rfl, rfl, rfl⟩
    simp only [Engine.apply, found, Array.getElem?_push, if_true]
  · exact fun _ => active

theorem Swings.swing (swings : d.Swings first) (s : AutoVolume α) (at_ : α) :
    (runFrom (Instrument.setAutovolume s at_) d).2.Swings first := by
  rw [Instrument.setAutovolume]
  obtain ⟨f, refused⟩ | ⟨e, dropped, swings, idle, -⟩ := swings.drop
  · rw [runFrom_bind_error refused]
    exact swings
  rw [runFrom_bind_ok dropped]
  cases active : s.active with
  | true =>
    simp only [if_true, runFrom_get_bind]
    obtain ⟨f, -, refused⟩ | ⟨-, journal, sent⟩ :=
      send_cases (.startLfo s.rate (linearToDb s.min) (linearToDb s.max) at_) e
    · rw [runFrom_bind_error refused]
      exact swings
    · rw [runFrom_bind_ok sent]
      exact swings.start idle active at_ journal
  | false =>
    simp only [Bool.false_eq_true, if_false]
    have calls : e.Unswung (runFrom (send (.setGain e.instrument.params.gain)) e).2 := send_unswung (.inl rfl) e
    rw [Instrument.applyGain, current, bind_assoc, bind_assoc, runFrom_get_bind, pure_bind, runFrom_bind]
    rcases sent : runFrom (send (.setGain e.instrument.params.gain)) e with ⟨result, t⟩
    rw [sent] at calls
    have swings' := swings.unswung calls
    cases result with
    | error f => exact swings'
    | ok _ =>
      have idle' : t.instrument.params.lfo = none := calls.lfo.trans idle
      exact swings'.of_idle rfl rfl rfl le_rfl idle' fun i l own found => swings'.stopped idle' own found

theorem Swings.silence (swings : d.Swings first) : (runFrom Instrument.silence d).2.Swings first := by
  rw [Instrument.silence]
  obtain ⟨f, refused⟩ | ⟨e, dropped, swings, idle, -⟩ := swings.drop
  · rw [runFrom_bind_error refused]
    exact swings
  rw [runFrom_bind_ok dropped]
  obtain ⟨f, -, refused⟩ | ⟨-, journal, sent⟩ := send_cases .silence e
  · rw [refused]
    exact swings
  rw [sent]
  refine swings.of_idle rfl ?_ ?_ ?_ idle fun i l own found => ?_
  · simp only [Engine.apply]
    split <;> simp [Engine.stopLfo]
  · simp only [latest?, Engine.apply]
    split <;> simp [Engine.stopLfo, Array.getElem?_modify, Option.bind_map, Voice.apply]
  · simp only [Engine.apply]
    split <;> simp [Engine.stopLfo]
  · cases running : l.running with
    | false => rfl
    | true =>
      have before : e.engine.lfos[i]? = some l := by
        simp only [Engine.apply] at found
        split at found
        · exact (e.engine.stopLfo_lfos _ found running).1
        · exact found
      rw [swings.stopped idle own before] at running
      contradiction

def Ordered (first : Nat) (d e : Desk α) : Prop := d.Swings first → e.Swings first

instance (first : Nat) : IsPreorder (Desk α) (Ordered first) where
  refl _ := id
  trans _ _ _ before after := after ∘ before

theorem unswung_inside {β : Type} {act : DeskM α β} (same : ∀ d : Desk α, d.Unswung (runFrom act d).2) :
    Inside (Ordered first) act :=
  .of_related fun d swings => swings.unswung (same d)

theorem ordered_carries : Carries (Ordered (α := α) first) where
  log _ _ := unswung_inside fun _ => ⟨rfl, rfl, rfl, rfl, rfl, rfl⟩
  send plain := unswung_inside (send_unswung (.inl plain))
  assign {saved} other := by
    refine unswung_inside fun d => ⟨rfl, rfl, rfl, rfl, Parameters.assign_lfo _ _, ?_⟩
    cases saved with
    | autovolume => contradiction
    | _ => rfl
  pile _ := unswung_inside fun _ => ⟨rfl, rfl, rfl, rfl, rfl, rfl⟩
  drop := by
    refine .of_related fun d swings => ?_
    obtain ⟨f, refused⟩ | ⟨e, dropped, swings', -⟩ := swings.drop
    · rwa [refused]
    · rwa [dropped]
  swing s at_ := .of_related fun _ swings => swings.swing s at_
  silence := .of_related fun _ swings => swings.silence

theorem Swings.step (swings : d.Swings first) (step : Handling α) : (runFrom step.act d).2.Swings first :=
  (ordered_carries.act step (fun _ _ _ _ =>
    unswung_inside (send_unswung (.inr rfl))) d).1 swings

def notes (d : Desk α) : Array (Note α) := (d.engine.voices[d.instrument.voice]?.map (·.notes)).getD #[]

/-- No note was played: those of the voice were kept, or dropped together. -/
structure Hushed (d e : Desk α) : Prop where
  seat : e.instrument.voice = d.instrument.voice
  notes : e.notes = d.notes ∨ e.notes = #[]

instance : IsPreorder (Desk α) Hushed where
  refl _ := ⟨rfl, .inl rfl⟩
  trans _ _ _ before after := by
    refine ⟨after.seat.trans before.seat, ?_⟩
    obtain kept | dropped := after.notes
    · rw [kept]
      exact before.notes
    · exact .inr dropped

theorem send_hushed {call : Call α} (silent : call.isNote = false) : Inside Hushed (send call) := by
  refine .of_related fun d => ?_
  obtain ⟨f, -, refused⟩ | ⟨-, journal, sent⟩ := send_cases call d
  · rw [refused]
    exact refl_of Hushed d
  rw [sent]
  refine ⟨rfl, ?_⟩
  simp only [notes]
  obtain kept | dropped := d.engine.apply_notes d.instrument.voice silent
  · exact .inl (by rw [kept])
  · right
    rw [dropped]
    cases d.engine.voices[d.instrument.voice]? <;> rfl

omit [Scalar α] in
theorem change_hushed (f : Parameters α → Parameters α) : Inside Hushed (change f) :=
  .of_modify fun _ => ⟨rfl, .inl rfl⟩

theorem hushed_carries : Carries (Hushed (α := α)) :=
  .of_calls (fun _ _ => .of_modify fun _ => ⟨rfl, .inl rfl⟩) send_hushed change_hushed

/-- An instrument stays with its voice. -/
theorem step_seat (d : Desk α) (step : Handling α) :
    (runFrom step.act d).2.instrument.voice = d.instrument.voice := by
  by_cases note : ∃ frequencies duration at_, step = .operate (.trigger frequencies duration at_)
  · obtain ⟨frequencies, duration, at_, rfl⟩ := note
    exact (send_unswung (.inr rfl) d).seat
  · exact (hushed_carries.act step (fun frequencies duration at_ trigger =>
      absurd ⟨frequencies, duration, at_, trigger⟩ note) d).1.seat

end Desk

/-- A step, and the calls that the engine refuses while it is made. -/
structure Trial (α : Type) where
  refused : List Engine.Refusal
  step : Handling α

/-- Whether a trial at a desk plays a note: one with a pitch and a length, that is not refused. -/
def Trial.sounds (t : Trial α) (d : Desk α) : Bool :=
  match t.step with
  | .operate (.trigger frequencies duration at_) =>
    !(frequencies.isEmpty || duration ≤ 0) &&
      ({ d with engine.refused := t.refused }.refusal? (.trigger frequencies duration at_)).isNone
  | _ => false

namespace Desk

variable {first : Nat} {d : Desk α}

def tried (d : Desk α) (t : Trial α) : Desk α := (runFrom t.step.act { d with engine.refused := t.refused }).2

def throughout (d : Desk α) (trials : List (Trial α)) : Desk α := trials.foldl tried d

theorem Swings.tried (swings : d.Swings first) (t : Trial α) : (d.tried t).Swings first :=
  Swings.step (d := { d with engine.refused := t.refused })
    (swings.unswung ⟨rfl, rfl, rfl, rfl, rfl, rfl⟩) t.step

theorem Swings.throughout (swings : d.Swings first) (trials : List (Trial α)) :
    (d.throughout trials).Swings first := by
  induction trials generalizing d with
  | nil => exact swings
  | cons t rest ih => exact ih (swings.tried t)

theorem throughout_seat (d : Desk α) (trials : List (Trial α)) :
    (d.throughout trials).instrument.voice = d.instrument.voice := by
  induction trials generalizing d with
  | nil => rfl
  | cons t rest ih => exact (ih (d.tried t)).trans (step_seat { d with engine.refused := t.refused } t.step)

/-- A note that is played carries the oscillator that the instrument holds. -/
theorem Swings.trigger (swings : d.Swings first) {frequencies : List α} {duration : α} (at_ : α)
    (sounding : (frequencies.isEmpty || decide (duration ≤ 0)) = false)
    (accepted : d.refusal? (.trigger frequencies duration at_) = none) :
    ∃ note : Note α, (runFrom (Instrument.trigger frequencies duration at_) d).2.notes = d.notes.push note ∧
      note.lfo = d.instrument.params.lfo := by
  obtain ⟨v, found⟩ : ∃ v, d.engine.voices[d.instrument.voice]? = some v :=
    ⟨_, Array.getElem?_eq_getElem swings.voice⟩
  have latest : d.latest? = v.lfo := by rw [latest?, found, Option.bind_some]
  obtain ⟨journal, sent⟩ : ∃ journal, runFrom (send (.trigger frequencies duration at_)) d =
      (.ok (), ⟨d.instrument, d.engine.apply d.instrument.voice (.trigger frequencies duration at_), journal⟩) :=
    send_eq accepted
  refine ⟨⟨frequencies.take maxPolyphony, duration, at_, v.patch, d.engine.runningLfo? v⟩, ?_, ?_⟩
  · rw [Instrument.trigger, sent]
    simp [notes, Engine.apply, sounding, found, Array.getElem?_modify]
  · change d.engine.runningLfo? v = _
    rw [Engine.runningLfo?]
    cases holds : d.instrument.params.lfo with
    | some i =>
      obtain ⟨started, l, running, runs, -⟩ := swings.held i holds
      rw [← latest, started, Option.filter_some, running, Option.map_some, Option.getD_some, if_pos runs]
    | none =>
      -- the one that the voice started last, if any, was stopped
      refine Option.filter_eq_none_iff.mpr fun i started runs => ?_
      obtain ⟨l, running, runs⟩ : ∃ l, d.engine.lfos[i]? = some l ∧ l.running = true := by
        simpa only [Option.getD_eq_iff, Option.map_eq_some_iff, Bool.false_eq_true, and_false, or_false]
          using runs
      rw [swings.stopped holds (swings.own i (latest.trans started)) running] at runs
      contradiction

/-- A note without a pitch or a length is not kept. -/
theorem trigger_unheard {frequencies : List α} {duration : α} (at_ : α)
    (unheard : (frequencies.isEmpty || decide (duration ≤ 0)) = true ∨
      d.refusal? (.trigger frequencies duration at_) ≠ none) :
    (runFrom (Instrument.trigger frequencies duration at_) d).2.notes = d.notes := by
  rw [Instrument.trigger]
  obtain ⟨f, -, refused⟩ | ⟨accepted, journal, sent⟩ := send_cases (.trigger frequencies duration at_) d
  · rw [refused]
  · rw [sent]
    obtain unheard | refused := unheard
    · simp only [notes, Engine.apply, unheard, if_true]
    · exact absurd accepted refused

/-- A trial plays a note or none, and a note carries the oscillator that the instrument
holds. -/
theorem Swings.plays (swings : d.Swings first) (t : Trial α) :
    if t.sounds d then
      ∃ note : Note α, (d.tried t).notes = d.notes.push note ∧ note.lfo = d.instrument.params.lfo
    else (d.tried t).notes = d.notes ∨ (d.tried t).notes = #[] := by
  let ready : Desk α := { d with engine.refused := t.refused }
  have swings' : ready.Swings first := swings.unswung ⟨rfl, rfl, rfl, rfl, rfl, rfl⟩
  by_cases note : ∃ frequencies duration at_, t.step = .operate (.trigger frequencies duration at_)
  · obtain ⟨frequencies, duration, at_, trigger⟩ := note
    have tried : d.tried t = (runFrom (Instrument.trigger frequencies duration at_) ready).2 := by
      rw [Desk.tried, trigger]
      rfl
    rw [tried]
    simp only [Trial.sounds, trigger]
    split
    · rename_i sounds
      rw [Bool.and_eq_true, Bool.not_eq_true', Option.isNone_iff_eq_none] at sounds
      exact swings'.trigger at_ sounds.1 sounds.2
    · rename_i sounds
      left
      refine trigger_unheard (d := ready) at_ ?_
      rwa [Bool.and_eq_true, Bool.not_eq_true', Option.isNone_iff_eq_none, not_and_or, Bool.not_eq_false] at sounds
  · have silent : t.sounds d = false := by
      cases sounds : t.sounds d with
      | false => rfl
      | true =>
        rw [Trial.sounds] at sounds
        split at sounds
        · rename_i trigger
          exact absurd ⟨_, _, _, trigger⟩ note
        · contradiction
    rw [silent, if_neg Bool.false_ne_true]
    exact (hushed_carries.act t.step (fun frequencies duration at_ trigger =>
      absurd ⟨frequencies, duration, at_, trigger⟩ note) ready).1.notes

/-- Whatever is done to an instrument, and whichever calls are refused meanwhile: of the
oscillators that were started on its voice, the one that the instrument holds runs and no
other does. It was started for the swing of the volume as it is set, and that swing is
active. The next trial plays a note or none, and a note carries the oscillator that was held
at that moment. -/
theorem held_oscillator_is_sole {d : Desk α} {v : Voice α}
    (there : d.engine.voices[d.instrument.voice]? = some v) (fresh : v.lfo = none)
    (idle : d.instrument.params.lfo = none) (trials : List (Trial α)) :
    (∀ i l, d.engine.lfos.size ≤ i → (d.throughout trials).engine.lfos[i]? = some l →
      (l.running = true ↔ (d.throughout trials).instrument.params.lfo = some i)) ∧
    (∀ i, (d.throughout trials).instrument.params.lfo = some i → d.engine.lfos.size ≤ i ∧
      (d.throughout trials).instrument.params.autovolume.active = true ∧
      ∃ l, (d.throughout trials).engine.lfos[i]? = some l ∧ l.running = true ∧
        l.Follows (d.throughout trials).instrument.params.autovolume) ∧
    ∀ t : Trial α, if t.sounds (d.throughout trials) then
        ∃ note : Note α, ((d.throughout trials).tried t).notes = (d.throughout trials).notes.push note ∧
          note.lfo = (d.throughout trials).instrument.params.lfo
      else ((d.throughout trials).tried t).notes = (d.throughout trials).notes ∨
        ((d.throughout trials).tried t).notes = #[] := by
  have swings := (Swings.of_fresh there fresh idle).throughout trials
  generalize d.throughout trials = e at swings ⊢
  refine ⟨fun i l own found => ⟨swings.sole i l own found, fun holds => ?_⟩, fun i holds => ?_, fun t => ?_⟩
  · obtain ⟨-, k, held, running, -⟩ := swings.held i holds
    rw [found] at held
    cases held
    exact running
  · obtain ⟨latest, held⟩ := swings.held i holds
    exact ⟨swings.own i latest, swings.active (by rw [holds, Option.isSome_some]), held⟩
  · exact swings.plays t

def duet : Desk ℚ :=
  ⟨⟨"lead", 1, .initial⟩,
    { voices := #[{ Voice.initial "pad" .full with lfo := some 0, lfoCount := 1 }, Voice.initial "lead" .full]
      lfos := #[⟨0, 1, 0, 1, 0, true⟩] }, #[]⟩

def tremolo : List (Trial ℚ) :=
  [⟨[], .operate (.setAutovolume ⟨0, 1, 2⟩ 0)⟩, ⟨[], .operate (.begin "autovolume")⟩,
    ⟨["start_gain_lfo"], .operate (.setAutovolume ⟨0, 1, 3⟩ 1)⟩, ⟨[], .operate (.trigger [440] 1 1)⟩,
    ⟨["set_gain"], .operate (.setAutovolume ⟨0, 0, 0⟩ 2)⟩, ⟨[], .operate (.finish "autovolume" 2)⟩,
    ⟨["stop"], .operate .release⟩, ⟨[], .silence⟩, ⟨["set_pan"], .normalize⟩,
    ⟨[], .operate (.setAutovolume ⟨0, 1, 5⟩ 3)⟩]

theorem held_oscillator_is_sole_tremolo :
    duet.instrument.params.lfo = none ∧
    (∀ i l, 1 ≤ i → (duet.throughout tremolo).engine.lfos[i]? = some l →
      (l.running = true ↔ (duet.throughout tremolo).instrument.params.lfo = some i)) ∧
    (∀ i, (duet.throughout tremolo).instrument.params.lfo = some i → 1 ≤ i ∧
      (duet.throughout tremolo).instrument.params.autovolume.active = true ∧
      ∃ l, (duet.throughout tremolo).engine.lfos[i]? = some l ∧ l.running = true ∧
        l.Follows (duet.throughout tremolo).instrument.params.autovolume) ∧
    ∀ t : Trial ℚ, if t.sounds (duet.throughout tremolo) then
        ∃ note : Note ℚ, ((duet.throughout tremolo).tried t).notes = (duet.throughout tremolo).notes.push note ∧
          note.lfo = (duet.throughout tremolo).instrument.params.lfo
      else ((duet.throughout tremolo).tried t).notes = (duet.throughout tremolo).notes ∨
        ((duet.throughout tremolo).tried t).notes = #[] :=
  ⟨rfl, held_oscillator_is_sole (d := duet) (v := Voice.initial "lead" .full) rfl rfl rfl tremolo⟩

/-- The last swing of these has the only oscillator of its voice that runs, the third. -/
example : (duet.throughout tremolo).instrument.params.lfo = some 3 := by decide +kernel

end Desk

end Partita
