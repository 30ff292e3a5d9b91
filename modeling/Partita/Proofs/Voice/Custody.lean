import Partita.Proofs.Voice.Handling

/-! What an operation on an instrument can get at: its own voice, and the oscillators that
the instrument, its voice or a note of its voice has. All other voices and oscillators stay
as they are, and of the oscillators that it gets hold of all are new. -/
namespace Partita

variable {α : Type}

def Voice.Has (v : Voice α) (i : Nat) : Prop := v.lfo = some i ∨ ∃ note ∈ v.notes, note.lfo = some i

namespace Desk

def Reaches (d : Desk α) (i : Nat) : Prop :=
  d.instrument.params.lfo = some i ∨ ∃ v, d.engine.voices[d.instrument.voice]? = some v ∧ v.Has i

/-- An operation that stays with the instrument. -/
structure Keeps (d e : Desk α) : Prop where
  seat : e.instrument.voice = d.instrument.voice
  voices : e.engine.voices.size = d.engine.voices.size
  others : ∀ j, j ≠ d.instrument.voice → e.engine.voices[j]? = d.engine.voices[j]?
  grows : d.engine.lfos.size ≤ e.engine.lfos.size
  aloof : ∀ i, i < d.engine.lfos.size → ¬ d.Reaches i → e.engine.lfos[i]? = d.engine.lfos[i]?
  reaches : ∀ i, e.Reaches i → d.Reaches i ∨ d.engine.lfos.size ≤ i ∧ i < e.engine.lfos.size

namespace Keeps

variable {d e f : Desk α}

theorem refl (d : Desk α) : d.Keeps d :=
  ⟨rfl, rfl, fun _ _ => rfl, le_rfl, fun _ _ _ => rfl, fun _ => .inl⟩

theorem trans (first : d.Keeps e) (second : e.Keeps f) : d.Keeps f where
  seat := second.seat.trans first.seat
  voices := second.voices.trans first.voices
  others j other := (second.others j (first.seat ▸ other)).trans (first.others j other)
  grows := first.grows.trans second.grows
  aloof i old distant := by
    -- what is reached after the first operation and not before is new
    have distant' : ¬ e.Reaches i := fun reached =>
      (first.reaches i reached).elim distant fun new => absurd old (Nat.not_lt.mpr new.1)
    exact (second.aloof i (Nat.lt_of_lt_of_le old first.grows) distant').trans (first.aloof i old distant)
  reaches i reached := by
    obtain before | ⟨new, bound⟩ := second.reaches i reached
    · exact (first.reaches i before).imp_right fun ⟨new, bound⟩ => ⟨new, Nat.lt_of_lt_of_le bound second.grows⟩
    · exact .inr ⟨first.grows.trans new, bound⟩

/-- The oscillators stay, and nothing new is reached. -/
theorem of_lfos (seat : e.instrument.voice = d.instrument.voice)
    (voices : e.engine.voices.size = d.engine.voices.size)
    (others : ∀ j, j ≠ d.instrument.voice → e.engine.voices[j]? = d.engine.voices[j]?)
    (lfos : e.engine.lfos = d.engine.lfos) (reaches : ∀ i, e.Reaches i → d.Reaches i) : d.Keeps e :=
  ⟨seat, voices, others, le_of_eq (by rw [lfos]), fun _ _ _ => by rw [lfos], fun i reached => .inl (reaches i reached)⟩

end Keeps

/-- What holds of operations on an instrument whose voice is there. -/
def Tends (d e : Desk α) : Prop := d.instrument.voice < d.engine.voices.size → d.Keeps e

instance : IsPreorder (Desk α) Tends where
  refl d _ := .refl d
  trans _ _ _ first second there := by
    have kept := first there
    exact kept.trans (second (by rwa [kept.seat, kept.voices]))

theorem change_keeps (d : Desk α) {f : Parameters α → Parameters α} (within : ∀ i,
    (f d.instrument.params).lfo = some i → d.Reaches i) : d.Keeps { d with instrument.params := f d.instrument.params } :=
  .of_lfos rfl rfl (fun _ _ => rfl) rfl fun i reached => reached.elim (within i) .inr

theorem change_tends {f : Parameters α → Parameters α} (same : ∀ p, (f p).lfo = p.lfo) : Inside Tends (change f) :=
  .of_modify fun d _ => d.change_keeps fun _ holds => .inl (same _ ▸ holds)

/-- The voice becomes one that has nothing that was not reached. -/
theorem Keeps.of_voice {d : Desk α} (f : Voice α → Voice α) (journal : Array (Event α))
    (within : ∀ v, d.engine.voices[d.instrument.voice]? = some v → ∀ i, (f v).Has i → d.Reaches i) :
    d.Keeps ⟨d.instrument, { d.engine with voices := d.engine.voices.modify d.instrument.voice f }, journal⟩ := by
  refine .of_lfos rfl (Array.size_modify ..) (fun j other => ?_) rfl fun i reached => ?_
  · simp [Array.getElem?_modify, Ne.symm other]
  · obtain held | ⟨w, found, has⟩ := reached
    · exact .inl held
    · simp only [Array.getElem?_modify, if_true, Option.map_eq_some_iff] at found
      obtain ⟨v, found, rfl⟩ := found
      exact within v found i has

/-- An oscillator is stopped that is reached. -/
theorem Keeps.stopLfo {d : Desk α} {k : Nat} (reached : d.Reaches k) (journal : Array (Event α)) :
    d.Keeps ⟨d.instrument, d.engine.stopLfo k, journal⟩ where
  seat := rfl
  voices := rfl
  others _ _ := rfl
  grows := by simp [Engine.stopLfo]
  aloof i _ distant := by
    have other : k ≠ i := fun same => distant (same ▸ reached)
    simp [Engine.stopLfo, Array.getElem?_modify, other]
  reaches _ := .inl

variable [Scalar α]

/-- A call stays with the voice, if it stops no oscillator but one that is reached. -/
theorem send_keeps {d : Desk α} (there : d.instrument.voice < d.engine.voices.size) {call : Call α}
    (stops : ∀ i, call = .stopLfo i → d.Reaches i) : d.Keeps (runFrom (send call) d).2 := by
  obtain ⟨f, -, refused⟩ | ⟨-, journal, sent⟩ := send_cases call d
  · rw [refused]
    exact .refl d
  rw [sent]
  obtain ⟨v, found⟩ : ∃ v, d.engine.voices[d.instrument.voice]? = some v := ⟨_, Array.getElem?_eq_getElem there⟩
  have mine {i : Nat} (has : v.Has i) : d.Reaches i := .inr ⟨v, found, has⟩
  have same {w : Voice α} (there : d.engine.voices[d.instrument.voice]? = some w) : w = v :=
    Option.some.inj (there.symm.trans found)
  cases call with
  | stopLfo k => exact .stopLfo (stops k rfl) journal
  | startLfo rate low high at_ =>
    simp only [Engine.apply, found]
    constructor
    · rfl
    · exact Array.size_modify ..
    · intro j other
      simp [Array.getElem?_modify, Ne.symm other]
    · simp
    · intro i old _
      simp only [Array.getElem?_push]
      rw [if_neg (by omega)]
    · intro i reached
      obtain held | ⟨w, changed, has⟩ := reached
      · exact .inl (.inl held)
      · simp only [Array.getElem?_modify, if_true, found, Option.map_some, Option.some.injEq] at changed
        subst changed
        obtain started | played := has
        · cases started
          exact .inr ⟨le_rfl, by simp⟩
        · exact .inl (mine (.inr played))
  | trigger frequencies duration at_ =>
    simp only [Engine.apply]
    split
    · exact .of_lfos rfl rfl (fun _ _ => rfl) rfl fun _ => id
    · simp only [found]
      refine .of_voice _ journal fun w there i has => ?_
      rw [same there] at has
      obtain started | ⟨note, member, carried⟩ := has
      · exact mine (.inl started)
      · obtain earlier | rfl := Array.mem_push.mp member
        · exact mine (.inr ⟨note, earlier, carried⟩)
        · exact mine (.inl (Option.filter_eq_some_iff.mp carried).1)
  | silence =>
    have hushed {e : Desk α} (kept : d.Keeps e) (voices : e.engine.voices = d.engine.voices)
        (seat : e.instrument = d.instrument) :
        d.Keeps ⟨e.instrument, { e.engine with
          voices := e.engine.voices.modify e.instrument.voice (·.apply .silence) }, journal⟩ := by
      refine kept.trans (.of_voice _ journal fun w there i has => ?_)
      obtain started | ⟨note, member, -⟩ := has
      · exact .inr ⟨w, there, .inl started⟩
      · simp [Voice.apply] at member
    simp only [Engine.apply, found, Option.bind_some]
    cases latest : v.lfo with
    | none => exact hushed (.refl d) rfl rfl
    | some k => exact hushed (.stopLfo (mine (.inl latest)) journal) rfl rfl
  | _ => exact .of_voice _ journal fun w there i has => mine (same there ▸ has)

theorem send_tends {call : Call α} (stops : ∀ i, call ≠ .stopLfo i) : Inside Tends (send call) :=
  .of_related fun _ there => send_keeps there fun i stop => absurd stop (stops i)

theorem dropLfo_tends : Inside Tends (Instrument.dropLfo (α := α)) := by
  refine .of_related fun d there => ?_
  rw [Instrument.dropLfo, current, bind_assoc, runFrom_get_bind, pure_bind]
  cases holds : d.instrument.params.lfo with
  | none => exact .refl d
  | some k =>
    have stopped : d.Keeps (runFrom (send (.stopLfo k)) d).2 :=
      send_keeps there fun i same => by
        cases same
        exact .inl holds
    dsimp only
    rw [runFrom_bind]
    rcases sent : runFrom (send (.stopLfo k)) d with ⟨result, e⟩
    rw [sent] at stopped
    cases result with
    | error f => exact stopped
    | ok _ => exact stopped.trans (e.change_keeps (f := ({ · with lfo := none })) fun i held => by cases held)

/-- A swing of the volume holds the oscillator that it starts. -/
theorem setAutovolume_tends (s : AutoVolume α) (at_ : α) : Inside Tends (Instrument.setAutovolume s at_) := by
  refine dropLfo_tends.bind fun _ => ?_
  have set : Inside Tends (change fun p : Parameters α => { p with autovolume := s }) := change_tends fun _ => rfl
  dsimp only
  split
  · refine .of_related fun d there => ?_
    rw [runFrom_get_bind]
    have started : Inside Tends (send (.startLfo s.rate (linearToDb s.min) (linearToDb s.max) at_)) :=
      send_tends (by simp)
    have kept := (started d).1 there
    obtain ⟨f, -, refused⟩ | ⟨-, journal, sent⟩ :=
      send_cases (.startLfo s.rate (linearToDb s.min) (linearToDb s.max) at_) d
    · rw [runFrom_bind_error refused]
      exact .refl d
    rw [runFrom_bind_ok sent]
    rw [sent] at kept
    have found := Array.getElem?_eq_getElem there
    -- the oscillator is reached through the voice before the instrument holds it
    refine kept.trans (.trans (change_keeps _ (f := ({ · with lfo := some d.engine.lfos.size })) fun i holds => ?_)
      ((set _).1 ?_))
    · cases holds
      refine .inr ⟨{ d.engine.voices[d.instrument.voice] with
        lfo := some d.engine.lfos.size, lfoCount := d.engine.voices[d.instrument.voice].lfoCount + 1 }, ?_, .inl rfl⟩
      simp [Engine.apply, found, Array.getElem?_modify]
    · rw [← kept.seat, ← kept.voices] at there
      exact there
  · exact (Carries.current.bind fun _ => send_tends fun _ => by simp).bind fun _ => set

theorem tends_carries : Carries (Tends (α := α)) where
  log _ _ := .of_modify fun d _ => .of_lfos rfl rfl (fun _ _ => rfl) rfl fun _ => id
  send plain := send_tends fun i stop => by
    subst stop
    contradiction
  assign := fun {saved} _ => change_tends fun p => p.assign_lfo saved
  pile _ := change_tends fun _ => rfl
  drop := dropLfo_tends
  swing := setAutovolume_tends
  silence := dropLfo_tends.bind fun _ => send_tends fun _ => by simp

/-- Whatever is done to an instrument stays with it. -/
theorem step_tends (step : Handling α) : Inside Tends step.act :=
  tends_carries.act step fun _ _ _ _ => send_tends fun _ => by simp

end Desk

end Partita
