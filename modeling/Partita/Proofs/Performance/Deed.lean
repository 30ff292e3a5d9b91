import Partita.Proofs.Performance.Spawn

/-! What a command means, apart from the state that it changes: a pause, a sound,
a play, a step of a loop, a wait for the session, a tempo, or nothing as far as
the course of the performance goes. Carrying out a command does what its deed
says and nothing else. -/
namespace Partita

open Score

variable {α : Type} [Scalar α]

/-- The notes a command strikes: their frequencies and their length. -/
def Score.Command.struck? (bpm : α) (c : Command) : Option (List α × α) :=
  match c.verb with
  | "tone" => do
    let hz ← (frequency (← c.arg? 0)).toOption
    let seconds ← (noteSeconds (c.arg? 1) bpm).toOption
    return ([hz], seconds)
  | "tones" =>
    if c.args.length < 2 then none
    else do
      let chord ← c.args.dropLast.mapM fun token => (frequency token).toOption
      let seconds ← (noteSeconds c.args.getLast? bpm).toOption
      return (chord, seconds)
  | _ => none

/-- The meaning of a command. -/
inductive Deed (α : Type) where
  /-- Nothing at all: a mistake, or a command that the block has no use for. -/
  | nothing
  /-- Nothing that concerns the course: a parameter of the instrument, or a mistake about one. -/
  | adjust
  | pause (seconds : α) (beats : Option α)
  | sound (event : Event α)
  | play (names : List String)
  | openLoop (passes : Int)
  | closeLoop
  | settle
  | tempo (bpm : α)

def Score.Command.deed (bpm : α) (has : String → Bool) (block : String) (position : α)
    (c : Command) : Deed α :=
  match c.verb with
  | "wait" =>
    match ((c.arg? 0).bind number? : Option α) with
    | none => .nothing
    | some beats =>
      if beats < 0 then .nothing
      else match beatsToSeconds beats bpm with
        | .ok seconds => .pause seconds (some beats)
        | .error _ => .nothing
  | "waitsec" =>
    match ((c.arg? 0).bind number? : Option α) with
    | none => .nothing
    | some seconds => .pause seconds none
  | "waitforfinish" => .settle
  | "play" =>
    match c.args with
    | [] => .nothing
    | "together" :: names => .play names
    | name :: _ => .play [name]
  | "loop" =>
    match countOr (c.arg? 0) 1 with
    | .ok passes => .openLoop passes
    | .error _ => .nothing
  | "end" => if c.isLoopEnd then .closeLoop else .adjust
  | "sample" =>
    match c.arg? 0 with
    | none => .nothing
    | some name =>
      if has name then .sound (.playSample name (linearToDb (numberOr (c.arg? 1) 1)) position)
      else .nothing
  | "bpm" =>
    match ((c.arg? 0).bind number? : Option α) with
    | none => .nothing
    | some value => if value ≤ 0 then .nothing else .tempo value
  | "tempo" =>
    match countOr (c.arg? 0) 120 with
    | .error _ => .nothing
    | .ok value =>
      if value ≤ 0 then .nothing
      else match (Scalar.ofInt? value : Except Fault α) with
        | .ok tempo => .tempo tempo
        | .error _ => .nothing
  | _ =>
    if block == mainName then .nothing
    else match c.struck? bpm with
      | some (frequencies, seconds) => .sound (.call block (.trigger frequencies seconds position))
      | none => .adjust

namespace Performance

theorem equalTempered_passing {semitones : Int} {f : Fault}
    (failed : (equalTempered semitones : Except Fault α) = .error f) : f.Passing := by
  simp only [equalTempered] at failed
  split at failed
  · cases failed
    rfl
  · split at failed
    · contradiction
    · cases failed
      rfl

theorem frequency_passing {token : String} {f : Fault}
    (failed : (frequency token : Except Fault α) = .error f) : f.Passing := by
  unfold frequency at failed
  split at failed
  · split at failed
    · cases failed
      rfl
    · exact equalTempered_passing failed
  · split at failed
    · split at failed
      · cases failed
        rfl
      · contradiction
    · cases failed
      rfl

theorem quotient_passing {a b : α} {f : Fault} (failed : quotient a b = .error f) : f.Passing := by
  unfold quotient at failed
  split at failed
  · cases failed
    rfl
  · contradiction

theorem noteSeconds_passing {token : Option String} {bpm : α} {f : Fault}
    (failed : noteSeconds token bpm = .error f) : f.Passing := by
  unfold noteSeconds barsToSeconds at failed
  split at failed
  · split at failed
    · cases divided : quotient 60 bpm with
      | ok x => simp [divided, bind, Except.bind, pure, Except.pure] at failed
      | error g =>
        simp only [divided, bind, Except.bind, Except.error.injEq] at failed
        exact failed ▸ quotient_passing divided
    · contradiction
  · contradiction

theorem countOr_passing {token : Option String} {default : Int} {f : Fault}
    (failed : countOr token default = .error f) : f.Passing := by
  unfold countOr at failed
  cases token with
  | none => contradiction
  | some t =>
    cases read : count? t with
    | ok n => cases n <;> simp [read, bind, Except.bind, pure, Except.pure] at failed
    | error g =>
      simp only [read, bind, Except.bind, Except.error.injEq] at failed
      subst g
      simp only [count?] at read
      split at read
      · contradiction
      · split at read
        · cases read
          rfl
        · contradiction

theorem runFrom_pitch (token : String) (p : Performance α) :
    ∃ f : Fault, f.Passing ∧ runFrom (pitch token) p =
      match (frequency token : Except Fault α).toOption with
      | some hz => (.ok hz, p)
      | none => (.error f, p) := by
  unfold pitch
  cases read : (frequency token : Except Fault α) with
  | ok hz => exact ⟨.notANumber, rfl, rfl⟩
  | error f =>
    have passing := frequency_passing read
    simp only [Except.toOption]
    split
    · exact ⟨_, Fault.misuse_passing _, rfl⟩
    · exact ⟨_, Fault.misuse_passing _, rfl⟩
    · exact ⟨f, passing, rfl⟩

theorem runFrom_chord (tokens : List String) (p : Performance α) :
    ∃ f : Fault, f.Passing ∧ runFrom (tokens.mapM pitch) p =
      match tokens.mapM fun token => (frequency token : Except Fault α).toOption with
      | some chord => (.ok chord, p)
      | none => (.error f, p) := by
  induction tokens with
  | nil => exact ⟨.notANumber, rfl, rfl⟩
  | cons token rest ih =>
    obtain ⟨f, passing, ran⟩ := runFrom_pitch token p
    obtain ⟨g, passing', ran'⟩ := ih
    simp only [List.mapM_cons]
    cases read : (frequency token : Except Fault α).toOption with
    | none =>
      rw [read] at ran
      exact ⟨f, passing, runFrom_bind_error ran⟩
    | some hz =>
      rw [read] at ran
      rw [runFrom_bind_ok ran]
      cases chord : rest.mapM fun token => (frequency token : Except Fault α).toOption with
      | none =>
        rw [chord] at ran'
        exact ⟨g, passing', runFrom_bind_error ran'⟩
      | some others =>
        rw [chord] at ran'
        exact ⟨.notANumber, rfl, runFrom_bind_ok ran'⟩

theorem setParameter_tone {bpm position : α} {c : Command} (verb : c.verb = "tone")
    (p : Performance α) :
    ∃ f : Fault, f.Passing ∧ runFrom (setParameter bpm position c) p = match c.struck? bpm with
      | some (frequencies, seconds) => (.ok (Instrument.trigger frequencies seconds position), p)
      | none => (.error f, p) := by
  simp only [setParameter, Command.struck?, verb]
  cases c.arg? 0 with
  | none => exact ⟨_, Fault.misuse_passing _, rfl⟩
  | some token =>
    obtain ⟨f, passing, ran⟩ := runFrom_pitch token p
    cases read : (frequency token : Except Fault α).toOption with
    | none =>
      rw [read] at ran
      exact ⟨f, passing, by simp [runFrom_bind_error ran, read]⟩
    | some hz =>
      rw [read] at ran
      rw [runFrom_bind_ok ran]
      simp only [Option.bind_eq_bind, Option.bind_some, read]
      cases length : noteSeconds (c.arg? 1) bpm with
      | ok seconds => exact ⟨.notANumber, rfl, rfl⟩
      | error g => exact ⟨g, noteSeconds_passing length, rfl⟩

theorem setParameter_tones {bpm position : α} {c : Command} (verb : c.verb = "tones")
    (p : Performance α) :
    ∃ f : Fault, f.Passing ∧ runFrom (setParameter bpm position c) p = match c.struck? bpm with
      | some (frequencies, seconds) => (.ok (Instrument.trigger frequencies seconds position), p)
      | none => (.error f, p) := by
  simp only [setParameter, Command.struck?, verb]
  cases last : c.args.getLast? with
  | none =>
    have empty : c.args = [] := by simpa using last
    exact ⟨.misuse .tonesTooShort, rfl, by simp [empty]⟩
  | some length =>
    by_cases short : c.args.length < 2
    · exact ⟨.misuse .tonesTooShort, rfl, by simp only [short, if_true]; rfl⟩
    · simp only [short, if_false]
      obtain ⟨f, passing, ran⟩ := runFrom_chord c.args.dropLast p
      cases chord : c.args.dropLast.mapM fun token => (frequency token : Except Fault α).toOption with
      | none =>
        rw [chord] at ran
        exact ⟨f, passing, by simp [runFrom_bind_error ran]⟩
      | some notes =>
        rw [chord] at ran
        rw [runFrom_bind_ok ran]
        simp only [Option.bind_eq_bind, Option.bind_some]
        cases read : noteSeconds (some length) bpm with
        | ok seconds => exact ⟨.notANumber, rfl, rfl⟩
        | error g => exact ⟨g, noteSeconds_passing read, rfl⟩

theorem setParameter_quiet {bpm position : α} {c : Command} (tone : c.verb ≠ "tone")
    (tones : c.verb ≠ "tones") (p : Performance α) :
    (∃ act, runFrom (setParameter bpm position c) p = (.ok act, p) ∧ Desk.Quiet act) ∨
      ∃ f, runFrom (setParameter bpm position c) p = (.error f, p) ∧ f.Passing := by
  unfold setParameter
  split
  · contradiction
  · contradiction
  · refine .inl ⟨_, rfl, (Instrument.setVolume_aside _).bind fun _ => ?_⟩
    split
    · exact Instrument.setAutovolume_aside _ _
    · exact .of_pure ()
  · exact .inl ⟨_, rfl, Instrument.setPan_aside _⟩
  · exact .inl ⟨_, rfl, Instrument.setReverb_aside _⟩
  · cases read : countOr (c.arg? 2) 0 with
    | ok pingpong => exact .inl ⟨_, rfl, Instrument.setDelay_aside _⟩
    | error f => exact .inr ⟨f, rfl, countOr_passing read⟩
  · dsimp only
    split
    · exact .inl ⟨_, rfl, Instrument.setFilter_aside _⟩
    · exact .inr ⟨_, rfl, rfl⟩
  · exact .inl ⟨_, rfl, Instrument.setDistortion_aside _⟩
  · exact .inl ⟨_, rfl, Instrument.setEnvelope_aside _⟩
  · exact .inl ⟨_, rfl, Instrument.setAutopan_aside _⟩
  · exact .inl ⟨_, rfl, Instrument.setAutovolume_aside _ _⟩
  · split
    · split
      · exact .inl ⟨_, rfl, Instrument.begin_aside _⟩
      · exact .inr ⟨_, rfl, rfl⟩
    · exact .inr ⟨_, rfl, rfl⟩
  · exact .inl ⟨_, rfl, .of_pure ()⟩
end Performance

end Partita
