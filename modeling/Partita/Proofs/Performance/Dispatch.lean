import Partita.Proofs.Performance.Deed

/-! Carrying out a command does what its deed says and nothing else. `Done` says
it once for every deed; `dispatch_done` is the only place where the commands are
opened. -/
namespace Partita.Performance

open Score

variable {α : Type}

def onRun (p : Performance α) (id : Nat) (f : Run α → Run α) : Performance α :=
  { p with runs := p.runs.modify id f }

theorem Aside.onRun {sounds : List (Event α)} {p q : Performance α} (still : p.Aside sounds q)
    (id : Nat) (f : Run α → Run α) : (p.onRun id f).Aside sounds (q.onRun id f) :=
  { still with runs := by simp only [Performance.onRun, still.runs] }

variable [Scalar α]

/-- What waiting for the session comes to at an instant. -/
def Settled (time deadline : α) (id : Nat) (p : Performance α) (outcome : Except Fault (Status α))
    (q : Performance α) : Prop :=
  match p.session.verdict 1 deadline time with
  | .wait => outcome = .ok (.settling deadline) ∧ p.Aside [] q
  | .expired => outcome = .ok .running ∧ p.Aside [] q
  | .settled =>
    if p.session.playing then
      outcome = .ok (.waiting p.config.finishGrace none) ∧ (p.onRun id fun r =>
        { r with position := p.clock.settle time r.position [p.session.latestFinish] }).Aside [] q
    else outcome = .ok .running ∧ p.Aside [] q

/-- The run of a command goes on, unless the engine is at fault. -/
def Persists (p : Performance α) (outcome : Except Fault (Status α)) : Prop :=
  outcome = .ok .running ∨ ¬ p.engine.Faultless ∧ ∃ f, outcome = .error f

omit [Scalar α] in
theorem Persists.running {p : Performance α} {outcome : Except Fault (Status α)} (persists : p.Persists outcome)
    (faultless : p.engine.Faultless) : outcome = .ok .running :=
  persists.resolve_right fun faulty => faulty.1 faultless

omit [Scalar α] in
theorem Persists.eq_running {p : Performance α} {status : Status α} (persists : p.Persists (.ok status)) :
    status = .running := by
  obtain same | ⟨-, f, failed⟩ := persists
  · exact Except.ok.inj same
  · cases failed

/-- What carrying out a command with a given deed comes to. -/
def Done (time : α) (id : Nat) (run : Run α) (p : Performance α) (outcome : Except Fault (Status α))
    (q : Performance α) : Deed α → Prop
  | .nothing => outcome = .ok .running ∧ p.Aside [] q
  | .adjust => p.Persists outcome ∧ p.Aside [] q
  | .pause seconds beats => outcome = .ok (.waiting seconds beats) ∧ p.Aside [] q
  | .sound event => p.Persists outcome ∧ ∃ sounds, p.Aside sounds q ∧
      (p.engine.Faultless → (run.name ≠ mainName → (p.voices.lookup run.name).isSome) →
        sounds = if p.engine.recorder then [event] else [])
  | .play names => ∃ done, done <+: p.blocks.cast names ∧
      (p.addRuns run.position done).Aside [] q ∧
      (∀ block ∈ done, block.1 ≠ mainName → (q.voices.lookup block.1).isSome) ∧
      (¬ p.engine.Faultless ∧ done.length < (p.blocks.cast names).length ∧
          (outcome = .ok .running ∨ ∃ f, outcome = .error f) ∨
        done = p.blocks.cast names ∧ outcome = .ok (if done = [] then .running
          else .playing (List.range' p.runs.size done.length)))
  | .openLoop passes => outcome = .ok .running ∧ (p.onRun id (·.openLoop passes)).Aside [] q
  | .closeLoop => outcome = .ok .running ∧ (p.onRun id Run.closeLoop).Aside [] q
  | .settle => Settled time (time + p.config.finishTimeout) id p outcome q
  | .tempo bpm => outcome = .ok .running ∧ { p with session := p.session.setBpm bpm }.Aside [] q

theorem Settled.aside {time deadline : α} {id : Nat} {p q r : Performance α}
    {outcome : Except Fault (Status α)} (settled : Settled time deadline id p outcome q)
    (still : q.Aside [] r) : Settled time deadline id p outcome r := by
  unfold Settled at settled ⊢
  split
  · rename_i verdict
    rw [verdict] at settled
    exact ⟨settled.1, settled.2.trans still⟩
  · rename_i verdict
    rw [verdict] at settled
    exact ⟨settled.1, settled.2.trans still⟩
  · rename_i verdict
    rw [verdict] at settled
    split
    · rename_i playing
      rw [playing] at settled
      exact ⟨settled.1, settled.2.trans still⟩
    · rename_i stopped
      simp only [stopped, Bool.false_eq_true, if_false] at settled
      exact ⟨settled.1, settled.2.trans still⟩

theorem Done.aside {time : α} {id : Nat} {run : Run α} {p q r : Performance α}
    {outcome : Except Fault (Status α)} {d : Deed α} (done : Done time id run p outcome q d)
    (still : q.Aside [] r) : Done time id run p outcome r d := by
  cases d with
  | nothing => exact ⟨done.1, done.2.trans still⟩
  | adjust => exact ⟨done.1, done.2.trans still⟩
  | pause seconds beats => exact ⟨done.1, done.2.trans still⟩
  | sound event =>
    obtain ⟨ended, sounds, kept, heard⟩ := done
    exact ⟨ended, sounds, by simpa using kept.trans still, heard⟩
  | play names =>
    obtain ⟨started, within, added, held, ended⟩ := done
    exact ⟨started, within, added.trans still,
      fun block member other => still.voices _ (held block member other), ended⟩
  | openLoop passes => exact ⟨done.1, done.2.trans still⟩
  | closeLoop => exact ⟨done.1, done.2.trans still⟩
  | settle => exact Settled.aside done still
  | tempo bpm => exact ⟨done.1, done.2.trans still⟩

theorem settle_settled (time deadline : α) (id : Nat) (p : Performance α) :
    Settled time deadline id p (runFrom (settle time deadline id) p).1
      (runFrom (settle time deadline id) p).2 := by
  simp only [Settled, settle, runFrom_get_bind]
  cases p.session.verdict 1 deadline time with
  | wait => exact ⟨rfl, .refl p⟩
  | expired => exact ⟨rfl, (log_aside (E := fun _ => True) _ _ p).1⟩
  | settled =>
    cases p.session.playing with
    | true => exact ⟨rfl, .refl _⟩
    | false => exact ⟨rfl, .refl p⟩

/-- A fault in passing leaves the run running. -/
def handled : Except Fault (Status α) → Except Fault (Status α)
  | .ok status => .ok status
  | .error f => if f.isSetup then .error f else .ok .running

omit [Scalar α] in
theorem handled_passing {f : Fault} (passing : f.Passing) :
    handled (.error f : Except Fault (Status α)) = .ok .running := by
  rw [handled, if_neg]
  rw [passing]
  decide

omit [Scalar α] in
theorem handled_persists {p : Performance α} {f : Fault} (reason : f.Passing ∨ ¬ p.engine.Faultless) :
    p.Persists (handled (.error f)) := by
  cases setup : f.isSetup with
  | false => exact .inl (handled_passing setup)
  | true =>
    refine .inr ⟨reason.resolve_left fun passing => ?_, f, if_pos setup⟩
    cases passing.symm.trans setup

/-- An operation that comes to a deed once its faults in passing are handled. -/
def Meets (time : α) (id : Nat) (run : Run α) (p : Performance α) (act : PerformM α (Status α))
    (d : Deed α) : Prop :=
  Done time id run p (handled (runFrom act p).1) (runFrom act p).2 d

theorem running_meets {time : α} {id : Nat} {run : Run α} (p : Performance α) :
    Meets time id run p (pure .running) .nothing :=
  ⟨rfl, .refl p⟩

theorem throw_meets {time : α} {id : Nat} {run : Run α} {p : Performance α} {f : Fault}
    (passing : f.Passing) : Meets time id run p (throw f) .nothing :=
  ⟨handled_passing passing, .refl p⟩

theorem misuse_meets {time : α} {id : Nat} {run : Run α} {p : Performance α} (m : Misuse) :
    Meets time id run p (throw (.misuse m)) .nothing :=
  throw_meets (Fault.misuse_passing m)

/-- An operation on an instrument that does not sound. -/
theorem onInstrument_meets {time : α} {id : Nat} {run : Run α} {act : DeskM α Unit} (name : String)
    {rest : PerformM α (Status α)} (p : Performance α) (quiet : Desk.Quiet act)
    (still : ∀ q, Meets time id run q rest .nothing) :
    Meets time id run p (onInstrument name act >>= fun _ => rest) .adjust := by
  obtain ⟨kept, raised⟩ := onInstrument_aside name quiet p
  rcases ran : runFrom (onInstrument name act) p with ⟨result, q⟩
  rw [ran] at kept raised
  rw [Meets]
  cases result with
  | ok b =>
    rw [runFrom_bind_ok ran]
    exact ⟨.inl (still q).1, kept.trans (still q).2⟩
  | error f =>
    rw [runFrom_bind_error ran]
    refine ⟨handled_persists ?_, kept⟩
    by_cases faultless : p.engine.Faultless
    · exact .inl (faultless.passing (raised f rfl))
    · exact .inr faultless

theorem play_meets (time : α) (id : Nat) (run : Run α) (names : List String) (p : Performance α) :
    Meets time id run p (play run names) (.play names) := by
  obtain ⟨done, q, within, added, held, outcome⟩ := spawn_all names run.position p
  rw [Meets, play]
  rcases outcome with ⟨f, failed, faulty, short⟩ | ⟨all, spawned⟩
  · rw [runFrom_bind_error failed]
    exact ⟨done, within, added, held, .inl ⟨faulty, short,
      (handled_persists (.inr faulty)).imp_right fun broken => broken.2⟩⟩
  · rw [runFrom_bind_ok spawned]
    refine ⟨done, within, added, held, .inr ⟨all, ?_⟩⟩
    cases done <;> simp [List.range'_succ, handled]

section sample

variable {position : α} {c : Command} {name : String} {p : Performance α}

theorem runFrom_sample_unnamed (unnamed : c.arg? 0 = none) :
    runFrom (sample position c) p = (.error (.misuse .sampleWithoutName), p) := by
  simp only [sample, unnamed]
  rfl

theorem runFrom_sample_missing (named : c.arg? 0 = some name) (missing : p.engine.hasSample name = false) :
    runFrom (sample position c) p = (.error (.misuse (.sampleNotFound name)), p) := by
  simp only [sample, named, runFrom_get_bind, missing]
  rfl

theorem runFrom_sample_refused (named : c.arg? 0 = some name) (present : p.engine.hasSample name = true)
    {f : Fault} (refused : p.engine.refusal? name "play_sample" = some f) :
    runFrom (sample position c) p = (.error f, p) := by
  simp only [sample, named, runFrom_get_bind, present, refused]
  rfl

theorem runFrom_sample (named : c.arg? 0 = some name) (present : p.engine.hasSample name = true)
    (accepted : p.engine.refusal? name "play_sample" = none) :
    ∃ q, runFrom (sample position c) p = (.ok (), q) ∧ p.Aside (if p.engine.recorder then
      [.playSample name (linearToDb (numberOr (c.arg? 1) 1)) position] else []) q := by
  simp only [sample, named, runFrom_get_bind, present, accepted, if_true, runFrom_modify_bind]
  have queued : p.Aside [] { p with
      engine.cues := p.engine.cues.push ⟨name, linearToDb (numberOr (c.arg? 1) 1), position⟩ } :=
    { Aside.refl p with
      engine := ⟨rfl, rfl, rfl, rfl, rfl, Nat.le_refl _, fun stocked cue member => by
        rcases Array.mem_push.mp member with old | rfl
        · exact stocked cue old
        · exact present⟩ }
  have noted (q : Performance α) (text : String) : q.Aside [] (runFrom (log .debug text) q).2 :=
    (log_aside (E := fun _ => True) _ _ q).1
  split
  · have entered (q : Performance α) (e : Event α) (sounding : e.isSounding = true)
        (other : e.isForeign = false) : q.Aside [e] { q with journal := q.journal.push e } :=
      { Aside.refl q with journal := .push_sounding sounding other _ }
    exact ⟨_, rfl, (queued.trans (entered _ _ rfl rfl)).trans (noted _ _)⟩
  · exact ⟨_, rfl, queued.trans (noted _ _)⟩

end sample

theorem sample_meets (time : α) (id : Nat) (run : Run α) {c : Command} (p : Performance α)
    (verb : c.verb = "sample") :
    Meets time id run p (do
        sample run.position c
        return .running)
      (c.deed p.session.bpm p.engine.hasSample run.name run.position) := by
  simp only [Command.deed, verb]
  cases named : c.arg? 0 with
  | none =>
    rw [Meets, runFrom_bind_error (runFrom_sample_unnamed named)]
    exact ⟨rfl, .refl p⟩
  | some name =>
    dsimp only
    cases present : p.engine.hasSample name with
    | false =>
      rw [Meets, runFrom_bind_error (runFrom_sample_missing named present)]
      exact ⟨rfl, .refl p⟩
    | true =>
      cases refused : p.engine.refusal? name "play_sample" with
      | some f =>
        have faulty : ¬ p.engine.Faultless := fun faultless => by
          cases (faultless.sample name).symm.trans refused
        rw [Meets, runFrom_bind_error (runFrom_sample_refused named present refused)]
        exact ⟨handled_persists (.inr faulty), [], .refl p, fun faultless => absurd faultless faulty⟩
      | none =>
        obtain ⟨q, ran, heard⟩ := runFrom_sample named present refused
        rw [Meets, runFrom_bind_ok ran]
        exact ⟨.inl rfl, _, heard, fun _ _ => rfl⟩

theorem onInstrument_trigger {name : String} {frequencies : List α} {seconds position : α}
    {p q : Performance α} {result : Except Fault Unit}
    (ran : runFrom (onInstrument name (Instrument.trigger frequencies seconds position)) p = (result, q)) :
    ∃ sounds, p.Aside sounds q ∧ (∀ f, result = .error f → ¬ p.engine.Faultless) ∧
      (p.engine.Faultless → (p.voices.lookup name).isSome → sounds =
        if p.engine.recorder then [.call name (.trigger frequencies seconds position)] else []) := by
  simp only [onInstrument, runFrom_get_bind] at ran
  cases held : p.voices.lookup name with
  | none =>
    simp only [held, runFrom_pure, Prod.mk.injEq] at ran
    obtain ⟨rfl, rfl⟩ := ran
    exact ⟨[], .refl p, by simp, by simp⟩
  | some voice =>
    simp only [held] at ran
    have operated := runFrom_onDesk name voice (Instrument.trigger frequencies seconds position) p
    obtain ⟨f, refused, failed⟩ | ⟨accepted, journal, sent⟩ :=
      Desk.send_cases (.trigger frequencies seconds position) (p.deskOf name voice)
    · have faulty : ¬ p.engine.Faultless := fun faultless => by
        cases (faultless.calls name (.trigger frequencies seconds position)).symm.trans refused
      have kept : p.Aside [] (runFrom (onDesk name voice
          (Instrument.trigger frequencies seconds position)) p).2 :=
        onDesk_aside_at (by rw [Instrument.trigger, failed]; exact .refl _)
      rw [ran] at kept
      exact ⟨[], kept, fun _ _ => faulty, fun faultless => absurd faultless faulty⟩
    · have heard : (p.deskOf name voice).Aside _
          (runFrom (Instrument.trigger frequencies seconds position) (p.deskOf name voice)).2 :=
        Desk.send_trigger_aside accepted
      have kept := onDesk_aside_at heard
      rw [ran] at kept operated
      rw [Instrument.trigger, sent] at operated
      refine ⟨_, kept, fun f raised => ?_, fun _ _ => rfl⟩
      cases raised.symm.trans (congrArg Prod.fst operated)

theorem trigger_meets (time : α) (id : Nat) {run : Run α} (p : Performance α) (frequencies : List α)
    (seconds : α) {rest : PerformM α (Status α)} (still : ∀ q, Meets time id run q rest .nothing)
    (other : run.name ≠ mainName) :
    Meets time id run p
      (onInstrument run.name (Instrument.trigger frequencies seconds run.position) >>= fun _ => rest)
      (.sound (.call run.name (.trigger frequencies seconds run.position))) := by
  rcases ran : runFrom (onInstrument run.name (Instrument.trigger frequencies seconds run.position)) p
    with ⟨result, q⟩
  obtain ⟨sounds, heard, faults, known⟩ := onInstrument_trigger ran
  rw [Meets]
  cases result with
  | error f =>
    have faulty := faults f rfl
    rw [runFrom_bind_error ran]
    exact ⟨handled_persists (.inr faulty), sounds, heard, fun faultless => absurd faultless faulty⟩
  | ok =>
    rw [runFrom_bind_ok ran]
    obtain ⟨running, kept⟩ := still q
    refine ⟨.inl running, sounds, by simpa using heard.trans kept, fun faultless present => ?_⟩
    exact known faultless (present other)

theorem noted_meets (time : α) (id : Nat) (run : Run α) (bpm : α) (c : Command) (p : Performance α) :
    Meets time id run p (do
      match noteText? bpm run.name c with
      | some text => log .debug text
      | none => pure ()
      return .running) .nothing := by
  dsimp only
  split
  · exact ⟨rfl, (log_aside (E := fun _ => True) _ _ p).1⟩
  · exact running_meets p

def parameter (bpm : α) (run : Run α) (c : Command) : PerformM α (Status α) := do
  let act ← setParameter bpm run.position c
  onInstrument run.name act
  match noteText? bpm run.name c with
  | some text => log .debug text
  | none => pure ()
  return .running

theorem parameter_meets (time : α) (id : Nat) {run : Run α} (c : Command) (p : Performance α)
    (bpm : α) (other : run.name ≠ mainName) :
    Meets time id run p (parameter bpm run c) (match c.struck? bpm with
      | some (frequencies, seconds) => .sound (.call run.name (.trigger frequencies seconds run.position))
      | none => .adjust) := by
  have noted := noted_meets time id run bpm c
  have struck (meaning : ∃ f : Fault, f.Passing ∧ runFrom (setParameter bpm run.position c) p =
      match c.struck? bpm with
      | some (frequencies, seconds) => (.ok (Instrument.trigger frequencies seconds run.position), p)
      | none => (.error f, p)) : Meets time id run p (parameter bpm run c) (match c.struck? bpm with
        | some (frequencies, seconds) => .sound (.call run.name (.trigger frequencies seconds run.position))
        | none => .adjust) := by
    obtain ⟨f, passing, ran⟩ := meaning
    rw [Meets, parameter]
    cases notes : c.struck? bpm with
    | none =>
      rw [notes] at ran
      rw [runFrom_bind_error ran]
      exact ⟨.inl (handled_passing passing), .refl p⟩
    | some chord =>
      rw [notes] at ran
      rw [runFrom_bind_ok ran]
      exact trigger_meets time id p _ _ noted other
  by_cases tone : c.verb = "tone"
  · exact struck (setParameter_tone tone p)
  by_cases tones : c.verb = "tones"
  · exact struck (setParameter_tones tones p)
  have silent : c.struck? bpm = none := by
    unfold Command.struck?
    split
    · contradiction
    · contradiction
    · rfl
  rw [silent, Meets, parameter]
  rcases setParameter_quiet tone tones p with ⟨act, ran, quiet⟩ | ⟨f, ran, passing⟩
  · rw [runFrom_bind_ok ran]
    exact onInstrument_meets run.name p quiet noted
  · rw [runFrom_bind_error ran]
    exact ⟨.inl (handled_passing passing), .refl p⟩

section verbs

variable (time : α) (id : Nat) (run : Run α) {c : Command} (p : Performance α)

/-- What is proved of every verb below. -/
def PerformMeets (c : Command) : Prop :=
  Meets time id run p (perform time id run c)
    (c.deed p.session.bpm p.engine.hasSample run.name run.position)

theorem wait_meets (verb : c.verb = "wait") : PerformMeets time id run p c := by
  simp only [PerformMeets, Meets, perform, runFrom_get_bind, Command.deed, verb]
  cases ((c.arg? 0).bind number? : Option α) with
  | none => exact misuse_meets _
  | some beats =>
    dsimp only
    split
    · exact misuse_meets _
    · cases converted : beatsToSeconds beats p.session.bpm with
      | ok seconds => exact ⟨rfl, .refl p⟩
      | error f => exact throw_meets (quotient_passing converted)

theorem waitsec_meets (verb : c.verb = "waitsec") : PerformMeets time id run p c := by
  simp only [PerformMeets, Meets, perform, runFrom_get_bind, Command.deed, verb]
  cases ((c.arg? 0).bind number? : Option α) with
  | none => exact misuse_meets _
  | some seconds => exact ⟨rfl, .refl p⟩

theorem waitforfinish_meets (verb : c.verb = "waitforfinish") : PerformMeets time id run p c := by
  simp only [PerformMeets, Meets, perform, runFrom_get_bind, Command.deed, verb]
  have settled := settle_settled time (time + p.config.finishTimeout) id p
  rcases ran : runFrom (settle time (time + p.config.finishTimeout) id) p with ⟨result, q⟩
  rw [ran] at settled
  cases result with
  | ok status => exact settled
  | error f =>
    -- Waiting for the session never fails.
    exfalso
    unfold Settled at settled
    repeat' split at settled
    all_goals exact absurd settled.1 (by simp)

theorem playing_meets (verb : c.verb = "play") : PerformMeets time id run p c := by
  simp only [PerformMeets, Meets, perform, runFrom_get_bind, Command.deed, verb]
  cases c.args with
  | nil => exact misuse_meets _
  | cons name rest =>
    by_cases together : name = "together"
    · subst together
      exact play_meets time id run rest p
    · simp only
      exact play_meets time id run [name] p

theorem loop_meets (verb : c.verb = "loop") : PerformMeets time id run p c := by
  simp only [PerformMeets, Meets, perform, runFrom_get_bind, Command.deed, verb]
  cases read : countOr (c.arg? 0) 1 with
  | ok passes => exact ⟨rfl, .refl _⟩
  | error f => exact throw_meets (countOr_passing read)

theorem end_meets (verb : c.verb = "end") : PerformMeets time id run p c := by
  simp only [PerformMeets, Meets, perform, runFrom_get_bind, Command.deed, verb]
  cases args : c.args with
  | nil =>
    have closes : c.isLoopEnd = true := by simp [Command.isLoopEnd, verb, args, isEffectName]
    simp only [closes, if_true]
    exact ⟨rfl, .refl _⟩
  | cons effect rest =>
    cases c.isLoopEnd with
    | true => exact ⟨rfl, .refl _⟩
    | false => exact onInstrument_meets _ p (Instrument.finish_aside _ _) running_meets

theorem bpm_meets (verb : c.verb = "bpm") : PerformMeets time id run p c := by
  simp only [PerformMeets, Meets, perform, runFrom_get_bind, Command.deed, verb]
  cases ((c.arg? 0).bind number? : Option α) with
  | none => exact misuse_meets _
  | some value =>
    dsimp only
    split
    · exact misuse_meets _
    · exact ⟨rfl, (log_aside (E := fun _ => True) _ _ _).1⟩

theorem tempo_meets (verb : c.verb = "tempo") : PerformMeets time id run p c := by
  simp only [PerformMeets, Meets, perform, runFrom_get_bind, Command.deed, verb]
  cases read : countOr (c.arg? 0) 120 with
  | error f => exact throw_meets (countOr_passing read)
  | ok value =>
    have passed {β : Type} (n : Int) (next : Int → PerformM α β) :
        runFrom (lift (.ok n) >>= next) p = runFrom (next n) p := rfl
    rw [passed]
    by_cases low : value ≤ 0
    · simp only [low, if_true]
      exact misuse_meets _
    · simp only [low, if_false]
      cases converted : (Scalar.ofInt? value : Except Fault α) with
      | ok tempo => exact ⟨rfl, (log_aside (E := fun _ => True) _ _ _).1⟩
      | error f =>
        refine throw_meets ?_
        unfold Scalar.ofInt? at converted
        dsimp only at converted
        split at converted
        · contradiction
        · cases converted
          rfl

theorem perform_meets : PerformMeets time id run p c := by
  by_cases wait : c.verb = "wait"
  · exact wait_meets time id run p wait
  by_cases waitsec : c.verb = "waitsec"
  · exact waitsec_meets time id run p waitsec
  by_cases waitforfinish : c.verb = "waitforfinish"
  · exact waitforfinish_meets time id run p waitforfinish
  by_cases play : c.verb = "play"
  · exact playing_meets time id run p play
  by_cases loop : c.verb = "loop"
  · exact loop_meets time id run p loop
  by_cases ends : c.verb = "end"
  · exact end_meets time id run p ends
  by_cases sample : c.verb = "sample"
  · have meets := sample_meets time id run p sample
    simpa only [PerformMeets, Meets, perform, sample, runFrom_get_bind] using meets
  by_cases bpm : c.verb = "bpm"
  · exact bpm_meets time id run p bpm
  by_cases tempo : c.verb = "tempo"
  · exact tempo_meets time id run p tempo
  have performed : runFrom (perform time id run c) p =
      runFrom (if run.name == mainName then pure .running else parameter p.session.bpm run c) p := by
    rw [perform, runFrom_get_bind]
    dsimp only
    split
    case h_10 => rfl
    all_goals contradiction
  have deed : c.deed p.session.bpm p.engine.hasSample run.name run.position =
      if run.name == mainName then .nothing
      else match c.struck? p.session.bpm with
        | some (frequencies, seconds) => .sound (.call run.name (.trigger frequencies seconds run.position))
        | none => .adjust := by
    unfold Command.deed
    split
    case h_10 => rfl
    all_goals contradiction
  rw [PerformMeets, Meets, performed, deed]
  by_cases main : run.name = mainName
  · simp only [main, beq_self_eq_true, if_true]
    exact running_meets p
  · simp only [beq_eq_false_iff_ne.mpr main, Bool.false_eq_true, if_false]
    exact parameter_meets time id c p _ main

end verbs

theorem deed_unknown {c : Command} (unknown : c.known = false) (bpm : α) (has : String → Bool)
    (block : String) (position : α) :
    c.deed bpm has block position = if block == mainName then .nothing else .adjust := by
  have other {verb : String} (listed : verb ∈ verbs) : c.verb ≠ verb := by
    rintro rfl
    simp [Command.known, listed] at unknown
  have silent : c.struck? bpm = none := by
    unfold Command.struck?
    split
    · exact absurd ‹_› (other (by decide))
    · exact absurd ‹_› (other (by decide))
    · rfl
  unfold Command.deed
  rw [silent]
  split
  case h_10 => rfl
  all_goals exact absurd ‹_› (other (by decide))

/-- A fault in a command that is known is reported or passed on. -/
theorem runFrom_dispatch (time : α) (id : Nat) (run : Run α) (c : Command) (p : Performance α) :
    runFrom (dispatch time id run c) p =
      if c.known then
        match runFrom (perform time id run c) p with
        | (.ok status, q) => (.ok status, q)
        | (.error f, q) =>
          if f.isSetup then (.error f, q)
          else (.ok .running, (runFrom (log .error (complaint run c f)) q).2)
      else (.ok .running, (runFrom (log .error s!"Unknown command: {c.verb}") p).2) := by
  unfold dispatch
  cases c.known with
  | false => rfl
  | true =>
    simp only [Bool.not_true, Bool.false_eq_true, if_false, if_true]
    rw [runFrom_bind, runFrom_tryCatch, runFrom_bind]
    rcases runFrom (perform time id run c) p with ⟨result, q⟩
    cases result with
    | ok status => rfl
    | error f =>
      dsimp only
      cases f.isSetup <;> rfl

/-- Dispatching a command comes to its deed: only a fault of an engine that is not set up for
it gets past. -/
theorem dispatch_done (time : α) (id : Nat) (run : Run α) (c : Command) (p : Performance α) :
    Done time id run p (runFrom (dispatch time id run c) p).1 (runFrom (dispatch time id run c) p).2
      (c.deed p.session.bpm p.engine.hasSample run.name run.position) := by
  have noted (q : Performance α) (text : String) : q.Aside [] (runFrom (log .error text) q).2 :=
    (log_aside (E := fun _ => True) _ _ q).1
  have done : Done time id run p _ _ _ := perform_meets (c := c) time id run p
  rw [runFrom_dispatch]
  cases known : c.known with
  | false =>
    rw [deed_unknown known]
    cases run.name == mainName with
    | true => exact ⟨rfl, noted p _⟩
    | false => exact ⟨.inl rfl, noted p _⟩
  | true =>
    rw [if_pos rfl]
    rcases ran : runFrom (perform time id run c) p with ⟨result, q⟩
    rw [ran] at done
    cases result with
    | ok status => exact done
    | error f =>
      simp only [handled] at done
      dsimp only
      cases setup : f.isSetup with
      | true =>
        simp only [setup, if_true] at done ⊢
        exact done
      | false =>
        simp only [setup, Bool.false_eq_true, if_false] at done ⊢
        exact done.aside (noted q _)

end Partita.Performance
