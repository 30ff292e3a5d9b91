import Partita.Proofs.Stage.Device
import Partita.Proofs.Studio.Reach

/-! One buffer plays at a time. A studio remembers the playback that it started last, and
stops it before it starts another one; a playback that was stopped is not stopped again. -/
namespace Partita

variable {α : Type}

/-- Calls on a device that take turns: a start while nothing plays, and a stop while
something does. -/
inductive TakeTurns : Bool → List (DeviceCall α) → Bool → Prop
  | nil (on : Bool) : TakeTurns on [] on
  | start (audio : Audio α) (rate : Int) {calls : List (DeviceCall α)} {on : Bool}
      (rest : TakeTurns true calls on) : TakeTurns false (.start audio rate :: calls) on
  | stop {calls : List (DeviceCall α)} {on : Bool} (rest : TakeTurns false calls on) :
      TakeTurns true (.stop :: calls) on

namespace TakeTurns

variable {a b c : Bool} {xs ys : List (DeviceCall α)}

theorem append (first : TakeTurns a xs b) (second : TakeTurns b ys c) : TakeTurns a (xs ++ ys) c := by
  induction first with
  | nil => exact second
  | start audio rate _ ih => exact .start audio rate (ih second)
  | stop _ ih => exact .stop (ih second)

/-- Every other call is a start, and the ones between are stops. -/
theorem getElem? (turns : TakeTurns a xs b) {i : Nat} {call : DeviceCall α} (there : xs[i]? = some call) :
    if (i % 2 == 0) = a then call = .stop else ∃ audio rate, call = .start audio rate := by
  have other (i : Nat) : ((i + 1) % 2 == 0) = !(i % 2 == 0) := by
    rcases Nat.mod_two_eq_zero_or_one i with even | odd
    · simp [Nat.add_mod, even]
    · simp [Nat.add_mod, odd]
  induction turns generalizing i with
  | nil => simp at there
  | start audio rate _ ih =>
    cases i with
    | zero =>
      cases there
      simp
    | succ i =>
      have later := ih there
      rw [other]
      simpa using later
  | stop _ ih =>
    cases i with
    | zero =>
      cases there
      simp
    | succ i =>
      have later := ih there
      rw [other]
      simpa using later

end TakeTurns

namespace Studio

def isPlaying (s : Studio α) : Bool := s.playback.any (!·.stopped)

/-- A later state of a studio: the device was asked to start and to stop in turns. -/
structure Plays (s t : Studio α) : Prop where
  calls : ∃ calls, deviceCalls t.journal = deviceCalls s.journal ++ calls ∧ TakeTurns s.isPlaying calls t.isPlaying

namespace Plays

variable {s t u : Studio α}

theorem of_same (playback : t.playback = s.playback) (journal : deviceCalls t.journal = deviceCalls s.journal) :
    s.Plays t :=
  ⟨[], by simp [journal], by rw [isPlaying, isPlaying, playback]; exact .nil _⟩

theorem refl (s : Studio α) : s.Plays s := .of_same rfl rfl

theorem trans (first : s.Plays t) (second : t.Plays u) : s.Plays u := by
  obtain ⟨xs, grown, turns⟩ := first
  obtain ⟨ys, grown', turns'⟩ := second
  exact ⟨xs ++ ys, by rw [grown', grown, List.append_assoc], turns.append turns'⟩

instance : IsPreorder (Studio α) Plays where
  refl := .refl
  trans _ _ _ first second := first.trans second

end Plays

/-- An operation during which the device is asked to start and to stop in turns. -/
abbrev Playing {β : Type} (act : StudioM α β) : Prop := Within Plays (fun _ => True) act

theorem record_playing {e : Event α} (other : e.deviceCall? = none) : Playing (record e) :=
  .of_modify fun s => .of_same rfl (by simp [deviceCalls_push, other])

theorem log_playing (severity : Severity) (text : String) : Playing (log (α := α) severity text) := record_playing rfl

theorem lift_playing {β : Type} (result : Except Fault β) : Playing (lift (α := α) result) := by
  cases result with
  | ok b => exact .of_pure b
  | error f => exact .of_throw trivial

theorem records_playing {ι : Type} (entries : List ι) (r : ι → Record) :
    Playing (forIn entries PUnit.unit fun n _ => do
      record (α := α) (.log (r n))
      pure (ForInStep.yield PUnit.unit)) :=
  .forIn fun _ _ => (record_playing rfl).bind fun _ => .of_pure _

theorem recordsArray_playing (records : Array Record) :
    Playing (forIn records PUnit.unit fun r _ => do
      record (α := α) (.log r)
      pure (ForInStep.yield PUnit.unit)) := by
  rw [← Array.forIn_toList]
  exact records_playing records.toList id

theorem parse_playing (code : String) : Playing (parse (α := α) code) :=
  (records_playing _ _).bind fun _ => .of_modify fun _ => .of_same rfl rfl

theorem addSample_playing (name : String) (audio : Audio α) (rate : Int) : Playing (addSample name audio rate) :=
  .of_get_bind fun s => (lift_playing _).bind (fun _ =>
    (Within.of_modify fun _ => .of_same rfl rfl).bind fun _ => log_playing _ _) s

theorem loadSamples_playing (folder : String) : Playing (loadSamples (α := α) folder) :=
  .of_get_bind fun s => (recordsArray_playing _).bind (fun _ => (lift_playing _).bind fun _ =>
    (Within.of_modify fun _ => .of_same rfl rfl).bind fun _ => .of_pure _) s

theorem lastRendered_playing : Playing (lastRendered (α := α)) := .of_get_bind fun s => by
  cases s.rendered with
  | none => exact Within.of_throw trivial s
  | some buffer => exact Within.of_pure buffer s

theorem exportWave_playing (path : String) (float : Bool) : Playing (exportWave (α := α) path float) :=
  lastRendered_playing.bind fun _ => .of_get_bind fun s => (lift_playing _).bind (fun _ =>
    (Within.of_modify fun _ => .of_same rfl rfl).bind fun _ => (record_playing rfl).bind fun _ => .of_pure _) s

theorem prepare_playing (seconds : α) : Playing (prepare seconds) := .of_get_bind fun s => lift_playing _ s

/-- Playbacks are stopped once. -/
theorem stopPlayback_playing : Playing (stopPlayback (α := α)) := .of_get_bind fun s => by
  cases playback : s.playback with
  | none => exact Within.of_pure PUnit.unit s
  | some p =>
    cases stopped : p.stopped with
    | true =>
      simp only [Playback.stop, stopped, if_true]
      exact ⟨.of_same playback.symm rfl, fun _ _ => trivial⟩
    | false =>
      simp only [Playback.stop, stopped]
      refine ⟨⟨[.stop], ?_, ?_⟩, fun _ _ => trivial⟩
      · exact deviceCalls_push s.journal (.device .stop)
      · have playing : s.isPlaying = true := by simp [isPlaying, playback, stopped]
        rw [playing]
        exact .stop (.nil false)

/-- Nothing plays after that. -/
theorem isPlaying_stopPlayback (s : Studio α) : (runFrom stopPlayback s).2.isPlaying = false := by
  rw [stopPlayback, runFrom_get_bind]
  cases playback : s.playback with
  | none => simp [isPlaying, playback]
  | some p =>
    cases stopped : p.stopped with
    | true =>
      simp only [Playback.stop, stopped, if_true]
      change (some p).any (!·.stopped) = false
      simp [stopped]
    | false =>
      simp only [Playback.stop, stopped]
      rfl

theorem settings_playing {β : Type} (names : List String) (values : List (Setting α))
    (read : Config.Table α → ReadingM β) : Playing (settings names values read) := by
  rcases told : Config.outcome (read (names.zip values)) with ⟨result, records⟩
  rw [settings, told]
  exact (records_playing records id).bind fun _ => .of_pure result

variable [Scalar α]

theorem estimate_playing (room : Option Nat) : Playing (estimate (α := α) room) :=
  .of_get_bind fun s => (recordsArray_playing _).bind (fun _ => lift_playing _) s

theorem setCompressor_playing (values : List (Setting α)) : Playing (setCompressor values) :=
  (settings_playing _ values _).bind fun result => by
    cases result with
    | error vs => exact .of_pure _
    | ok compressor =>
      exact (Within.of_modify fun _ => .of_same rfl rfl).bind fun _ => (log_playing _ _).bind fun _ => .of_pure _

theorem setLimiter_playing (values : List (Setting α)) : Playing (setLimiter values) :=
  (settings_playing _ values _).bind fun result => by
    cases result with
    | error vs => exact .of_pure _
    | ok limiter =>
      exact (Within.of_modify fun _ => .of_same rfl rfl).bind fun _ => (log_playing _ _).bind fun _ => .of_pure _

theorem renderSeconds_playing (room : Option Nat) : Playing (renderSeconds (α := α) room) := .of_get_bind fun s => by
  cases s.blocks.contains Score.mainName with
  | false => exact Within.of_throw trivial s
  | true => exact (estimate_playing room).bind (fun _ => (log_playing _ _).bind fun _ => .of_pure _) s

theorem finishRender_playing (m : Mixdown α) (position : α) : Playing (finishRender m position) := by
  have mixed : Playing (do
      let rendered ← lift ((← get).tools.render m).1
      record (.log rendered.log)
      modify fun s => { s with rendered := some rendered.buffer, telemetry := rendered.telemetry }
      log .info s!"Rendering complete - {Scalar.fixed 1 rendered.buffer.duration}s audio generated"
      return rendered.buffer) :=
    .of_get_bind fun s => (lift_playing _).bind (fun _ => (record_playing rfl).bind fun _ =>
      (Within.of_modify fun _ => .of_same rfl rfl).bind fun _ => (log_playing _ _).bind fun _ => .of_pure _) s
  unfold finishRender
  split
  · exact (log_playing _ _).bind fun _ => mixed
  · exact mixed

/-- A buffer is started when nothing plays any more, unless the device refuses. -/
theorem playRendered_playing (now : α) (refusal : Option Fault) : Playing (playRendered now refusal) := by
  refine lastRendered_playing.bind fun buffer s => Within.bind_at (stopPlayback_playing s) fun _ t stopped => ?_
  have silent : t.isPlaying = false := by
    have silent := isPlaying_stopPlayback s
    rwa [stopped] at silent
  rw [WithinAt, runFrom_get_bind]
  refine Within.bind_at (lift_playing _ t) fun audio u read => ?_
  obtain rfl : u = t := by
    cases result : t.tools.playable buffer t.config.playbackRate <;> rw [result] at read <;> cases read
    rfl
  cases u.device with
  | none => exact Within.of_throw trivial u
  | some device =>
    refine Within.bind_at (lift_playing _ u) fun p v made => ?_
    obtain ⟨rfl, fresh⟩ : v = u ∧ p.stopped = false := by
      unfold Playback.make at made
      split at made <;> cases made
      exact ⟨rfl, rfl⟩
    cases refusal with
    | some f => exact Within.of_throw trivial v
    | none =>
      refine ⟨⟨[.start p.audio p.rate], ?_, ?_⟩, fun _ _ => trivial⟩
      · change deviceCalls ((v.journal.push (.device (.start p.audio p.rate))).push (.log _)) = _
        rw [deviceCalls_push, deviceCalls_push]
        exact List.append_nil _
      · have playing : (runFrom (modify fun s : Studio α => { s with playback := some (p.start now device).1 } :
            StudioM α PUnit) v).2.isPlaying = true := by
          simp [isPlaying, Playback.start, fresh]
        rw [silent]
        exact .start _ _ (playing ▸ .nil _)

end Studio

namespace Hall

def deviceCalls (h : Hall α) : List (DeviceCall α) :=
  h.reports.toList.flatMap (fun r => Partita.deviceCalls r.journal) ++ Partita.deviceCalls h.stage.journal

/-- A later state of a hall: devices were asked to start and to stop in turns. -/
structure Plays (h k : Hall α) : Prop where
  calls : ∃ calls, k.deviceCalls = h.deviceCalls ++ calls ∧ TakeTurns h.studio.isPlaying calls k.studio.isPlaying

namespace Plays

variable {h k l : Hall α}

theorem of_same (studio : k.studio = h.studio) (reports : k.reports = h.reports)
    (journal : Partita.deviceCalls k.stage.journal = Partita.deviceCalls h.stage.journal) : h.Plays k :=
  ⟨[], by rw [Hall.deviceCalls, Hall.deviceCalls, reports, journal, List.append_nil], by rw [studio]; exact .nil _⟩

theorem refl (h : Hall α) : h.Plays h := .of_same rfl rfl rfl

theorem trans (first : h.Plays k) (second : k.Plays l) : h.Plays l := by
  obtain ⟨xs, grown, turns⟩ := first
  obtain ⟨ys, grown', turns'⟩ := second
  exact ⟨xs ++ ys, by rw [grown', grown, List.append_assoc], turns.append turns'⟩

end Plays

variable (h : Hall α)

theorem onStudio_plays {β : Type} {act : StudioM α β} (playing : Studio.Playing act) :
    h.Plays (h.onStudio act).2 := by
  obtain ⟨calls, grown, turns⟩ := (playing { h.studio with journal := #[] }).1
  refine ⟨calls, ?_, turns⟩
  have own : Partita.deviceCalls (runFrom act { h.studio with journal := #[] }).2.journal = calls := grown
  change _ ++ Partita.deviceCalls (h.stage.journal ++ (runFrom act { h.studio with journal := #[] }).2.journal) = _
  rw [deviceCalls_append, own, ← List.append_assoc]
  rfl

theorem plays_of_onStudio {β : Type} {h k : Hall α} {act : StudioM α β} {result : Except Fault β}
    (playing : Studio.Playing act) (ran : h.onStudio act = (result, k)) : h.Plays k := by
  have plays := h.onStudio_plays playing
  rwa [ran] at plays

theorem report_plays (outcome : Reply (Value α)) : h.Plays (h.report outcome) := by
  refine ⟨[], ?_, .nil _⟩
  simp [Hall.deviceCalls, report, Partita.deviceCalls]

theorem halt_plays {act : PerformM α Unit} {after : StudioM α Unit}
    (unplayed : ∀ p : Performance α, p.Unplayed (runFrom act p).2) (playing : Studio.Playing after) :
    h.Plays (h.halt act after).2 := by
  have first : h.Plays (h.onActive act).2 := by
    unfold onActive
    split
    · exact .refl h
    · exact .of_same rfl rfl (h.stage.onPart_deviceCalls _ unplayed)
  unfold halt
  split <;> rename_i ran <;> rw [ran] at first
  · exact first
  · exact first.trans (onStudio_plays _ (Studio.stopPlayback_playing.bind fun _ => playing))

/-- A task goes on with the outcome of an operation. -/
theorem told_plays {β : Type} {h : Hall α} {k : Except Fault β × Hall α} (task : Nat) (frames : List (Frame α))
    (f : β → Value α) : h.Plays k.2 →
    h.Plays (match k with
      | (.ok b, k) => k.onLoop (·.proceed task frames (.value (f b)))
      | (.error e, k) => k.onLoop (·.proceed task frames (.raised (.fault e)))) := by
  intro plays
  obtain ⟨result, k⟩ := k
  cases result <;> exact plays.trans (.of_same rfl rfl rfl)

variable [Scalar α] (task : Nat) (frames : List (Frame α))

theorem openRender_plays : h.Plays (h.openRender task frames) := by
  unfold openRender
  split
  · rename_i ran
    exact (plays_of_onStudio (Studio.renderSeconds_playing h.room) ran).trans (.of_same rfl rfl rfl)
  · rename_i first
    split
    · rename_i second
      exact ((plays_of_onStudio (Studio.renderSeconds_playing h.room) first).trans
        (plays_of_onStudio (Studio.prepare_playing _) second)).trans (.of_same rfl rfl rfl)
    · rename_i second
      exact ((plays_of_onStudio (Studio.renderSeconds_playing h.room) first).trans
        (plays_of_onStudio (Studio.prepare_playing _) second)).trans
        (.of_same rfl rfl (Stage.openMain_deviceCalls _ _ _ _ _))

theorem closeRender_plays (part : Nat) (plan : MixPlan α) (r : Reply (Value α)) :
    h.Plays (h.closeRender task frames part plan r) := by
  unfold closeRender
  split
  · dsimp only
    split <;> rename_i ran <;>
      exact (plays_of_onStudio (Studio.finishRender_playing _ _) ran).trans (.of_same rfl rfl rfl)
  · exact .of_same rfl rfl (h.stage.onPart_deviceCalls part Performance.forceStop_unplayed)

theorem openLive_plays (engine : Nat) (clock : Clock α) : h.Plays (h.openLive task frames engine clock) := by
  unfold openLive
  split
  · exact .of_same rfl rfl rfl
  · dsimp only
    split <;> exact .of_same rfl rfl (Stage.openMain_deviceCalls _ _ _ _ _)

theorem carryOut_plays (cue : StudioCue α) : h.Plays (h.carryOut task frames cue) := by
  cases cue with
  | parse code => exact told_plays task frames (fun _ => .nothing) (h.onStudio_plays (Studio.parse_playing code))
  | estimate => exact told_plays task frames .number (h.onStudio_plays (Studio.estimate_playing h.room))
  | addSample name audio rate =>
    exact told_plays task frames (fun _ => .nothing) (h.onStudio_plays (Studio.addSample_playing name audio rate))
  | loadSamples folder => exact told_plays task frames .count (h.onStudio_plays (Studio.loadSamples_playing folder))
  | setCompressor values => exact told_plays task frames _ (h.onStudio_plays (Studio.setCompressor_playing values))
  | setLimiter values => exact told_plays task frames _ (h.onStudio_plays (Studio.setLimiter_playing values))
  | render => exact h.openRender_plays task frames
  | playLive engine clock => exact h.openLive_plays task frames engine clock
  | beginRender => exact .of_same rfl rfl rfl
  | beginLive engine clock => exact .of_same rfl rfl rfl
  | join =>
    unfold carryOut
    dsimp only
    split <;> exact .of_same rfl rfl rfl
  | ticks count => cases count <;> exact .of_same rfl rfl rfl
  | sleep seconds =>
    refine .of_same rfl rfl (congrArg Partita.deviceCalls ?_)
    change (h.stage.sleep task frames seconds).journal = h.stage.journal
    unfold Stage.sleep
    split <;> rfl
  | playRendered => exact told_plays task frames _ (h.onStudio_plays (Studio.playRendered_playing _ none))
  | waitPlayback => exact told_plays task frames (fun _ => .nothing) (h.onStudio_plays (Studio.record_playing rfl))
  | perform code =>
    exact (h.onStudio_plays (Studio.parse_playing code)).trans (openRender_plays _ task (.studio .performing :: frames))
  | stop => exact told_plays task frames (fun _ => .nothing) (h.halt_plays Performance.stop_unplayed (.of_pure _))
  | forceStop =>
    have halted := h.halt_plays Performance.forceStop_unplayed (Studio.log_playing .info "Playback force stopped")
    exact told_plays task frames (fun _ => .nothing) halted
  | exportWave path float => exact told_plays task frames _ (h.onStudio_plays (Studio.exportWave_playing path float))

theorem deliverStudio_plays (r : Reply (Value α)) (frame : StudioFrame α) :
    h.Plays (h.deliverStudio task frames r frame) := by
  cases frame with
  | openRender =>
    cases r with
    | raised x => exact .of_same rfl rfl rfl
    | value v => exact h.openRender_plays task frames
  | rendering part plan => exact h.closeRender_plays task frames part plan r
  | openLive engine clock =>
    cases r with
    | raised x => exact .of_same rfl rfl rfl
    | value v => exact h.openLive_plays task frames engine clock
  | live => exact .of_same rfl rfl rfl
  | performing =>
    cases r with
    | raised x => exact .of_same rfl rfl rfl
    | value v =>
      have plays := h.onStudio_plays (Studio.playRendered_playing h.stage.loop.time none)
      unfold deliverStudio
      dsimp only
      split <;> rename_i ran <;> rw [ran] at plays <;> exact plays.trans (.of_same rfl rfl rfl)
  | director cues busy =>
    have reported : h.Plays (if busy then h.report r else h) := by
      split
      · exact h.report_plays r
      · exact .refl h
    cases cues with
    | nil => exact reported.trans (.of_same rfl rfl rfl)
    | cons cue rest => exact reported.trans (carryOut_plays _ task _ cue)

/-- Where no conductor is at work, nothing that a task does lets two buffers play. -/
theorem deliver_plays (r : Reply (Value α))
    (unconducted : ∀ cues busy frames, h.stage.loop.frames task ≠ .conductor cues busy :: frames) :
    h.Plays (h.deliver task r) := by
  unfold deliver
  split
  · exact h.deliverStudio_plays task _ r _
  · exact .of_same rfl rfl (h.stage.deliver_deviceCalls task r unconducted)

/-- What can happen next where a device may refuse to start: the loop settles anew who is to go
on, a task that no conductor leads goes on with a reply, or what was rendered last is to be
played in vain, of which the loop then tells whom it concerns. -/
inductive Attempt : Hall α → Hall α → Prop
  | schedule (h : Hall α) (loop : Loop α (Value α) (Frame α)) : Attempt h (h.onLoop fun _ => loop)
  | deliver (h : Hall α) (task : Nat) (r : Reply (Value α))
      (unconducted : ∀ cues busy frames, h.stage.loop.frames task ≠ .conductor cues busy :: frames) :
      Attempt h (h.deliver task r)
  | refuse (h : Hall α) (loop : Loop α (Value α) (Frame α)) (f : Fault) :
      Attempt h ((h.onStudio (Studio.playRendered h.stage.loop.time (some f))).2.onLoop fun _ => loop)

/-- Any interleaving of calls, with a device that refuses whenever it likes. -/
abbrev Attempts : Hall α → Hall α → Prop := Relation.ReflTransGen Attempt

theorem Attempt.plays {h k : Hall α} (attempt : h.Attempt k) : h.Plays k := by
  cases attempt with
  | schedule loop => exact .of_same rfl rfl rfl
  | deliver task r unconducted => exact h.deliver_plays task r unconducted
  | refuse loop f =>
    exact (h.onStudio_plays (Studio.playRendered_playing h.stage.loop.time (some f))).trans (.of_same rfl rfl rfl)

theorem Attempts.plays {h k : Hall α} (attempts : h.Attempts k) : h.Plays k := by
  induction attempts with
  | refl => exact .refl h
  | tail _ attempt ih => exact ih.trans attempt.plays

/-- One buffer plays at a time. Whatever calls are made in whatever order, and whenever the
device refuses to start, every other call that it carries out is a start, beginning with the
first one, and the calls between them are stops. -/
theorem starts_and_stops_alternate {studio : Studio α} {engines : List (Engine α)} {h : Hall α}
    (silent : studio.playback = none) (attempts : (ofStudio studio engines).Attempts h) {i : Nat}
    {call : DeviceCall α} (there : h.deviceCalls[i]? = some call) :
    if i % 2 = 0 then ∃ audio rate, call = .start audio rate else call = .stop := by
  obtain ⟨calls, grown, turns⟩ := attempts.plays
  have fresh : (ofStudio studio engines).deviceCalls = [] := rfl
  have idle : (ofStudio studio engines).studio.isPlaying = false := by simp [ofStudio, Studio.isPlaying, silent]
  rw [fresh, List.nil_append] at grown
  rw [idle] at turns
  have turn := turns.getElem? (grown ▸ there)
  split <;> rename_i parity <;> simpa [parity] using turn

def rendered : Studio ℚ :=
  { Studio.initial default Tools.fileless (some "speaker") {} with
    rendered := some ⟨.ofColumns 1 #[#[1], #[1]], (default : Config ℚ).playbackRate⟩ }

def replayed (h : Hall ℚ) (cue : StudioCue ℚ) : Hall ℚ :=
  (h.onLoop fun l => { l with
    cells := #[⟨none, [], .task ⟨[.studio (.director [cue] false)], none, false⟩⟩] }).deliver 0 (.value .nothing)

theorem replayed_attempts (h : Hall ℚ) (cue : StudioCue ℚ) : h.Attempts (h.replayed cue) :=
  .tail (.single (.schedule h _)) (.deliver _ 0 _ (by rintro cues busy frames ⟨⟩))

def refused : Hall ℚ :=
  let h := (ofStudio rendered []).replayed .playRendered
  let h := (h.onStudio (Studio.playRendered h.stage.loop.time (some .noBackend))).2.onLoop fun _ => h.stage.loop
  (h.replayed .stop).replayed .playRendered

theorem refused_attempts : (ofStudio rendered []).Attempts refused :=
  .trans (.tail (replayed_attempts _ .playRendered) (.refuse _ _ .noBackend))
    (.trans (replayed_attempts _ .stop) (replayed_attempts _ .playRendered))

theorem starts_and_stops_alternate_refused :
    rendered.playback.isNone = true ∧ (ofStudio rendered []).Attempts refused ∧ refused.deviceCalls.length = 3 ∧
      (∃ audio rate, refused.deviceCalls[0]? = some (.start audio rate)) ∧ refused.deviceCalls[1]? = some .stop ∧
      ∃ audio rate, refused.deviceCalls[2]? = some (.start audio rate) := by
  have count : refused.deviceCalls.length = 3 := by decide +kernel
  have there (i : Nat) (inside : i < 3) := List.getElem?_eq_getElem (Nat.lt_of_lt_of_eq inside count.symm)
  have start (i : Nat) (inside : i < 3) (even : i % 2 = 0) :
      ∃ audio rate, refused.deviceCalls[i]? = some (.start audio rate) := by
    have called := starts_and_stops_alternate rfl refused_attempts (there i inside)
    rw [if_pos even] at called
    obtain ⟨audio, rate, same⟩ := called
    exact ⟨audio, rate, same ▸ there i inside⟩
  have stop := starts_and_stops_alternate rfl refused_attempts (there 1 (by decide))
  exact ⟨rfl, refused_attempts, count, start 0 (by decide) (by decide), stop ▸ there 1 (by decide),
    start 2 (by decide) (by decide)⟩

end Hall

end Partita
