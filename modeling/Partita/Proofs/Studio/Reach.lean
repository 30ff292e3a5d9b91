import Mathlib.Logic.Relation
import Partita.Proofs.Performance.Isolation
import Partita.Proofs.Stage.Following
import Partita.Studio.Hall

/-! How far ending everything at once reaches. A hall remembers one performance that is
under way, the one that was begun last so long as no call has ended since. Of this one no
run that was there dispatches a command again, whatever the calls do that overlap and in
whatever order they go on; the performances that are not remembered are left as they are. -/
namespace Partita

open Score

variable {α : Type} [Scalar α] {F : Fault → Prop}

namespace Performance

omit [Scalar α] in
theorem Bygone.course {count : Nat} {p q : Performance α} (bygone : p.Bygone count) (course : p.Course F q) :
    q.Bygone count where
  there := Nat.le_trans bygone.there course.size
  earlier i s old there := by
    rcases course.runs i s there with ⟨r, before, stays⟩ | ⟨new, -⟩
    · rw [stays.generation]
      exact Nat.lt_of_lt_of_le (bygone.earlier i r old before) course.generation
    · exact absurd (Nat.lt_of_lt_of_le old bygone.there) (Nat.not_lt.mpr new)

/-- No run belongs to a generation that is yet to come. -/
def Dated (p : Performance α) : Prop :=
  ∀ (i : Nat) (r : Run α), p.runs[i]? = some r → r.generation ≤ p.session.generation

theorem Fresh.dated_course {p q : Performance α} (fresh : p.Fresh) (course : p.Course F q) : q.Dated := by
  intro i s there
  rcases course.runs i s there with ⟨r, before, -⟩ | ⟨-, dated, -⟩
  · obtain ⟨blocks, config, clock, engine, rfl⟩ := fresh
    simp [initial] at before
  · exact dated

omit [Scalar α] in
theorem Dated.bygone {p q : Performance α} (dated : p.Dated) (still : p.cleared.Aside [] q) :
    q.Bygone p.runs.size := by
  have cleared : p.cleared.Bygone p.runs.size :=
    ⟨Nat.le_refl _, fun i r _ there => Nat.lt_succ_of_le (dated i r there)⟩
  exact cleared.transfer still.runs (by rw [still.session])

end Performance

namespace Stage

theorem addPart_follows (s : Stage α) (blocks : Blocks) (config : Config α) (clock : Clock α) (engine : Nat) :
    s.Follows F (s.addPart (Performance.initial blocks config clock {}) engine).2 := by
  refine ⟨by simp [addPart], fun k y there => ?_, fun i e there => ⟨e, there, .refl e⟩⟩
  simp only [addPart, Array.getElem?_push] at there
  split at there
  · cases there
    exact .inr ⟨by omega, _, ⟨blocks, config, clock, {}, rfl⟩, .refl _⟩
  · exact .inl ⟨y, there, rfl, .refl _⟩

theorem addEngine_follows (s : Stage α) (engine : Engine α) :
    s.Follows F { s with engines := s.engines.push engine } := by
  refine ⟨Nat.le_refl _, fun k y there => .inl ⟨y, there, rfl, .refl _⟩, fun i e there => ⟨e, ?_, .refl e⟩⟩
  have present := (Array.getElem?_eq_some_iff.mp there).1
  simpa [Array.getElem?_push, Nat.ne_of_lt present] using there

end Stage

namespace Hall

theorem onStudio_follows {β : Type} (h : Hall α) (act : StudioM α β) :
    h.stage.Follows F (h.onStudio act).2.stage :=
  .of_same rfl rfl

theorem onStudio_follows_of_eq {β : Type} {h h' : Hall α} {act : StudioM α β} {result : Except Fault β}
    (ran : h.onStudio act = (result, h')) : h.stage.Follows F h'.stage := by
  have later := h.onStudio_follows (F := F) act
  rwa [ran] at later

theorem openRender_follows (h : Hall α) (task : Nat) (frames : List (Frame α)) :
    h.stage.Follows F (h.openRender task frames).stage := by
  unfold openRender
  split
  · rename_i ran
    exact (onStudio_follows_of_eq ran).trans (.of_same rfl rfl)
  · rename_i first
    split
    · rename_i second
      exact ((onStudio_follows_of_eq first).trans (onStudio_follows_of_eq second)).trans (.of_same rfl rfl)
    · rename_i mix _ second
      refine ((onStudio_follows_of_eq first).trans (onStudio_follows_of_eq second)).trans ?_
      refine (Stage.addEngine_follows _ mix.engine).trans ?_
      exact (Stage.addPart_follows _ _ _ _ _).trans (Stage.openMain_follows _ _ _ _ _)

theorem closeRender_follows (h : Hall α) (task : Nat) (frames : List (Frame α)) (part : Nat) (plan : MixPlan α)
    (r : Reply (Value α)) : h.stage.Follows F (h.closeRender task frames part plan r).stage := by
  unfold closeRender
  split
  · dsimp only
    split <;> rename_i ran <;> exact (onStudio_follows_of_eq ran).trans (.of_same rfl rfl)
  · exact (h.stage.execPart_follows part Performance.forceStop_continues).trans (.of_same rfl rfl)

theorem openLive_follows (h : Hall α) (task : Nat) (frames : List (Frame α)) (engine : Nat) (clock : Clock α) :
    h.stage.Follows F (h.openLive task frames engine clock).stage := by
  unfold openLive
  split
  · exact .of_same rfl rfl
  · dsimp only
    split
    · exact Stage.openMain_follows _ _ _ _ _
    · exact (Stage.addPart_follows _ _ _ _ _).trans (Stage.openMain_follows _ _ _ _ _)

theorem halt_follows (h : Hall α) {act : PerformM α Unit} (after : StudioM α Unit)
    (continues : ∀ p : Performance α, p.Continues F (runFrom act p).2) :
    h.stage.Follows F (h.halt act after).2.stage := by
  have first : h.stage.Follows F (h.onActive act).2.stage := by
    unfold onActive
    split
    · exact .refl _
    · exact h.stage.onPart_follows _ continues
  unfold halt
  split <;> rename_i ran <;> rw [ran] at first
  · exact first
  · exact first.trans (onStudio_follows _ _)

theorem carryOut_follows (h : Hall α) (task : Nat) (frames : List (Frame α)) (cue : StudioCue α) :
    h.stage.Follows F (h.carryOut task frames cue).stage := by
  have halted {act : PerformM α Unit} {after : StudioM α Unit} {result : Except Fault Unit} {h' : Hall α}
      (continues : ∀ p : Performance α, p.Continues F (runFrom act p).2)
      (ran : h.halt act after = (result, h')) : h.stage.Follows F h'.stage := by
    have later := h.halt_follows after continues
    rwa [ran] at later
  cases cue with
  | render => exact h.openRender_follows task frames
  | playLive engine clock => exact h.openLive_follows task frames engine clock
  | beginRender => exact .of_same rfl rfl
  | beginLive engine clock => exact .of_same rfl rfl
  | join =>
    unfold carryOut
    dsimp only
    split <;> exact .of_same rfl rfl
  | ticks count => cases count <;> exact .of_same rfl rfl
  | sleep seconds => exact h.stage.sleep_follows task frames seconds
  | perform code =>
    exact (h.onStudio_follows (Studio.parse code)).trans (openRender_follows _ task (.studio .performing :: frames))
  | stop =>
    unfold carryOut
    dsimp only
    split <;> rename_i ran <;> exact (halted Performance.stop_continues ran).trans (.of_same rfl rfl)
  | forceStop =>
    unfold carryOut
    dsimp only
    split <;> rename_i ran <;> exact (halted Performance.forceStop_continues ran).trans (.of_same rfl rfl)
  | _ =>
    -- The other cues concern the studio alone.
    unfold carryOut
    dsimp only
    split <;> rename_i ran <;> exact (onStudio_follows_of_eq ran).trans (.of_same rfl rfl)

theorem deliverStudio_follows (h : Hall α) (task : Nat) (frames : List (Frame α)) (r : Reply (Value α))
    (frame : StudioFrame α) : h.stage.Follows F (h.deliverStudio task frames r frame).stage := by
  cases frame with
  | openRender =>
    cases r with
    | raised x => exact .of_same rfl rfl
    | value v => exact h.openRender_follows task frames
  | rendering part plan => exact h.closeRender_follows task frames part plan r
  | openLive engine clock =>
    cases r with
    | raised x => exact .of_same rfl rfl
    | value v => exact h.openLive_follows task frames engine clock
  | live => exact .of_same rfl rfl
  | performing =>
    cases r with
    | raised x => exact .of_same rfl rfl
    | value v =>
      unfold deliverStudio
      dsimp only
      split <;> rename_i ran <;> exact (onStudio_follows_of_eq ran).trans (.of_same rfl rfl)
  | director cues busy =>
    have reported : h.stage.Follows F (if busy then h.report r else h).stage := by
      split
      · exact .of_same rfl rfl
      · exact .refl _
    cases cues with
    | nil => exact reported.trans (.of_same rfl rfl)
    | cons cue rest => exact reported.trans (carryOut_follows _ _ _ _)

theorem deliver_follows (setup : ∀ f : Fault, f.isSetup = true → F f) (h : Hall α) (task : Nat) {r : Reply (Value α)}
    (passed : ∀ f, r = .raised (.fault f) → F f) : h.stage.Follows F (h.deliver task r).stage := by
  unfold deliver
  split
  · exact h.deliverStudio_follows task _ r _
  · exact h.stage.deliver_follows setup task passed

/-- What can happen next in a hall: it is settled anew who is to go on and with what, or a
task goes on with a reply. -/
inductive Move : Hall α → Hall α → Prop where
  | schedule (h : Hall α) (loop : Loop α (Value α) (Frame α)) : Move h (h.onLoop fun _ => loop)
  | deliver (h : Hall α) (task : Nat) (r : Reply (Value α)) : Move h (h.deliver task r)

/-- Any interleaving of calls: whatever the loop has in store, in any order. -/
abbrev Reaches : Hall α → Hall α → Prop := Relation.ReflTransGen Move

theorem Reaches.follows {h later : Hall α} (reached : h.Reaches later) :
    h.stage.Follows (fun _ => True) later.stage := by
  induction reached with
  | refl => exact .refl _
  | tail _ move ih =>
    cases move with
    | schedule loop => exact ih.trans (.of_same rfl rfl)
    | deliver task r => exact ih.trans (deliver_follows (fun _ _ => trivial) _ task fun _ _ => trivial)

/-- A small step: a task takes its turn, a callback of the round runs, or another round begins. -/
inductive Stepped (h : Hall α) : Hall α → Prop
  | turn {task : Nat} {r : Reply (Value α)} (active : h.stage.loop.active = some (task, r)) :
      Stepped h (h.deliver task r)
  | call {cb : Callback} {rest : List Callback} (idle : h.stage.loop.active = none)
      (next : h.stage.loop.round = cb :: rest) : Stepped h (h.onLoop fun l => { l with round := rest }.run .nothing cb)
  | round {l : Loop α (Value α) (Frame α)} (idle : h.stage.loop.active = none) (drained : h.stage.loop.round = [])
      (begun : h.stage.loop.nextRound? = some l) : Stepped h (h.onLoop fun _ => l)

theorem stepped_of_step? {h later : Hall α} (taken : h.step? = some later) : h.Stepped later := by
  unfold step? at taken
  split at taken
  · rename_i task r active
    cases taken
    exact .turn active
  · rename_i idle
    obtain ⟨s, staged, rfl⟩ := Option.map_eq_some_iff.mp taken
    cases Stage.stepped_of_step? staged with
    | turn active => cases idle.symm.trans active
    | call _ next => exact .call idle next
    | round _ drained begun => exact .round idle drained begun

/-- A small step of the loop is such a move. -/
theorem step?_move {h later : Hall α} (stepped : h.step? = some later) : h.Move later := by
  cases stepped_of_step? stepped with
  | turn => exact .deliver h _ _
  | call => exact .schedule h _
  | round => exact .schedule h _

def after (h : Hall α) : Nat → Hall α
  | 0 => h
  | n + 1 => match h.step? with
    | some later => later.after n
    | none => h

theorem after_reaches (h : Hall α) (n : Nat) : h.Reaches (h.after n) := by
  induction n generalizing h with
  | zero => exact .refl
  | succ n ih =>
    unfold after
    split
    · exact .head (step?_move ‹_›) (ih _)
    · exact .refl

def dispatched? (h : Hall α) : Option (Nat × Nat × Command) :=
  match h.stage.loop.active with
  | none => none
  | some (task, _) => match h.stage.loop.frames task with
    | .run part run :: _ => h.stage.parts[part]?.bind fun x =>
      if x.performance.enabled (.step run) then
        (x.performance.dispatched? run (.step run)).map (part, run, ·)
      else none
    | _ => none

omit [Scalar α] in
theorem dispatched?_eq_some {h : Hall α} {part run : Nat} {c : Command}
    (dispatches : h.dispatched? = some (part, run, c)) :
    ∃ x, h.stage.parts[part]? = some x ∧ x.performance.dispatched? run (.step run) = some c := by
  unfold dispatched? at dispatches
  split at dispatches
  · contradiction
  · split at dispatches
    · obtain ⟨x, found, dispatches⟩ := Option.bind_eq_some_iff.mp dispatches
      split at dispatches
      · obtain ⟨d, read, same⟩ := Option.map_eq_some_iff.mp dispatches
        cases same
        exact ⟨x, found, read⟩
      · contradiction
    · contradiction

def runCount (h : Hall α) (part : Nat) : Nat := (h.stage.parts[part]?.map (·.performance.runs.size)).getD 0

end Hall

theorem Stage.onPart_forceStop_cleared {s t : Stage α} {part : Nat}
    (done : s.onPart part Performance.forceStop = (.ok (), t)) :
    ∃ x q, s.parts[part]? = some x ∧ (s.mounted x).cleared.Aside [] q ∧ t.parts = (s.stored part x q).parts := by
  cases found : s.parts[part]? with
  | none =>
    unfold onPart at done
    rw [found] at done
    cases done
  | some x =>
    rw [onPart_eq found] at done
    rcases Performance.forceStop_cases (s.mounted x) with ⟨q, ran, still⟩ | ⟨f, q, ran, -⟩
    · rw [ran] at done
      obtain ⟨-, rfl⟩ := Prod.mk.inj done
      have old : ∀ request ∈ q.outbox, ∀ run, request ≠ .spawned run := by
        intro request member run
        rw [still.outbox] at member
        simp only [Performance.cleared, Performance.dismissed, mounted, Array.mem_push, Array.mem_append,
          List.mem_toArray, List.mem_map] at member
        rcases member with (none | ⟨_, _, rfl⟩) | rfl
        · simp at none
        · simp
        · simp
      exact ⟨x, q, rfl, still, serveAll_parts _ part _ old⟩
    · rw [ran] at done
      cases done

/-- Ending a part at once puts its runs behind and leaves the other parts as they are. -/
theorem Stage.onPart_forceStop {s t : Stage α} {part : Nat}
    (done : s.onPart part Performance.forceStop = (.ok (), t)) :
    ∃ x y, s.parts[part]? = some x ∧ t.parts[part]? = some y ∧
      (x.performance.Dated → y.performance.Bygone x.performance.runs.size) ∧
      ∀ other, other ≠ part → t.parts[other]? = s.parts[other]? := by
  obtain ⟨x, q, found, still, parts⟩ := onPart_forceStop_cleared done
  rw [parts]
  refine ⟨x, _, found, stored_part found q, fun dated => ?_, fun other => stored_other s x q⟩
  have bygone : q.Bygone x.performance.runs.size := Performance.Dated.bygone (p := s.mounted x) dated still
  exact ⟨bygone.there, bygone.earlier⟩

namespace Hall

theorem Reaches.dated {studio : Studio α} {engines : List (Engine α)} {h : Hall α}
    (reached : (ofStudio studio engines).Reaches h) {part : Nat} {x : Part α}
    (found : h.stage.parts[part]? = some x) : x.performance.Dated := by
  rcases reached.follows.parts part x found with ⟨_, before, -⟩ | ⟨-, p, fresh, course⟩
  · simp [ofStudio, Stage.initial] at before
  · exact fresh.dated_course course

theorem forceStop_parts {h stopped : Hall α} (done : h.forceStop = (.ok (), stopped)) :
    stopped.stage.parts = h.stage.parts ∧ h.active = none ∨
      ∃ part t, h.active = some part ∧ h.stage.onPart part Performance.forceStop = (.ok (), t) ∧
        stopped.stage.parts = t.parts := by
  unfold forceStop halt onActive at done
  cases active : h.active with
  | none =>
    rw [active] at done
    refine .inl ⟨?_, rfl⟩
    rw [← (Prod.mk.inj done).2]
  | some part =>
    rw [active] at done
    dsimp only at done
    rcases ran : h.stage.onPart part Performance.forceStop with ⟨result, t⟩
    rw [ran] at done
    cases result with
    | error f => cases done
    | ok =>
      refine .inr ⟨part, t, rfl, ran, ?_⟩
      rw [← (Prod.mk.inj done).2]

/-- Ending everything at once reaches the performance that the hall remembers, and no other:
whatever calls overlap and however they go on, no run that was there dispatches a command if
its performance was the one that is remembered, and the other performances do not change. -/
theorem forceStop_reaches_active {studio : Studio α} {engines : List (Engine α)} {h stopped : Hall α}
    (reached : (ofStudio studio engines).Reaches h) (done : h.forceStop = (.ok (), stopped)) :
    (∀ part, h.active ≠ some part → stopped.stage.parts[part]? = h.stage.parts[part]?) ∧
      ∀ (later : Hall α) (part run : Nat) (c : Command), stopped.Reaches later →
        later.dispatched? = some (part, run, c) → run < h.runCount part → h.active ≠ some part := by
  rcases forceStop_parts done with ⟨same, idle⟩ | ⟨part, t, active, ended, same⟩
  · rw [same, idle]
    exact ⟨fun _ _ => rfl, fun _ _ _ _ _ _ _ => by simp⟩
  · obtain ⟨x, y, found, stored, behind, others⟩ := Stage.onPart_forceStop ended
    rw [same, active]
    refine ⟨fun other different => others other fun equal => different (by rw [equal]), ?_⟩
    rintro later _ run c continued dispatches old ⟨rfl⟩
    obtain ⟨z, there, read⟩ := dispatched?_eq_some dispatches
    have bygone : z.performance.Bygone x.performance.runs.size := by
      rcases continued.follows.parts part z there with ⟨_, before, -, course⟩ | ⟨new, -⟩
      · rw [same, stored] at before
        cases before
        exact (behind (reached.dated found)).course course
      · rw [same] at new
        exact absurd (Array.getElem?_eq_some_iff.mp stored).1 (Nat.not_lt.mpr new)
    simp only [runCount, found, Option.map_some, Option.getD_some] at old
    obtain ⟨r, run_found⟩ : ∃ r, z.performance.runs[run]? = some r :=
      ⟨_, Array.getElem?_eq_getElem (Nat.lt_of_lt_of_le old bygone.there)⟩
    have orphan := bygone.earlier run r old run_found
    simp [Performance.dispatched?, Performance.read?, run_found, Performance.next?_orphan orphan] at read

end Hall

def Tools.fileless : Tools ℚ where
  newMix := Mixdown.ofConfig
  render := Mixdown.render
  resample := Signal.resample
  playable := Buffer.atRate
  loadFolder _ folder _ _ := (.error (.missingFile folder.text), {})
  exportWave _ path _ _ := .error (.missingFile path.text)

namespace Hall

def pausing : Studio ℚ :=
  { Studio.initial default Tools.fileless none {} with blocks := [("main", ["waitsec 1", "bpm 90"])] }

def overlapping (steps : Nat) : Hall ℚ :=
  ((ofStudio pausing [{}, {}]).onLoop fun l => (l.newTask [.studio (.director
    [.beginLive 0 (.realtime none), .ticks 2, .playLive 1 (.virtual 0), .sleep 5] false)]).2).after steps

theorem overlapping_reached (steps : Nat) : (ofStudio pausing [{}, {}]).Reaches (overlapping steps) :=
  .head (.schedule _ _) (after_reaches _ _)

theorem forceStop_reaches_active_overlapping :
    (ofStudio pausing [{}, {}]).Reaches (overlapping 20) ∧ (overlapping 20).forceStop.1 = .ok () ∧
      (overlapping 20).active = some 1 ∧ (overlapping 20).runCount 1 = 1 ∧
      (overlapping 20).forceStop.2.stage.parts[0]? = (overlapping 20).stage.parts[0]? ∧
      ∀ (later : Hall ℚ) (c : Command), (overlapping 20).forceStop.2.Reaches later →
        later.dispatched? ≠ some (1, 0, c) := by
  have done : (overlapping 20).forceStop.1 = .ok () := by decide +kernel
  have active : (overlapping 20).active = some 1 := by decide +kernel
  have count : (overlapping 20).runCount 1 = 1 := by decide +kernel
  have pair : (overlapping 20).forceStop = (.ok (), (overlapping 20).forceStop.2) := by rw [← done]
  obtain ⟨others, none⟩ := forceStop_reaches_active (overlapping_reached 20) pair
  refine ⟨overlapping_reached 20, done, active, count, others 0 (by simp [active]), ?_⟩
  intro later c continued dispatches
  exact none later 1 0 c continued dispatches (by rw [count]; decide) active

/-- Once the second call has ended nothing is remembered, and the first one plays on. -/
theorem forceStop_misses_overlapped :
    (ofStudio pausing [{}, {}]).Reaches (overlapping 30) ∧ (overlapping 30).forceStop.1 = .ok () ∧
      (overlapping 30).runCount 0 = 1 ∧
      (overlapping 30).forceStop.2.Reaches ((overlapping 30).forceStop.2.after 6) ∧
      ((overlapping 30).forceStop.2.after 6).dispatched? = some (0, 0, ⟨"bpm", ["90"], "bpm 90"⟩) :=
  ⟨overlapping_reached 30, by decide +kernel, by decide +kernel, after_reaches _ _, by decide +kernel⟩

end Hall

end Partita
