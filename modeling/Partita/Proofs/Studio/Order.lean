import Partita.Proofs.Stage.Manned
import Partita.Proofs.Studio.Reach

/-! What every small step of a hall keeps, whatever a director asks for: the loop stays orderly, and
nobody comes to be in a run of a part that is not there. -/
namespace Partita

variable {α : Type}

namespace Stage

variable {s t u : Stage α} {task : Nat} {frames : List (Frame α)} {r : Reply (Value α)}

/-- A later state of a stage in which all tasks are as they were; new ones may be in runs of the
parts that are there. -/
structure Readies (s t : Stage α) : Prop where
  passes : s.Passes (fun _ => False) (· < t.parts.size) t
  size : s.parts.size ≤ t.parts.size

/-- A later state of a stage in which one task has taken its turn inside the calls `frames`. -/
structure Works (task : Nat) (frames : List (Frame α)) (s t : Stage α) : Prop where
  passes : s.Passes (· = task) (· < t.parts.size) t
  size : s.parts.size ≤ t.parts.size
  calls : ∀ k i, .run k i ∈ t.loop.frames task → .run k i ∈ frames

theorem Works.within {inner : List (Frame α)} (works : s.Works task inner t)
    (fewer : ∀ k i, .run k i ∈ inner → .run k i ∈ frames) : s.Works task frames t :=
  ⟨works.passes, works.size, fun k i member => fewer k i (works.calls k i member)⟩

/-- A call that is not one of a run holds none. -/
theorem Works.inside {frame : Frame α} (other : frame.isRun = false) (works : s.Works task (frame :: frames) t) :
    s.Works task frames t := works.within fun k i member => by
  rcases List.mem_cons.mp member with rfl | outer
  · cases other
  · exact outer

namespace Readies

theorem of_same (manned : s.Manned) (loop : t.loop = s.loop) (listeners : t.listeners = s.listeners)
    (size : s.parts.size ≤ t.parts.size) : s.Readies t := by
  refine ⟨.of_loop manned ?_ fun x member => .inl (listeners ▸ member), size⟩
  rw [loop]
  exact .refl manned.loop

theorem refl (manned : s.Manned) : s.Readies s := .of_same manned rfl rfl (Nat.le_refl _)

theorem trans (first : s.Readies t) (second : t.Readies u) : s.Readies u where
  passes := (first.passes.mono (fun _ => id) fun _ inside => Nat.lt_of_lt_of_le inside second.size).trans second.passes
  size := Nat.le_trans first.size second.size

theorem turns (readies : s.Readies t) (turns : s.Turns task) : t.Turns task := turns.after readies.passes

theorem works (readies : s.Readies t) (works : t.Works task frames u) : s.Works task frames u where
  passes := (readies.passes.moves.mono (fun _ => id) fun _ inside => Nat.lt_of_lt_of_le inside works.size).trans
    works.passes
  size := Nat.le_trans readies.size works.size
  calls := works.calls

theorem onPart [Scalar α] {β : Type} (manned : s.Manned) {part : Nat} {act : PerformM α β} {result : Except Fault β}
    (continues : ∀ p : Performance α, p.Continues (fun _ => True) (runFrom act p).2)
    (ran : s.onPart part act = (result, t)) : s.Readies t := by
  have size := (s.onPart_follows part continues).size
  have passes : s.Passes (fun _ => False) (· < s.parts.size) (s.onPart part act).2 :=
      onPart_passes (Q := (· < s.parts.size)) manned id act
  rw [ran] at size passes
  exact ⟨passes.mono (fun _ => id) fun _ inside => Nat.lt_of_lt_of_le inside size, size⟩

end Readies

namespace Turns

variable (turns : s.Turns task)
include turns

theorem leave_works (frames : List (Frame α)) (r : Reply (Value α)) :
    s.Works task frames (s.onLoop (·.leave task frames r)) where
  passes := turns.leave frames r
  size := Nat.le_refl _
  calls k i member := by
    rcases (s.loop.leave_enters (P := fun _ => True) trivial task frames r).own with own | ⟨-, own⟩
    · exact own ▸ member
    · cases own ▸ member

theorem proceed_works (frames : List (Frame α)) (r : Reply (Value α)) :
    s.Works task frames (s.onLoop (·.proceed task frames r)) where
  passes := turns.proceed frames r
  size := Nat.le_refl _
  calls k i member := by
    obtain ⟨_, active⟩ := turns.active
    exact Loop.proceed_frames turns.loop active frames r ▸ member

theorem await_works (frames : List (Frame α)) (cell : Nat) :
    s.Works task frames (s.onLoop (·.await task frames cell)) where
  passes := turns.await frames cell
  size := Nat.le_refl _
  calls k i member := by
    obtain ⟨_, active⟩ := turns.active
    exact Loop.await_frames turns.loop active frames cell ▸ member

theorem ticks_works (frames : List (Frame α)) (count : Nat) :
    s.Works task frames (s.onLoop (·.yield task (.ticks count :: frames))) where
  passes := turns.yield _
  size := Nat.le_refl _
  calls k i member := by
    obtain ⟨_, active⟩ := turns.active
    have member : Frame.run k i ∈ .ticks count :: frames :=
      Loop.yield_frames turns.loop active (.ticks count :: frames) ▸ member
    exact (List.mem_cons.mp member).resolve_left (by simp)

variable [Scalar α]

theorem sleep_works (frames : List (Frame α)) (seconds : α) :
    s.Works task frames (s.sleep task frames seconds) := by
  have same : (s.sleep task frames seconds).parts = s.parts := (s.sleep_parts task frames seconds).1
  refine ⟨sleep_passes turns frames seconds, Nat.le_of_eq (congrArg Array.size same).symm, fun k i member => ?_⟩
  rcases sleep_lands (Q := fun _ => True) turns frames seconds with here | ⟨timer, inside⟩
  · exact here.calls turns ▸ member
  · have member : Frame.run k i ∈ .sleeping timer :: frames := inside.calls turns ▸ member
    exact (List.mem_cons.mp member).resolve_left (by simp)

theorem openMain_works (frames : List (Frame α)) (part : Nat) (replay : Bool) :
    s.Works task frames (s.openMain task frames part replay) := by
  rw [openMain_eq]
  rcases ran : s.onPart part (opening s.loop.time replay) with ⟨result, t⟩
  have readies : s.Readies t := .onPart turns.toManned (fun p => (opening_ongoing s.loop.time replay p).1) ran
  have turns := readies.turns turns
  refine readies.works ?_
  rcases result with f | ⟨_ | run, generation⟩
  · exact turns.leave_works frames _
  · exact turns.leave_works frames _
  · dsimp only
    split
    · exact .inside rfl (turns.await_works (.main part generation :: frames) _)
    · exact turns.leave_works frames _

theorem deliver_works (r : Reply (Value α)) : s.Works task (s.loop.frames task) (s.deliver task r) := by
  have size := (s.deliver_follows (F := fun _ => True) (fun _ _ => trivial) task (r := r) fun _ _ => trivial).size
  exact ⟨deliver_passes turns r fun _ _ _ inside => Nat.lt_of_lt_of_le inside size, size, fun _ _ => deliver_calls r⟩

end Turns

end Stage

namespace Hall

variable {h k : Hall α} {task : Nat}

omit h k in
theorem onStudio_readies {β : Type} {h k : Hall α} (manned : h.stage.Manned) {act : StudioM α β} {result : Except Fault β}
    (ran : h.onStudio act = (result, k)) : h.stage.Readies k.stage := by
  cases ran
  exact .of_same manned rfl rfl (Nat.le_refl _)

/-- A task goes on with the outcome of an operation. -/
theorem told_works {β : Type} (turns : h.stage.Turns task) {k : Except Fault β × Hall α}
    (readies : h.stage.Readies k.2.stage) (frames : List (Frame α)) (f : β → Value α) :
    h.stage.Works task frames (match k with
      | (.ok b, k) => k.onLoop (·.proceed task frames (.value (f b)))
      | (.error e, k) => k.onLoop (·.proceed task frames (.raised (.fault e)))).stage := by
  obtain ⟨result, k⟩ := k
  have turns := readies.turns turns
  cases result <;> exact readies.works (turns.proceed_works frames _)

variable [Scalar α] (turns : h.stage.Turns task) (frames : List (Frame α))
include turns

omit frames in
theorem addPart_readies (clock : Clock α) (engine : Nat) : h.stage.Readies (h.addPart clock engine).2.stage :=
  .of_same turns.toManned rfl rfl (by simp [addPart, Stage.addPart])

theorem openRender_works : h.stage.Works task frames (h.openRender task frames).stage := by
  unfold openRender
  split
  · rename_i ran
    have readies := onStudio_readies turns.toManned ran
    exact readies.works ((readies.turns turns).leave_works frames _)
  · rename_i first
    have begun := onStudio_readies turns.toManned first
    have turns := begun.turns turns
    split
    · rename_i second
      have readies := onStudio_readies turns.toManned second
      exact begun.works (readies.works ((readies.turns turns).leave_works frames _))
    · rename_i mix g second
      have prepared := onStudio_readies turns.toManned second
      have turns := prepared.turns turns
      have engined : g.stage.Readies { g.stage with engines := g.stage.engines.push mix.engine } :=
        .of_same turns.toManned rfl rfl (Nat.le_refl _)
      have turns := engined.turns turns
      have parted := addPart_readies (h := { g with stage := { g.stage with engines := g.stage.engines.push mix.engine } }) turns
        (renderClock g.studio.config) g.stage.engines.size
      exact begun.works (prepared.works (engined.works (parted.works
        (.inside rfl ((parted.turns turns).openMain_works _ g.stage.parts.size false)))))

theorem closeRender_works (part : Nat) (plan : MixPlan α) (r : Reply (Value α)) :
    h.stage.Works task frames (h.closeRender task frames part plan r).stage := by
  unfold closeRender
  split
  · dsimp only
    split <;> rename_i ran <;> have readies := onStudio_readies turns.toManned ran <;>
      exact readies.works ((readies.turns turns).leave_works frames _)
  · have readies : h.stage.Readies (h.stage.execPart part Performance.forceStop) :=
      .onPart turns.toManned (fun p => p.forceStop_continues) (Prod.eta _).symm
    exact readies.works ((readies.turns turns).leave_works frames _)

theorem openLive_works (engine : Nat) (clock : Clock α) :
    h.stage.Works task frames (h.openLive task frames engine clock).stage := by
  have opened {s : Stage α} (turns : s.Turns task) (part : Nat) :
      s.Works task frames (s.openMain task (.studio .live :: frames) part true) :=
    .inside rfl (turns.openMain_works (.studio .live :: frames) part true)
  unfold openLive
  split
  · exact turns.leave_works frames _
  · dsimp only
    split
    · exact opened turns _
    · have parted := addPart_readies turns clock engine
      exact parted.works (opened (parted.turns turns) _)

omit frames in
theorem halt_readies {act : PerformM α Unit} (after : StudioM α Unit)
    (continues : ∀ p : Performance α, p.Continues (fun _ => True) (runFrom act p).2) :
    h.stage.Readies (h.halt act after).2.stage := by
  have first : h.stage.Readies (h.onActive act).2.stage := by
    unfold onActive
    split
    · exact .refl turns.toManned
    · exact .onPart turns.toManned continues (Prod.eta _).symm
  unfold halt
  split <;> rename_i ran <;> rw [ran] at first
  · exact first
  · exact first.trans (onStudio_readies first.passes.manned (Prod.eta _).symm)

theorem carryOut_works (cue : StudioCue α) : h.stage.Works task frames (h.carryOut task frames cue).stage := by
  have studio {β : Type} (act : StudioM α β) : h.stage.Readies (h.onStudio act).2.stage :=
    onStudio_readies turns.toManned (Prod.eta _).symm
  have begun (frame : StudioFrame α) (v : Reply (Value α)) :
      h.stage.Works task frames ((h.begin frame).onLoop (·.proceed task frames v)).stage := by
    have readies : h.stage.Readies (h.begin frame).stage :=
      ⟨Stage.newTask_passes turns (show (Frame.studio frame).isRun = false from rfl) _ _, Nat.le_refl _⟩
    exact readies.works ((readies.turns turns).proceed_works frames v)
  cases cue with
  | parse code => exact told_works turns (studio (Studio.parse code)) frames fun _ => .nothing
  | estimate => exact told_works turns (studio (Studio.estimate h.room)) frames .number
  | addSample name audio rate => exact told_works turns (studio (Studio.addSample name audio rate)) frames fun _ => .nothing
  | loadSamples folder => exact told_works turns (studio (Studio.loadSamples folder)) frames .count
  | setCompressor values => exact told_works turns (studio (Studio.setCompressor values)) frames _
  | setLimiter values => exact told_works turns (studio (Studio.setLimiter values)) frames _
  | render => exact openRender_works turns frames
  | playLive engine clock => exact openLive_works turns frames engine clock
  | beginRender => exact begun _ _
  | beginLive engine clock => exact begun _ _
  | join =>
    unfold carryOut
    dsimp only
    split
    · exact turns.await_works frames _
    · exact turns.proceed_works frames _
  | ticks count =>
    cases count with
    | zero => exact turns.proceed_works frames _
    | succ count => exact turns.ticks_works frames count
  | sleep seconds => exact turns.sleep_works frames seconds
  | playRendered => exact told_works turns (studio (Studio.playRendered _ none)) frames _
  | waitPlayback => exact told_works turns (studio Studio.waitPlayback) frames fun _ => .nothing
  | perform code =>
    have readies := studio (Studio.parse code)
    exact readies.works (.inside rfl (openRender_works (readies.turns turns) (.studio .performing :: frames)))
  | stop => exact told_works turns (halt_readies turns (pure ()) Performance.stop_continues) frames fun _ => .nothing
  | forceStop =>
    exact told_works turns (halt_readies turns (Studio.log .info "Playback force stopped") Performance.forceStop_continues)
      frames fun _ => .nothing
  | exportWave path float => exact told_works turns (studio (Studio.exportWave path float)) frames _

theorem deliverStudio_works (r : Reply (Value α)) (frame : StudioFrame α) :
    h.stage.Works task frames (h.deliverStudio task frames r frame).stage := by
  cases frame with
  | openRender =>
    cases r with
    | raised x => exact turns.leave_works frames _
    | value v => exact openRender_works turns frames
  | rendering part plan => exact closeRender_works turns frames part plan r
  | openLive engine clock =>
    cases r with
    | raised x => exact turns.leave_works frames _
    | value v => exact openLive_works turns frames engine clock
  | live => exact turns.leave_works frames _
  | performing =>
    cases r with
    | raised x => exact turns.leave_works frames _
    | value v =>
      unfold deliverStudio
      dsimp only
      split <;> rename_i ran <;> have readies := onStudio_readies turns.toManned ran <;>
        exact readies.works ((readies.turns turns).leave_works frames _)
  | director cues busy =>
    have reported : h.stage.Readies (if busy then h.report r else h).stage := by
      split
      · exact .of_same turns.toManned rfl rfl (Nat.le_refl _)
      · exact .refl turns.toManned
    have turns := reported.turns turns
    cases cues with
    | nil => exact reported.works (turns.leave_works frames _)
    | cons cue rest =>
      exact reported.works (.inside rfl (carryOut_works turns (.studio (.director rest true) :: frames) cue))

omit frames in
/-- A task takes its turn in the calls that it is in. -/
theorem deliver_works (r : Reply (Value α)) : h.stage.Works task (h.stage.loop.frames task) (h.deliver task r).stage := by
  unfold deliver
  split
  · rename_i frame frames calls
    obtain ⟨passes, size, calls'⟩ := deliverStudio_works turns frames r frame
    exact ⟨passes, size, fun k i member => calls ▸ List.mem_cons_of_mem _ (calls' k i member)⟩
  · exact turns.deliver_works r

omit turns task

/-- A hall in which the loop is orderly, and whoever is in a run is in one of a part that is there. -/
structure Ordered (h : Hall α) : Prop where
  manned : h.stage.Manned
  housed : ∀ c k i, .run k i ∈ h.stage.loop.frames c → k < h.stage.parts.size

namespace Ordered

omit [Scalar α] in
theorem works {task : Nat} (ordered : h.Ordered) (works : h.stage.Works task (h.stage.loop.frames task) k.stage) :
    k.Ordered where
  manned := works.passes.manned
  housed c j i member := by
    by_cases own : c = task
    · subst own
      exact Nat.lt_of_lt_of_le (ordered.housed c j i (works.calls j i member)) works.size
    · rcases works.passes.loop.mem_frames own member with before | ⟨-, runs⟩
      · exact Nat.lt_of_lt_of_le (ordered.housed c j i before) works.size
      · exact runs j i member

omit [Scalar α] in
/-- The loop goes on, and all tasks stay in their calls. -/
theorem idles {l : Loop α (Value α) (Frame α)} {moved : Nat → Prop} (ordered : h.Ordered)
    (passes : h.stage.loop.Passes moved (fun _ => True) l) (stays : h.stage.loop.Stays l) :
    (h.onLoop fun _ => l).Ordered where
  manned := ⟨passes.orderly, fun x member => passes.kinds _ _ (ordered.manned.listeners x member)⟩
  housed c j i member := ordered.housed c j i (stays.frames c ▸ member)

/-- Whatever a director asks for, the next small step leaves a hall in order. -/
theorem step? (ordered : h.Ordered) (stepped : h.step? = some k) : k.Ordered := by
  cases stepped_of_step? stepped with
  | @turn task r active => exact ordered.works (deliver_works ⟨ordered.manned, r, active⟩ r)
  | @call cb rest idle next =>
    have began : h.stage.loop.Stays { h.stage.loop with round := rest } := .of_cells rfl
    exact ordered.idles (Loop.run_passes ordered.manned.loop next Value.nothing)
      (began.trans (Loop.run_stays _ Value.nothing cb))
  | @round l idle drained begun =>
    have passes : h.stage.loop.Passes (fun _ => False) (fun _ => True) l :=
      Loop.nextRound?_passes ordered.manned.loop drained begun
    exact ordered.idles passes (Loop.nextRound?_stays begun)

theorem after (ordered : h.Ordered) (n : Nat) : (h.after n).Ordered := by
  induction n generalizing h with
  | zero => exact ordered
  | succ n ih =>
    unfold Hall.after
    split
    · exact ih (ordered.step? ‹_›)
    · exact ordered

end Ordered

def directed (studio : Studio α) (engines : List (Engine α)) (cues : List (StudioCue α)) : Hall α :=
  (ofStudio studio engines).onLoop fun l => (l.newTask [.studio (.director cues false)]).2

theorem directed_ordered (studio : Studio α) (engines : List (Engine α)) (cues : List (StudioCue α)) :
    (directed studio engines cues).Ordered := by
  have passes : (Loop.initial : Loop α (Value α) (Frame α)).Passes (fun _ => False) (fun _ => True)
      (Loop.initial.newTask [.studio (.director cues false)]).2 := Loop.newTask_passes Loop.initial_orderly trivial
  refine ⟨⟨passes.orderly, fun x none => by cases none⟩, fun c j i member => ?_⟩
  have made := (Loop.initial : Loop α (Value α) (Frame α)).newTask_serves
    (P := fun frames => frames = [] ∨ frames = [.studio (.director cues false)]) (.inl rfl) (.inr rfl)
  rcases made.new c (Nat.zero_le c) with none | one
  · cases none ▸ member
  · cases List.mem_singleton.mp (one ▸ member)

end Hall

end Partita
