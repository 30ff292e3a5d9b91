import Partita.Proofs.Performance.Execution
import Partita.Proofs.Performance.Unroll

/-! What a turn of a run can do. Either the run goes on and may have started new
runs, or it ends and its end is counted, or it vanishes before its first step.
Nothing else about the runs or the session moves, apart from the tempo. -/
namespace Partita

open Score

variable {α : Type}

def Status.isOngoing : Status α → Bool
  | .created | .ended _ => false
  | _ => true

namespace Run

def isSuspended (r : Run α) : Bool := match r.status with
  | .waiting .. | .settling _ | .playing _ => true
  | _ => false

/-- A run that waits has read a line, one that has not begun has read none, and no
loop begins before the first line. -/
structure Paced (r : Run α) : Prop where
  unborn : r.status = .created → r.cursor = 0
  begun : r.isSuspended = true → 0 < r.cursor
  loops : ∀ frame ∈ r.loops, 0 < frame.body

/-- What a run keeps while it goes on to a place in its block. -/
structure Moves (r place s : Run α) : Prop where
  name : s.name = r.name
  lines : s.lines = r.lines
  generation : s.generation = r.generation
  cursor : s.cursor = place.cursor
  loops : s.loops = place.loops
  live : s.isLive = true
  paced : r.Paced → s.Paced

theorem Moves.of_ongoing {r place s : Run α} (name : s.name = r.name) (lines : s.lines = r.lines)
    (generation : s.generation = r.generation) (cursor : s.cursor = place.cursor)
    (loops : s.loops = place.loops) (ongoing : s.status.isOngoing = true)
    (begun : r.Paced → 0 < s.cursor) (bodies : r.Paced → ∀ frame ∈ s.loops, 0 < frame.body) :
    r.Moves place s := by
  refine ⟨name, lines, generation, cursor, loops, ?_,
    fun paced => ⟨fun created => ?_, fun _ => begun paced, bodies paced⟩⟩
  · unfold isLive
    split
    · simp [Status.isOngoing, *] at ongoing
    · rfl
  · simp [created, Status.isOngoing] at ongoing

theorem Moves.of_resumed {r : Run α} (suspended : r.isSuspended = true) (position : α)
    {status : Status α} (ongoing : status.isOngoing = true) :
    r.Moves r { r with position := position, status := status } :=
  .of_ongoing rfl rfl rfl rfl rfl ongoing (fun paced => paced.begun suspended) Paced.loops

theorem Moves.refl {r : Run α} (live : r.isLive = true) : r.Moves r r :=
  ⟨rfl, rfl, rfl, rfl, rfl, live, fun paced => paced⟩

theorem advance_moves (r : Run α) {status : Status α} (ongoing : status.isOngoing = true) :
    r.Moves r.advance (r.advance.withStatus status) :=
  .of_ongoing rfl rfl rfl rfl rfl ongoing (fun _ => Nat.succ_pos _) Paced.loops

theorem openLoop_moves (r : Run α) (passes : Int) :
    r.Moves (r.advance.openLoop passes) ((r.advance.openLoop passes).withStatus .running) := by
  refine .of_ongoing rfl rfl rfl rfl rfl rfl (fun _ => Nat.succ_pos _) fun paced frame member => ?_
  rcases List.mem_cons.mp member with rfl | later
  · exact Nat.succ_pos _
  · exact paced.loops frame later

theorem closeLoop_moves (r : Run α) :
    r.Moves r.advance.closeLoop (r.advance.closeLoop.withStatus .running) := by
  unfold closeLoop
  split
  · exact r.advance_moves rfl
  · rename_i frame rest opened
    have listed : ∀ f ∈ frame :: rest, f ∈ r.loops := fun f member => opened ▸ member
    split
    · refine .of_ongoing rfl rfl rfl rfl rfl rfl (fun paced => ?_) fun paced f member => ?_
      · exact paced.loops frame (listed frame (List.mem_cons_self ..))
      · rcases List.mem_cons.mp member with rfl | later
        · exact paced.loops frame (listed frame (List.mem_cons_self ..))
        · exact paced.loops f (listed f (List.mem_cons_of_mem _ later))
    · refine .of_ongoing rfl rfl rfl rfl rfl rfl (fun _ => Nat.succ_pos _) fun paced f member => ?_
      exact paced.loops f (listed f (List.mem_cons_of_mem _ member))

def placeAfter (r : Run α) (s : Session α) : Act α → Run α
  | .step _ => match r.next? s with
    | some line => r.read line
    | none => r
  | _ => r

structure Fresh (r : Run α) (blocks : Blocks) (generation : Nat) : Prop where
  lines : ∃ lines, blocks.lines? r.name = some lines ∧ r.lines = lines.toArray
  generation : r.generation = generation
  cursor : r.cursor = 0
  loops : r.loops = []
  status : r.status = .created

theorem Fresh.paced {r : Run α} {blocks : Blocks} {generation : Nat} (fresh : r.Fresh blocks generation) :
    r.Paced where
  unborn _ := fresh.cursor
  begun suspended := by simp [isSuspended, fresh.status] at suspended
  loops := by simp [fresh.loops]

end Run

namespace Performance

theorem newRun_fresh {blocks : Blocks} {generation : Nat} {position : α} {names : List String}
    {block : String × List String} (member : block ∈ blocks.cast names) :
    (newRun generation position block).Fresh blocks generation := by
  obtain ⟨name, -, found⟩ := List.mem_filterMap.mp member
  obtain ⟨lines, defined, rfl⟩ := Option.map_eq_some_iff.mp found
  exact ⟨⟨lines, defined, rfl⟩, rfl, rfl, rfl, rfl⟩

/-- Runs of which one has become `run`, followed by some that were started. -/
structure Succeeds (id : Nat) (run : Run α) (started : List (Run α)) (before after : Array (Run α)) : Prop where
  present : id < before.size
  runs : after = before.modify id (fun _ => run) ++ started.toArray

namespace Succeeds

variable {id : Nat} {run : Run α} {started : List (Run α)} {before after : Array (Run α)}

theorem refl (found : before[id]? = some run) : Succeeds id run [] before before where
  present := (Array.getElem?_eq_some_iff.mp found).1
  runs := by
    rw [Array.append_empty]
    apply Array.ext_getElem?
    intro i
    rw [Array.getElem?_modify]
    split
    · subst i
      simp [found]
    · rfl

theorem size (succeeds : Succeeds id run started before after) :
    after.size = before.size + started.length := by
  simp [succeeds.runs]

theorem found (succeeds : Succeeds id run started before after) : after[id]? = some run := by
  have present := succeeds.present
  rw [succeeds.runs, Array.getElem?_append_left (by simpa using present), Array.getElem?_modify]
  simp [present]

theorem other (succeeds : Succeeds id run started before after) {i : Nat} {s : Run α} (different : i ≠ id)
    (there : before[i]? = some s) : after[i]? = some s := by
  have present := (Array.getElem?_eq_some_iff.mp there).1
  rw [succeeds.runs, Array.getElem?_append_left (by simpa using present), Array.getElem?_modify]
  simpa [different.symm] using there

theorem origin (succeeds : Succeeds id run started before after) {i : Nat} {s : Run α}
    (there : after[i]? = some s) : (i = id ∧ s = run) ∨ (i ≠ id ∧ before[i]? = some s) ∨
      (before.size ≤ i ∧ started[i - before.size]? = some s) := by
  have present := succeeds.present
  rw [succeeds.runs, Array.getElem?_append, Array.size_modify, Array.getElem?_modify] at there
  by_cases same : id = i
  · subst i
    simp only [present, if_true, Array.getElem?_eq_getElem, Option.map_some] at there
    exact .inl ⟨rfl, (Option.some.inj there).symm⟩
  · simp only [same, if_false] at there
    split at there
    · exact .inr (.inl ⟨fun equal => same equal.symm, there⟩)
    · exact .inr (.inr ⟨by omega, by simpa using there⟩)

theorem modify (succeeds : Succeeds id run started before after) (f : Run α → Run α) :
    Succeeds id (f run) started before (after.modify id f) where
  present := succeeds.present
  runs := by
    have present := succeeds.present
    rw [succeeds.runs]
    apply Array.ext_getElem?
    intro i
    rw [Array.getElem?_modify, Array.getElem?_append, Array.getElem?_append]
    simp only [Array.size_modify, Array.getElem?_modify]
    by_cases same : id = i
    · subst i
      simp [present]
    · simp [same]

end Succeeds

/-- A performance in which a run has become `run` and runs were started, each of
them counted. -/
structure Going (id : Nat) (p q : Performance α) (run : Run α) (started : List (Run α)) : Prop where
  blocks : q.blocks = p.blocks
  config : q.config = p.config
  runs : Succeeds id run started p.runs q.runs
  fresh : ∀ r ∈ started, r.Fresh p.blocks p.session.generation
  playing : q.session.playing = p.session.playing
  generation : q.session.generation = p.session.generation
  active : q.session.active = p.session.active + started.length
  latest : q.session.latestFinish = p.session.latestFinish
  asked : ∀ j, q.isAsked j = p.isAsked j
  engine : p.engine.Alike q.engine
  owned : ∀ entry ∈ q.voices, entry ∈ p.voices ∨ entry.2 < q.engine.voices.size
  journal : ∃ sounds, Grows sounds p.journal q.journal

namespace Going

variable {id : Nat} {p q r : Performance α} {run : Run α} {started : List (Run α)}

theorem refl (found : p.runs[id]? = some run) : Going id p p run [] where
  blocks := rfl
  config := rfl
  runs := .refl found
  fresh := by simp
  playing := rfl
  generation := rfl
  active := rfl
  latest := rfl
  asked _ := rfl
  engine := .refl _
  owned _ := .inl
  journal := ⟨[], .refl _⟩

theorem origin (going : Going id p q run started) {i : Nat} {s : Run α} (there : q.runs[i]? = some s) :
    (i = id ∧ s = run) ∨ (i ≠ id ∧ p.runs[i]? = some s) ∨ (p.runs.size ≤ i ∧ s ∈ started) := by
  rcases going.runs.origin there with own | old | ⟨new, listed⟩
  · exact .inl own
  · exact .inr (.inl old)
  · exact .inr (.inr ⟨new, List.mem_of_getElem? listed⟩)

theorem onRun (going : Going id p q run started) (f : Run α → Run α) :
    Going id p (q.onRun id f) (f run) started :=
  { going with runs := going.runs.modify f }

theorem aside {sounds : List (Event α)} (going : Going id p q run started) (still : q.Aside sounds r) :
    Going id p r run started where
  blocks := still.blocks.trans going.blocks
  config := still.config.trans going.config
  runs := still.runs ▸ going.runs
  fresh := going.fresh
  playing := by rw [still.session, going.playing]
  generation := by rw [still.session, going.generation]
  active := by rw [still.session, going.active]
  latest := by rw [still.session, going.latest]
  asked j := by rw [isAsked, still.outbox]; exact going.asked j
  engine := going.engine.trans still.engine
  owned entry member := by
    rcases still.owned entry member with old | new
    · exact (going.owned entry old).imp_right fun bound => Nat.lt_of_lt_of_le bound still.engine.voices
    · exact .inr new
  journal := by
    obtain ⟨_, grown⟩ := going.journal
    exact ⟨_, grown.trans still.journal⟩

theorem addRuns {names : List String} (going : Going id p q run []) (position : α)
    {blocks : List (String × List String)} (within : blocks <+: p.blocks.cast names) :
    Going id p (q.addRuns position blocks) run (blocks.map (newRun p.session.generation position)) := by
  obtain ⟨changes, outbox, added, asked⟩ := addRuns_eq position q blocks
  rw [added]
  exact { going with
    runs := ⟨going.runs.present, by rw [going.runs.runs, going.generation, Array.append_empty]⟩
    fresh := by
      intro r member
      obtain ⟨block, listed, rfl⟩ := List.mem_map.mp member
      exact newRun_fresh (within.subset listed)
    active := by rw [going.active]; simp
    asked := fun j => (asked j).trans (going.asked j) }

theorem setBpm (going : Going id p q run started) (bpm : α) :
    Going id p { q with session := q.session.setBpm bpm } run started :=
  { going with }

theorem setClock (going : Going id p q run started) (clock : Clock α) :
    Going id p { q with clock := clock } run started :=
  { going with }

end Going

variable [Scalar α]

theorem closed_isAsked (p : Performance α) (id : Nat) (run : Run α) (outcome : Outcome α) (j : Nat) :
    (p.closed id run outcome).isAsked j = p.isAsked j := by
  simp only [isAsked, closed, Performance.onRun, counted]
  split <;> simp

/-- A play that the engine breaks off: of the blocks that it names, only the first
few get a run. -/
def BrokenOff (p : Performance α) (run : Run α) (count : Nat) : Prop :=
  ¬ p.engine.Faultless ∧ ∃ line c names, run.next? p.session = some line ∧ Command.parse? line = some c ∧
    c.deed p.session.bpm p.engine.hasSample run.name run.position = .play names ∧
    count < (p.blocks.cast names).length

/-- What a turn that takes a run to a place comes to. -/
inductive Turn (id : Nat) (run place : Run α) (p : Performance α) : Performance α → Prop where
  | goes {q : Performance α} {run' : Run α} {started : List (Run α)}
      (going : Going id p q run' started) (moves : run.Moves place run')
      (awaited : started = [] ∨ run'.status = .playing (List.range' p.runs.size started.length) ∨
        p.BrokenOff run started.length) : Turn id run place p q
  | ends {q : Performance α} {run' : Run α} {started : List (Run α)} (outcome : Outcome α)
      (going : Going id p q run' started) (moves : run.Moves place run')
      (broken : started = [] ∨ p.BrokenOff run started.length)
      (begun : outcome = .cancelled → run'.isSuspended = true)
      (spent : ∀ position, outcome = .finished position → run.next? p.session = none)
      (failed : ∀ f, outcome = .failed f → ¬ p.engine.Faultless ∨ ∃ child, p.hasFailed f child = true) :
      Turn id run place p (q.closed id run' outcome)
  | vanishes (created : run.status = .created) (asked : p.isAsked id = true) (same : place = run) :
      Turn id run place p (p.onRun id (·.withStatus (.ended .cancelled)))

/-- A command that starts no runs and does not fail for good changes the status of
its run. -/
theorem Going.entered {id : Nat} {run place run' : Run α} {p q : Performance α} {status : Status α}
    (going : Going id p q run' []) (moves : run.Moves place (run'.withStatus status)) :
    Turn id run place p (q.entered id (.ok status)) :=
  .goes (going.onRun (·.withStatus status)) moves (.inl rfl)

theorem Settled.turn {time deadline : α} {id : Nat} {run place run' : Run α} {p q r : Performance α}
    {outcome : Except Fault (Status α)} (settled : Settled time deadline id q outcome r)
    (going : Going id p q run' [])
    (moves : ∀ status position, status.isOngoing = true →
      run.Moves place { run' with position := position, status := status }) :
    Turn id run place p (r.entered id outcome) := by
  have stays {status : Status α} (still : q.Aside [] r) (ongoing : status.isOngoing = true) :
      Turn id run place p (r.entered id (.ok status)) :=
    (going.aside still).entered (moves _ run'.position ongoing)
  unfold Settled at settled
  split at settled
  · obtain ⟨rfl, still⟩ := settled
    exact stays still rfl
  · obtain ⟨rfl, still⟩ := settled
    exact stays still rfl
  · split at settled
    · obtain ⟨rfl, still⟩ := settled
      exact ((going.onRun _).aside still).entered (moves _ _ rfl)
    · obtain ⟨rfl, still⟩ := settled
      exact stays still rfl

theorem dispatch_turn {time : α} {id : Nat} {run : Run α} {p q : Performance α}
    {outcome : Except Fault (Status α)} {d : Deed α} (found : p.runs[id]? = some run)
    (running : run.status = .running)
    (done : Done time id run.advance (p.onRun id Run.advance) outcome q d)
    (broken : ∀ names count, d = .play names → ¬ p.engine.Faultless →
      count < (p.blocks.cast names).length → p.BrokenOff run count) :
    Turn id run (d.place run.advance) p (q.entered id outcome) := by
  have going : Going id p (p.onRun id Run.advance) run.advance [] := (Going.refl found).onRun _
  have kept {status : Status α} (ongoing : status.isOngoing = true) :
      run.Moves run.advance (run.advance.withStatus status) := run.advance_moves ongoing
  have same : run.Moves run.advance run.advance := by
    have ongoing : run.status.isOngoing = true := by rw [running]; rfl
    exact kept ongoing
  have persisted {sounds : List (Event α)} (persists : (p.onRun id Run.advance).Persists outcome)
      (still : (p.onRun id Run.advance).Aside sounds q) : Turn id run run.advance p (q.entered id outcome) := by
    have gone := going.aside still
    rcases persists with rfl | ⟨faulty, f, rfl⟩
    · exact gone.entered (kept rfl)
    · simp only [Performance.entered, gone.runs.found]
      exact .ends (.failed f) gone same (.inl rfl) (by simp) (by simp) fun _ _ => .inl faulty
  cases d with
  | nothing =>
    obtain ⟨rfl, still⟩ := done
    exact (going.aside still).entered (kept rfl)
  | adjust => exact persisted done.1 done.2
  | pause seconds beats =>
    obtain ⟨rfl, still⟩ := done
    exact (going.aside still).entered (kept rfl)
  | sound event =>
    obtain ⟨persists, sounds, still, -⟩ := done
    exact persisted persists still
  | play names =>
    obtain ⟨started, within, added, -, ended⟩ := done
    have spawned := (going.addRuns run.position within).aside added
    rcases ended with ⟨faulty, short, rfl | ⟨f, rfl⟩⟩ | ⟨rfl, rfl⟩
    · have few := broken names _ rfl faulty short
      exact .goes (spawned.onRun (·.withStatus .running)) (kept rfl) (.inr (.inr (by simpa using few)))
    · have few := broken names _ rfl faulty short
      simp only [Performance.entered, spawned.runs.found]
      exact .ends (.failed f) spawned same (.inr (by simpa using few)) (by simp) (by simp) fun _ _ => .inl faulty
    · refine .goes (spawned.onRun (·.withStatus _)) (kept ?_) ?_
      · split <;> rfl
      · by_cases none : p.blocks.cast names = []
        · exact .inl (by simpa [Performance.onRun] using none)
        · refine .inr (.inl ?_)
          simpa [Run.withStatus, Performance.onRun] using none
  | openLoop passes =>
    obtain ⟨rfl, still⟩ := done
    exact ((going.onRun (·.openLoop passes)).aside still).entered (run.openLoop_moves passes)
  | closeLoop =>
    obtain ⟨rfl, still⟩ := done
    exact ((going.onRun Run.closeLoop).aside still).entered run.closeLoop_moves
  | settle =>
    exact Settled.turn done going fun _ _ ongoing =>
      .of_ongoing rfl rfl rfl rfl rfl ongoing (fun _ => Nat.succ_pos _) Run.Paced.loops
  | tempo bpm =>
    obtain ⟨rfl, still⟩ := done
    exact ((going.setBpm bpm).aside still).entered (kept rfl)

theorem step_turn {id : Nat} {run : Run α} {p : Performance α} (time : α)
    (found : p.runs[id]? = some run) (running : run.status = .running) :
    Turn id run (run.placeAfter p.session (.step id)) p (exec (step time id) p) := by
  rw [exec_step found, Run.placeAfter]
  cases next : run.next? p.session with
  | none =>
    exact .ends _ (.refl found) (.refl (by simp [Run.isLive, running])) (.inl rfl) (by simp) (fun _ _ => next)
      (by simp)
  | some line =>
    dsimp only
    cases parsed : Command.parse? line with
    | none =>
      have here : run.read line = run.advance := by simp [Run.read, bracketOf, parsed]
      have ongoing : run.status.isOngoing = true := by rw [running]; rfl
      rw [here]
      exact .goes ((Going.refl found).onRun Run.advance) (run.advance_moves ongoing) (.inl rfl)
    | some c =>
      rw [run.read_command parsed]
      exact dispatch_turn found running (dispatch_done ..) fun names count plays faulty short =>
        ⟨faulty, line, c, names, next, parsed, plays, short⟩

theorem wake_turn {id : Nat} {run : Run α} {p : Performance α} (time : α) {w : Wake}
    (found : p.runs[id]? = some run) (woken : p.wakes id run.status w = true) :
    Turn id run run p (exec (wake time id w) p) := by
  have going := Going.refl found
  have cancelled (suspended : run.isSuspended = true) (live : run.isLive = true) (begun : run.status ≠ .created) :
      Turn id run run p (exec (wake time id .cancel) p) := by
    rw [exec_wake_cancel found time begun]
    exact .ends _ going (.refl live) (.inl rfl) (fun _ => suspended) (by simp) (by simp)
  have resumed (suspended : run.isSuspended = true) (position : α) :
      run.Moves run { run with position := position, status := .running } := .of_resumed suspended position rfl
  -- Which wakes there are depends on the status, so that is split first.
  cases status : run.status with
  | running => cases w <;> simp [wakes, status] at woken
  | ended outcome => cases w <;> simp [wakes, status] at woken
  | created =>
    cases w with
    | go =>
      rw [exec_wake_created found time status]
      refine .goes (going.onRun (·.withStatus .running)) ⟨rfl, rfl, rfl, rfl, rfl, rfl, fun paced => ?_⟩ (.inl rfl)
      exact ⟨by simp [Run.withStatus], by simp [Run.withStatus, Run.isSuspended], paced.loops⟩
    | cancel =>
      rw [exec_wake_unborn found time status]
      exact .vanishes status (by simpa [wakes, status] using woken) rfl
    | _ => simp [wakes, status] at woken
  | waiting seconds beats =>
    have suspended : run.isSuspended = true := by simp [Run.isSuspended, status]
    cases w with
    | go =>
      exact .goes (((going.setClock _).onRun _).aside (exec_wake_waiting found time status))
        (resumed suspended _) (.inl rfl)
    | cancel => exact cancelled suspended (by simp [Run.isLive, status]) (by simp [status])
    | _ => simp [wakes, status] at woken
  | settling deadline =>
    have suspended : run.isSuspended = true := by simp [Run.isSuspended, status]
    cases w with
    | go =>
      obtain ⟨outcome, q, settled, entered⟩ := exec_wake_settling found time status
      rw [entered]
      exact settled.turn going fun _ position ongoing => .of_resumed suspended position ongoing
    | timeout =>
      exact .goes ((going.onRun _).aside (exec_wake_timeout found time status))
        (resumed suspended run.position) (.inl rfl)
    | cancel => exact cancelled suspended (by simp [Run.isLive, status]) (by simp [status])
    | _ => simp [wakes, status] at woken
  | playing children =>
    have suspended : run.isSuspended = true := by simp [Run.isSuspended, status]
    have live : run.isLive = true := by simp [Run.isLive, status]
    cases w with
    | go =>
      rw [exec_wake_playing found time status]
      exact .goes (going.onRun _) (resumed suspended _) (.inl rfl)
    | fail f =>
      rw [exec_wake_fail found time status]
      obtain ⟨child, -, failed⟩ := List.any_eq_true.mp (by simpa only [wakes, status] using woken)
      refine .ends _ going (.refl live) (.inl rfl) (by simp) (by simp) ?_
      rintro _ ⟨⟩
      exact .inr ⟨child, failed⟩
    | cancel => exact cancelled suspended live (by simp [status])
    | _ => simp [wakes, status] at woken

/-- Every act that is a run's turn is a turn of one of the three kinds. -/
theorem take_turn {id : Nat} {p : Performance α} {m : Moment α} (turn : m.act.actor? = some id)
    (ready : p.enabled m.act = true) : ∃ run, p.runs[id]? = some run ∧ run.isLive = true ∧
      Turn id run (run.placeAfter p.session m.act) p (p.take m) := by
  obtain ⟨run, found, prompt⟩ := exists_prompt turn ready
  cases prompt with
  | step time running => exact ⟨run, found, by simp [Run.isLive, running], step_turn time found running⟩
  | wake time w woken =>
    refine ⟨run, found, ?_, wake_turn time found woken⟩
    cases status : run.status with
    | ended outcome => cases w <;> simp [wakes, status] at woken
    | _ => simp [Run.isLive, status]

/-- Whether an act that ends everything at once does so to the end. -/
def unbroken (p : Performance α) (m : Moment α) : Bool := match m.act with
  | .forceStop => (runFrom forceStop p).1.isOk
  | .replay => !p.session.playing || (runFrom forceStop p).1.isOk
  | _ => true

/-- A property that whatever comes from outside keeps, so long as nothing is broken
off. -/
structure Stable (I : Performance α → Prop) : Prop where
  aside : ∀ {p q : Performance α} {sounds : List (Event α)}, I p → p.Aside sounds q → I q
  addRun : ∀ {p : Performance α} (position : α) {name : String} {lines : List String}, I p →
    p.blocks.lines? name = some lines → I (p.addRun position (name, lines))
  opened : ∀ {p : Performance α} (time : α), I p → I (p.opened time)
  stopped : ∀ {p : Performance α}, I p → I p.stopped
  cleared : ∀ {p : Performance α}, I p → I p.cleared

namespace Stable

variable {I : Performance α → Prop} {p : Performance α}

theorem spawn (stable : Stable I) (holds : I p) (name : String) (position : α) :
    I (runFrom (spawn name position) p).2 := by
  rcases spawn_cases p name position with still | ⟨lines, found, still⟩
  · exact stable.aside holds still
  · exact stable.aside (stable.addRun position holds found) still

theorem begin (stable : Stable I) (holds : I p) (time : α) : I (runFrom (begin time) p).2 :=
  stable.spawn (stable.opened time holds) mainName 0

/-- What is broken off has asked the runs to end, and no more. -/
theorem forceStop (stable : Stable I) (holds : I p)
    (broken : (runFrom Performance.forceStop p).1.isOk = true ∨ I p.dismissed) :
    I (runFrom Performance.forceStop p).2 := by
  rcases forceStop_cases p with ⟨q, ran, still⟩ | ⟨f, q, ran, still⟩
  · rw [ran]
    exact stable.aside (stable.cleared holds) still
  · rw [ran] at broken ⊢
    rcases broken with done | dismissed
    · contradiction
    · exact stable.aside dismissed still

theorem replay (stable : Stable I) (holds : I p) (time : α)
    (broken : p.session.playing = true → (runFrom Performance.forceStop p).1.isOk = true ∨ I p.dismissed) :
    I (runFrom (replay time) p).2 := by
  rcases replay_cases p time with ⟨playing, -, same⟩ | ⟨r, s, cleared, still, outcome⟩
  · rw [same]
    exact stable.forceStop holds (broken playing)
  · have ready : I r := by
      split at cleared
      · rename_i playing
        have ended := stable.forceStop holds (broken playing)
        rwa [cleared] at ended
      · exact cleared ▸ holds
    rcases outcome with same | same
    · rw [same]
      exact stable.aside ready still
    · rw [same]
      exact stable.begin (stable.aside ready still) time

/-- What turns of runs and acts from outside keep, every act keeps. -/
theorem take (stable : Stable I) {m : Moment α} (holds : I p) (ready : p.enabled m.act = true)
    (turns : ∀ {id : Nat} {run place : Run α}, m.act.actor? = some id → p.runs[id]? = some run →
      run.isLive = true → Turn id run place p (p.take m) → I (p.take m))
    (broken : p.unbroken m = true ∨ I p.dismissed) : I (p.take m) := by
  have turned {id : Nat} (turn : m.act.actor? = some id) : I (p.take m) := by
    obtain ⟨run, found, live, turned⟩ := take_turn turn ready
    exact turns turn found live turned
  obtain ⟨time, act⟩ := m
  cases act with
  | step id => exact turned rfl
  | wake id w => exact turned rfl
  | spawn name position => exact stable.spawn holds name position
  | begin => exact stable.begin holds time
  | replay =>
    refine stable.replay holds time fun playing => ?_
    rcases broken with whole | dismissed
    · simp only [unbroken, playing, Bool.not_true, Bool.false_or] at whole
      exact .inl whole
    · exact .inr dismissed
  | stop => exact stable.aside (stable.stopped holds) (stop_aside p)
  | forceStop => exact stable.forceStop holds broken
  | normalize => exact stable.aside holds (normalizeVolumes_aside p).1

end Stable

end Performance

end Partita
