import Partita.Proofs.Performance.Accounting
import Partita.Proofs.Performance.Confluence
import Partita.Proofs.Performance.Course
import Partita.Proofs.Performance.Joining

/-! Who is live when a run takes its turn. So long as the engine carries out every call and
nobody is asked to end, a run that is live is waited for by an earlier one, up to the main
run. So the main run is alone whenever it reads a line, and every other run has company for
as long as it lives: to wait for the session is to wait for one's own ancestors. -/
namespace Partita

open Score

variable {α : Type}

namespace Session

variable [Scalar α] {s : Session α} {baseline : Int} {deadline now : α}

theorem verdict_settled (quiet : (s.active : Int) ≤ baseline) : s.verdict baseline deadline now = .settled := by
  simp [verdict, settled, Int.not_lt.mpr quiet]

theorem verdict_ne_settled (playing : s.playing = true) (busy : baseline < s.active) :
    s.verdict baseline deadline now ≠ .settled := by
  have restless : s.settled baseline = false := by simp [settled, playing, busy]
  unfold verdict
  rw [restless]
  simp only [Bool.false_eq_true, if_false]
  split <;> simp

theorem passed_of_expired (expired : s.verdict baseline deadline now = .expired) : deadline - now ≤ 0 := by
  unfold verdict at expired
  split at expired
  · contradiction
  · split at expired
    · assumption
    · contradiction

end Session

namespace Performance

/-- Every live run but the main one is waited for by an earlier run. -/
def Escorted (p : Performance α) : Prop :=
  ∀ (i : Nat) (r : Run α), p.runs[i]? = some r → r.isLive = true → i ≠ 0 →
    ∃ (j : Nat) (parent : Run α) (children : List Nat), j < i ∧
      p.runs[j]? = some parent ∧ parent.status = .playing children ∧ i ∈ children

/-- A performance that goes on, in which nobody is at fault or asked to end. -/
structure Undisturbed (p : Performance α) : Prop where
  unfailing : p.Unfailing
  asked : ∀ id, p.isAsked id = false
  uncancelled : ∀ id, p.wasCancelled id = false
  playing : p.session.playing = true
  current : ∀ (i : Nat) (r : Run α), p.runs[i]? = some r → r.generation = p.session.generation
  escorted : p.Escorted

/-- While the main run waits for nobody, no other run is live. -/
theorem Escorted.alone {p : Performance α} (escorted : p.Escorted) {main : Run α} (found : p.runs[0]? = some main)
    (free : ∀ children, main.status ≠ .playing children) (i : Nat) (r : Run α) (there : p.runs[i]? = some r)
    (other : i ≠ 0) : r.isLive = false := by
  induction i using Nat.strongRecOn generalizing r with
  | ind i ih =>
    by_contra alive
    obtain ⟨j, parent, children, earlier, above, playing, -⟩ := escorted i r there (by simpa using alive) other
    by_cases first : j = 0
    · subst first
      obtain rfl := Option.some.inj (found.symm.trans above)
      exact free children playing
    · have spent := ih j earlier parent above first
      simp [Run.isLive, playing] at spent

/-- While another run is live, so is the main run. -/
theorem Escorted.main {p : Performance α} (escorted : p.Escorted) {i : Nat} {r : Run α}
    (there : p.runs[i]? = some r) (live : r.isLive = true) : ∃ main, p.runs[0]? = some main ∧ main.isLive = true := by
  induction i using Nat.strongRecOn generalizing r with
  | ind i ih =>
    by_cases first : i = 0
    · subst first
      exact ⟨r, there, live⟩
    · obtain ⟨j, parent, children, earlier, above, playing, -⟩ := escorted i r there live first
      exact ih j earlier above (by simp [Run.isLive, playing])

theorem entered_uncancelled {q : Performance α} {id : Nat} {outcome : Except Fault (Status α)} [Scalar α]
    (ongoing : ∀ status, outcome = .ok status → status.isOngoing = true) :
    (q.entered id outcome).outcome? id ≠ some .cancelled := by
  cases outcome with
  | ok status =>
    have begun := ongoing status rfl
    simp only [entered, outcome?, onRun, Array.getElem?_modify, if_true]
    cases q.runs[id]? with
    | none => simp
    | some run => cases status <;> simp_all [Run.withStatus, Status.isOngoing]
  | error f =>
    cases found : q.runs[id]? with
    | none => simp [entered, found, outcome?]
    | some run => simp [entered, found, outcome?, closed, onRun, counted, Array.getElem?_modify, Run.withStatus]

theorem running_of_enabled {p : Performance α} {id : Nat} {run : Run α} (found : p.runs[id]? = some run)
    (ready : p.enabled (.step id) = true) : run.status = .running := by
  simp only [enabled, found] at ready
  split at ready
  · assumption
  · contradiction

section turn

variable [Scalar α] {p : Performance α} {id : Nat} {run : Run α} (found : p.runs[id]? = some run)
include found

theorem step_uncancelled (time : α) (running : run.status = .running) :
    (exec (step time id) p).outcome? id ≠ some .cancelled := by
  rw [exec_step found]
  split
  · simp [closed, onRun, counted, outcome?, Array.getElem?_modify, found, Run.withStatus]
  · split
    · simp [onRun, outcome?, Array.getElem?_modify, found, Run.advance, running]
    · exact entered_uncancelled fun _ => (dispatch_done ..).ongoing

theorem wake_uncancelled (time : α) {w : Wake} (fits : p.wakes id run.status w = true) (other : w ≠ .cancel) :
    (exec (wake time id w) p).outcome? id ≠ some .cancelled := by
  have woken := wake_woken found time w
  generalize exec (wake time id w) p = q at woken ⊢
  cases woken with
  | vanishes created why => exact absurd why other
  | closes begun why =>
    rcases why with ⟨asked, -⟩ | ⟨f, -, rfl⟩
    · exact absurd asked other
    · simp [closed, onRun, counted, outcome?, Array.getElem?_modify, found, Run.withStatus]
  | ignores spent =>
    rcases spent with running | ⟨outcome, ended⟩
    · cases w <;> simp [wakes, running] at fits
    · cases w <;> simp [wakes, ended] at fits
  | resumes clock position still =>
    rw [outcome?, still.runs]
    simp [onRun, Array.getElem?_modify, found]
  | settles waits settled =>
    refine entered_uncancelled fun status same => ?_
    obtain ⟨_, begun, ongoing⟩ := settled.ongoing
    cases begun.symm.trans same
    exact ongoing

end turn

variable [Scalar α] {p q : Performance α} {id : Nat} {run run' : Run α} {started : List (Run α)}

namespace Undisturbed

omit [Scalar α] in
/-- Nobody is cancelled who was not asked to end. -/
theorem uncancelling (calm : p.Undisturbed) {act : Act α} (ready : p.enabled act = true) : act ≠ .wake id .cancel := by
  rintro rfl
  simp only [enabled] at ready
  split at ready
  · rename_i r there
    cases status : r.status with
    | playing children =>
      simp only [wakes, status, calm.asked, Bool.false_or, List.any_eq_true] at ready
      obtain ⟨c, -, cancelled⟩ := ready
      rw [calm.uncancelled c] at cancelled
      contradiction
    | _ => simp [wakes, status, calm.asked] at ready
  · contradiction

omit [Scalar α] in
/-- A run goes on from a play only when all that it waits for have finished. -/
theorem joined (calm : p.Undisturbed) (found : p.runs[id]? = some run) {act : Act α} (turn : act.actor? = some id)
    (ready : p.enabled act = true) {children : List Nat} (playing : run.status = .playing children) :
    children.all p.hasFinished = true := by
  rcases Joins.woken found playing turn (calm.uncancelling ready) ready with all | ⟨c, -, f, failed⟩
  · exact all
  · rw [calm.unfailing.runs f c] at failed
    contradiction

omit [Scalar α] in
theorem escorted_turn (calm : p.Undisturbed) (found : p.runs[id]? = some run) (live : run.isLive = true)
    (joined : ∀ children, run.status = .playing children → children.all p.hasFinished = true)
    (runs : Succeeds id run' started p.runs q.runs)
    (awaited : started ≠ [] → run'.status = .playing (List.range' p.runs.size started.length)) : q.Escorted := by
  intro i r there alive other
  rcases runs.origin there with ⟨rfl, -⟩ | ⟨-, there⟩ | ⟨later, listed⟩
  · obtain ⟨j, parent, children, earlier, above, playing, member⟩ := calm.escorted i run found live other
    exact ⟨j, parent, children, earlier, runs.other (Nat.ne_of_lt earlier) above, playing, member⟩
  · obtain ⟨j, parent, children, earlier, above, playing, member⟩ := calm.escorted i r there alive other
    by_cases own : j = id
    · subst own
      obtain rfl := Option.some.inj (found.symm.trans above)
      have finished := List.all_eq_true.mp (joined children playing) i member
      rw [hasFinished, outcome?, there] at finished
      unfold Run.isLive at alive
      split at alive <;> simp_all
    · exact ⟨j, parent, children, earlier, runs.other own above, playing, member⟩
  · have bound := (List.getElem?_eq_some_iff.mp listed).1
    have some : started ≠ [] := List.ne_nil_of_length_pos (Nat.zero_lt_of_lt bound)
    have present := runs.present
    refine ⟨id, run', _, by omega, runs.found, awaited some, ?_⟩
    rw [List.mem_range'_1]
    omega

omit [Scalar α] in
/-- A turn after which nobody is cancelled leaves a performance undisturbed. -/
theorem of_succeeds (calm : p.Undisturbed) (found : p.runs[id]? = some run) (unfailing : q.Unfailing)
    (asked : ∀ j, q.isAsked j = p.isAsked j) (playing : q.session.playing = p.session.playing)
    (generation : q.session.generation = p.session.generation) (runs : Succeeds id run' started p.runs q.runs)
    (same : run'.generation = run.generation) (own : q.outcome? id ≠ some .cancelled)
    (fresh : ∀ r ∈ started, r.Fresh p.blocks p.session.generation) (escorted : q.Escorted) : q.Undisturbed where
  unfailing := unfailing
  asked j := by rw [asked, calm.asked]
  uncancelled j := by
    by_contra cancelled
    have ended : q.outcome? j = some .cancelled := by
      unfold wasCancelled at cancelled
      split at cancelled
      · assumption
      · simp at cancelled
    obtain ⟨r, there, spent⟩ := outcome?_eq_some.mp ended
    rcases runs.origin there with ⟨rfl, -⟩ | ⟨-, there⟩ | ⟨-, listed⟩
    · exact own ended
    · have before := calm.uncancelled j
      simp [wasCancelled, outcome?, there, spent] at before
    · rw [(fresh r (List.mem_of_getElem? listed)).status] at spent
      contradiction
  playing := by rw [playing, calm.playing]
  current i r there := by
    rw [generation]
    rcases runs.origin there with ⟨rfl, rfl⟩ | ⟨-, there⟩ | ⟨-, listed⟩
    · rw [same]
      exact calm.current i run found
    · exact calm.current i r there
    · exact (fresh r (List.mem_of_getElem? listed)).generation
  escorted := escorted

theorem take {m : Moment α} (calm : p.Undisturbed) (turn : m.act.actor?.isSome = true)
    (ready : p.enabled m.act = true) : (p.take m).Undisturbed := by
  obtain ⟨id, turn⟩ := Option.isSome_iff_exists.mp turn
  obtain ⟨run, found, live, turned⟩ := take_turn turn ready
  have unfailing := calm.unfailing.take ready
  have joined (children : List Nat) (playing : run.status = .playing children) : children.all p.hasFinished = true :=
    calm.joined found turn ready playing
  have whole {count : Nat} : ¬ p.BrokenOff run count := fun broken => broken.1 calm.unfailing.faultless
  have own : (p.take m).outcome? id ≠ some .cancelled := by
    obtain ⟨time, act⟩ := m
    cases act with
    | step j =>
      cases turn
      exact step_uncancelled found time (running_of_enabled found ready)
    | wake j w =>
      cases turn
      have other : Act.wake (α := α) id w ≠ .wake id .cancel := calm.uncancelling ready
      simp only [enabled, found] at ready
      exact wake_uncancelled found time ready fun same => other (by rw [same])
    | _ => cases turn
  generalize p.take m = q at turned unfailing own
  cases turned with
  | goes going moves awaited =>
    refine calm.of_succeeds found unfailing going.asked going.playing going.generation going.runs moves.generation
      own going.fresh (calm.escorted_turn found live joined going.runs fun some => ?_)
    rcases awaited with none | playing | broken
    · exact absurd none some
    · exact playing
    · exact absurd broken whole
  | @ends r run' started outcome going moves broken begun spent failed =>
    obtain rfl : started = [] := broken.resolve_right whole
    have runs := going.runs.modify (·.withStatus (.ended outcome))
    refine calm.of_succeeds found unfailing (fun j => (closed_isAsked ..).trans (going.asked j))
      ((closed_playing ..).trans going.playing) ((closed_generation ..).trans going.generation) runs moves.generation
      own (by simp) (calm.escorted_turn found live joined runs (by simp))
  | vanishes created asked same =>
    rw [calm.asked id] at asked
    contradiction

end Undisturbed

/-- Starting leaves a performance undisturbed. -/
theorem Fresh.undisturbed {p : Performance α} (fresh : p.Fresh) (faultless : p.engine.Faultless) (time : α) :
    (p.take ⟨time, .begin⟩).Undisturbed := by
  have unfailing : (p.take ⟨time, .begin⟩).Unfailing := (fresh.unfailing faultless).take rfl
  have outbox : p.outbox = #[] := by
    obtain ⟨_, _, _, _, rfl⟩ := fresh
    rfl
  have born {i : Nat} {r : Run α} (there : (p.take ⟨time, .begin⟩).runs[i]? = some r) := fresh.only time there
  have still := (begin_adds p time).2
  obtain ⟨changes, asks, added, asked⟩ := addRuns_eq 0 (p.opened time) (p.blocks.cast [mainName])
  rw [added] at still
  generalize p.take ⟨time, .begin⟩ = q at still unfailing born
  refine ⟨unfailing, fun id => ?_, fun id => ?_, ?_, fun i r there => ?_, fun i r there _ other => ?_⟩
  · rw [isAsked, still.outbox]
    refine (asked id).trans ?_
    simp [opened, outbox]
  · cases there : q.runs[id]? with
    | none => simp [wasCancelled, outcome?, there]
    | some r =>
      obtain ⟨-, block, -, rfl⟩ := born there
      simp [wasCancelled, outcome?, there, newRun]
  · rw [still.session]
    rfl
  · obtain ⟨-, block, -, rfl⟩ := born there
    rw [still.session]
    rfl
  · exact absurd (born there).1 other

theorem Execution.undisturbed {ms : List (Moment α)} (ran : Execution p ms) (calm : p.Undisturbed)
    (turns : ∀ m ∈ ms, m.act.actor?.isSome = true) : (p.after ms).Undisturbed := by
  induction ms generalizing p with
  | nil => exact calm
  | cons m rest ih =>
    obtain ⟨now, others⟩ := List.forall_mem_cons.mp turns
    exact ih ran.2 (calm.take now ran.1) others

section waiting

variable {place : Run α} {outcome : Except Fault (Status α)} {time deadline : α}

omit [Scalar α] in
theorem onRun_found (found : p.runs[id]? = some run) (f : Run α → Run α) :
    (p.onRun id f).runs[id]? = some (f run) := by
  simp [onRun, Array.getElem?_modify, found]

/-- Who asks while the session is not settled waits on or has waited long enough. -/
theorem Settled.lasts (settled : Settled time deadline id p outcome q) (found : p.runs[id]? = some place)
    (busy : p.session.verdict 1 deadline time ≠ .settled) :
    ∃ r, (q.entered id outcome).runs[id]? = some r ∧ r.position = place.position ∧
      (r.status = .settling deadline ∨ r.status = .running ∧ deadline - time ≤ 0) := by
  have entered (status : Status α) (still : p.Aside [] q) :
      (q.entered id (.ok status)).runs[id]? = some (place.withStatus status) :=
    onRun_found (still.runs ▸ found) _
  unfold Settled at settled
  split at settled
  · obtain ⟨rfl, still⟩ := settled
    exact ⟨_, entered _ still, rfl, .inl rfl⟩
  · rename_i expired
    obtain ⟨rfl, still⟩ := settled
    exact ⟨_, entered _ still, rfl, .inr ⟨rfl, Session.passed_of_expired expired⟩⟩
  · exact absurd ‹_› busy

/-- Who asks when the session is settled pauses for the grace at once. -/
theorem Settled.passes (settled : Settled time deadline id p outcome q) (found : p.runs[id]? = some place)
    (playing : p.session.playing = true) (quiet : p.session.verdict 1 deadline time = .settled) :
    ∃ r, (q.entered id outcome).runs[id]? = some r ∧ r.status = .waiting p.config.finishGrace none := by
  unfold Settled at settled
  rw [quiet, if_pos playing] at settled
  obtain ⟨rfl, still⟩ := settled
  have there := still.runs ▸ onRun_found found (fun r => { r with
    position := p.clock.settle time r.position [p.session.latestFinish] })
  exact ⟨_, onRun_found there _, rfl⟩

def deadline? (p : Performance α) (id : Nat) (m : Moment α) : Option α :=
  match p.runs[id]?.map Run.status with
  | some (.settling deadline) => some deadline
  | _ => match p.dispatched? id m.act with
    | some c => if c.verb = "waitforfinish" then some (m.time + p.config.finishTimeout) else none
    | none => none

omit [Scalar α] in
theorem dispatched?_eq_some {act : Act α} {c : Command} (dispatches : p.dispatched? id act = some c) :
    act = .step id ∧ ∃ run line, p.runs[id]? = some run ∧ run.next? p.session = some line ∧
      Command.parse? line = some c := by
  obtain ⟨line, read, parsed⟩ := Option.bind_eq_some_iff.mp dispatches
  cases act with
  | step j =>
    obtain ⟨rfl, read⟩ := Option.ite_none_right_eq_some.mp read
    obtain ⟨run, found, next⟩ := Option.bind_eq_some_iff.mp read
    exact ⟨rfl, run, line, found, next, parsed⟩
  | _ => cases read

/-- A command to wait for the session is carried out by asking whether it has settled. -/
theorem take_waitforfinish {m : Moment α} {c : Command} (dispatches : p.dispatched? id m.act = some c)
    (verb : c.verb = "waitforfinish") : ∃ run outcome q, p.runs[id]? = some run ∧
      Settled m.time (m.time + p.config.finishTimeout) id (p.onRun id Run.advance) outcome q ∧
      p.take m = q.entered id outcome := by
  obtain ⟨time, act⟩ := m
  obtain ⟨rfl, run, line, found, next, parsed⟩ := dispatched?_eq_some dispatches
  have deed : c.deed p.session.bpm p.engine.hasSample run.name run.position = .settle := by
    simp [Command.deed, verb]
  obtain ⟨outcome, q, settled, taken⟩ := exec_step_settle found time next parsed deed
  exact ⟨run, outcome, q, found, settled, taken⟩

/-- While the session is not settled, a run that waits for it can only wait on or run out of
time. -/
theorem take_lasts {m : Moment α} (found : p.runs[id]? = some run) (turn : m.act.actor? = some id)
    (ready : p.enabled m.act = true) (uncancelled : m.act ≠ .wake id .cancel)
    (busy : ∀ deadline now, p.session.verdict 1 deadline now ≠ .settled) (waits : p.deadline? id m = some deadline) :
    ∃ r, (p.take m).runs[id]? = some r ∧ r.position = run.position ∧
      (r.status = .settling deadline ∨
        r.status = .running ∧ (m.act = .wake id .timeout ∨ deadline - m.time ≤ 0)) := by
  have lasts {q r : Performance α} {place : Run α} {outcome : Except Fault (Status α)} (same : q.session = p.session)
      (there : q.runs[id]? = some place) (position : place.position = run.position)
      (settled : Settled m.time deadline id q outcome r) (taken : p.take m = r.entered id outcome) :
      ∃ s, (p.take m).runs[id]? = some s ∧ s.position = run.position ∧ (s.status = .settling deadline ∨
        s.status = .running ∧ (m.act = .wake id .timeout ∨ deadline - m.time ≤ 0)) := by
    obtain ⟨s, became, kept, status⟩ := settled.lasts there (by rw [same]; exact busy _ _)
    exact ⟨s, taken ▸ became, kept.trans position, status.imp_right (.imp_right .inr)⟩
  unfold deadline? at waits
  split at waits
  · rename_i settling
    simp only [found, Option.map_some, Option.some.injEq] at settling waits
    subst waits
    obtain ⟨time, act⟩ := m
    cases act with
    | step j =>
      cases turn
      simp [enabled, found, settling] at ready
    | wake j w =>
      cases turn
      cases w with
      | go =>
        obtain ⟨outcome, q, settled, entered⟩ := exec_wake_settling found time settling
        exact lasts rfl found rfl settled entered
      | timeout =>
        have still := exec_wake_timeout found time settling
        refine ⟨run.withStatus .running, ?_, rfl, .inr ⟨rfl, .inl rfl⟩⟩
        change (exec (wake time id .timeout) p).runs[id]? = _
        rw [still.runs]
        exact onRun_found found _
      | fail f => simp [enabled, found, settling, wakes] at ready
      | cancel => exact absurd rfl uncancelled
    | _ => cases turn
  · split at waits
    · rename_i dispatches
      split at waits
      · obtain rfl := Option.some.inj waits
        obtain ⟨r, outcome, q, there, settled, taken⟩ := take_waitforfinish dispatches ‹_›
        obtain rfl := Option.some.inj (found.symm.trans there)
        have same : (p.onRun id Run.advance).session = p.session := rfl
        exact lasts same (onRun_found found _) rfl settled taken
      · contradiction
    · contradiction

end waiting

/-- Whoever waits for the session waits for its own ancestors. When the main run dispatches a
command it is the only active run, so that a wait of its own is over at once. Beside every
other run at least one more is active for as long as it lives, so that its wait lasts until
its time is up. -/
theorem waiting_outlasts_all_but_ancestors {p : Performance α} {time : α} {ms : List (Moment α)} (fresh : p.Fresh)
    (faultless : p.engine.Faultless) (ran : Execution (p.take ⟨time, .begin⟩) ms)
    (turns : ∀ m ∈ ms, m.act.actor?.isSome = true) :
    let q := (p.take ⟨time, .begin⟩).after ms
    (∀ (m : Moment α) (c : Command), q.enabled m.act = true → q.dispatched? 0 m.act = some c →
      q.session.active = 1 ∧ (c.verb = "waitforfinish" →
        ∃ r, (q.take m).runs[0]? = some r ∧ r.status = .waiting q.config.finishGrace none)) ∧
      ∀ (i : Nat) (r : Run α), i ≠ 0 → q.runs[i]? = some r → r.isLive = true → 2 ≤ q.session.active ∧
        ∀ (m : Moment α) (deadline : α), m.act.actor? = some i → q.enabled m.act = true →
          q.deadline? i m = some deadline → ∃ s, (q.take m).runs[i]? = some s ∧ s.position = r.position ∧
            (s.status = .settling deadline ∨
              s.status = .running ∧ (m.act = .wake i .timeout ∨ deadline - m.time ≤ 0)) := by
  intro q
  have calm : q.Undisturbed := ran.undisturbed (fresh.undisturbed faultless time) turns
  have books : q.Accounted := ran.accounted (fresh.accounted.take rfl)
  refine ⟨fun m c ready dispatches => ?_, fun i r other there live => ?_⟩
  · obtain ⟨steps, main, line, found, -⟩ := dispatched?_eq_some dispatches
    have running : main.status = .running := running_of_enabled found (steps ▸ ready)
    have alone := calm.escorted.alone found (by simp [running])
    have one : q.session.active = 1 := by
      refine books.eq_one found (by simp [Run.isLive, running]) (calm.current 0 main found) fun j s there other => ?_
      have uncancelled := calm.uncancelled j
      simp only [Run.isCounted, alone j s there other, Bool.false_or]
      unfold Run.isStillborn
      split
      · simp_all [wasCancelled, outcome?]
      · rfl
    refine ⟨one, fun verb => ?_⟩
    obtain ⟨r, outcome, after, there, settled, taken⟩ := take_waitforfinish dispatches verb
    rw [taken]
    exact settled.passes (onRun_found there _) calm.playing (Session.verdict_settled (by simp [onRun, one]))
  · obtain ⟨main, found, alive⟩ := calm.escorted.main there live
    have two := books.two_le there found other live alive (calm.current i r there) (calm.current 0 main found)
    refine ⟨two, fun m deadline turn ready waits => ?_⟩
    refine take_lasts there turn ready (calm.uncancelling ready) (fun _ _ => ?_) waits
    exact Session.verdict_ne_settled calm.playing (by omega)

def patient : Performance ℚ :=
  initial [("main", ["play guest", "waitforfinish"]), ("guest", ["waitforfinish"])] default (.realtime none) {}

def untilGuest : List (Moment ℚ) := [⟨0, .wake 0 .go⟩, ⟨0, .step 0⟩, ⟨0, .wake 1 .go⟩]

def untilHost : List (Moment ℚ) :=
  untilGuest ++ [⟨0, .step 1⟩, ⟨300, .wake 1 .timeout⟩, ⟨300, .step 1⟩, ⟨300, .wake 0 .go⟩]

theorem waiting_outlasts_all_but_ancestors_patient :
    patient.Fresh ∧ patient.engine.Faultless ∧ Execution (patient.take ⟨0, .begin⟩) untilHost ∧
      (let q := (patient.take ⟨0, .begin⟩).after untilHost
       q.enabled (.step 0) = true ∧ q.dispatched? 0 (.step 0) = some ⟨"waitforfinish", [], "waitforfinish"⟩ ∧
          q.session.active = 1 ∧
          ∃ r, (q.take ⟨300, .step 0⟩).runs[0]? = some r ∧ r.status = .waiting q.config.finishGrace none) ∧
      let q := (patient.take ⟨0, .begin⟩).after untilGuest
      ∃ r, q.runs[1]? = some r ∧ r.isLive = true ∧ q.enabled (.step 1) = true ∧
        q.deadline? 1 ⟨0, .step 1⟩ = some q.config.finishTimeout ∧ 2 ≤ q.session.active ∧
        ∃ s, (q.take ⟨0, .step 1⟩).runs[1]? = some s ∧ s.position = r.position ∧
          (s.status = .settling q.config.finishTimeout ∨ s.status = .running ∧
            (Act.step (α := ℚ) 1 = .wake 1 .timeout ∨ q.config.finishTimeout - 0 ≤ 0)) := by
  have fresh : patient.Fresh := ⟨_, _, _, _, rfl⟩
  have faultless : patient.engine.Faultless := .of_settings rfl rfl rfl
  have ran : Execution (patient.take ⟨0, .begin⟩) untilHost := by decide +kernel
  have begun : Execution (patient.take ⟨0, .begin⟩) untilGuest := by decide +kernel
  have host := (waiting_outlasts_all_but_ancestors fresh faultless ran (by decide +kernel)).1
  have guest := (waiting_outlasts_all_but_ancestors fresh faultless begun (by decide +kernel)).2
  refine ⟨fresh, faultless, ran, ?_, ?_⟩
  · have ready : ((patient.take ⟨0, .begin⟩).after untilHost).enabled (.step 0) = true := by decide +kernel
    have dispatches : ((patient.take ⟨0, .begin⟩).after untilHost).dispatched? 0 (.step 0) =
        some ⟨"waitforfinish", [], "waitforfinish"⟩ := by decide +kernel
    obtain ⟨one, passes⟩ := host ⟨300, .step 0⟩ _ ready dispatches
    exact ⟨ready, dispatches, one, passes rfl⟩
  · have live : (((patient.take ⟨0, .begin⟩).after untilGuest).runs[1]?.map Run.isLive) = some true := by
      decide +kernel
    obtain ⟨r, there, live⟩ := Option.map_eq_some_iff.mp live
    have ready : ((patient.take ⟨0, .begin⟩).after untilGuest).enabled (.step 1) = true := by decide +kernel
    have waits : ((patient.take ⟨0, .begin⟩).after untilGuest).deadline? 1 ⟨0, .step 1⟩ =
        some ((patient.take ⟨0, .begin⟩).after untilGuest).config.finishTimeout := by decide +kernel
    obtain ⟨two, lasts⟩ := guest 1 r (by decide) there live
    exact ⟨r, there, live, ready, waits, two, lasts ⟨0, .step 1⟩ _ rfl ready waits⟩

end Performance

end Partita
