import Partita.Proofs.Performance.Balance
import Partita.Proofs.Performance.Obliging

/-! Who minds a run. Every run but the main one has finished, or an earlier one waits for it, or
an earlier one has come to grief. So once the main run has finished, all others have. -/
namespace Partita

open Score

variable {α : Type}

namespace Run

/-- Whether a run waits for another one, or has failed or been cancelled. -/
def minds (r : Run α) (i : Nat) : Bool := match r.status with
  | .playing children => children.contains i
  | .ended (.finished _) => false
  | .ended _ => true
  | _ => false

/-- A run that is live minds those it waits for. -/
theorem minds_of_live {r : Run α} {i : Nat} (live : r.isLive = true) (minds : r.minds i = true) :
    ∃ children, r.status = .playing children ∧ i ∈ children := by
  unfold Run.minds at minds
  split at minds
  · exact ⟨_, ‹_›, by simpa using minds⟩
  · cases minds
  · simp [isLive, *] at live
  · cases minds

end Run

namespace Performance

variable {p q : Performance α} {id : Nat} {run : Run α}

/-- Every run but the main one has finished or is minded by an earlier one. -/
def Tended (p : Performance α) : Prop := ∀ i < p.runs.size, i = 0 ∨ p.hasFinished i = true ∨
  ∃ (j : Nat) (r : Run α), j < i ∧ p.runs[j]? = some r ∧ r.minds i = true

theorem hasFinished_eq_true {i : Nat} : p.hasFinished i = true ↔
    ∃ (r : Run α) (position : α), p.runs[i]? = some r ∧ r.status = .ended (.finished position) := by
  unfold hasFinished outcome?
  cases p.runs[i]? with
  | none => simp
  | some r =>
    cases status : r.status with
    | ended outcome => cases outcome <;> simp [status]
    | _ => simp [status]

/-- Nobody outlasts a main run that has finished. -/
theorem Tended.finished (tended : p.Tended) (main : p.hasFinished 0 = true) (i : Nat) (inside : i < p.runs.size) :
    p.hasFinished i = true := by
  induction i using Nat.strongRecOn with
  | ind i ih =>
    rcases tended i inside with rfl | finished | ⟨j, r, earlier, there, minds⟩
    · exact main
    · exact finished
    · obtain ⟨s, position, same, ended⟩ := hasFinished_eq_true.mp (ih j earlier (by omega))
      obtain rfl := Option.some.inj (there.symm.trans same)
      simp [Run.minds, ended] at minds

theorem Tended.of_runs (tended : p.Tended) (runs : q.runs = p.runs) : q.Tended := by
  unfold Tended hasFinished outcome? at tended ⊢
  rwa [runs]

variable [Scalar α]

/-- A command to play comes to what playing does, since nothing is passed over. -/
theorem dispatch_play {time : α} {c : Command} {names : List String} (obliging : p.Obliging)
    (plays : c.deed p.session.bpm p.engine.hasSample run.name run.position = .play names) :
    runFrom (dispatch time id run c) p = runFrom (play run names) p := by
  have verb : c.verb = "play" := by
    unfold Command.deed at plays
    split at plays
    case h_4 verb => exact verb
    all_goals
      repeat' split at plays
      all_goals contradiction
  have performed : runFrom (perform time id run c) p = runFrom (play run names) p := by
    simp only [Command.deed, verb] at plays
    simp only [perform, runFrom_get_bind, verb]
    split at plays <;> simp_all
  have known : c.known = true := by simp [Command.known, verb, verbs]
  simp only [dispatch, known, Bool.not_true, Bool.false_eq_true, if_false]
  rw [runFrom_bind, runFrom_tryCatch, runFrom_bind, performed]
  rcases ran : runFrom (play run names) p with ⟨result, q⟩
  cases result with
  | ok status => rfl
  | error f =>
    obtain ⟨block, rfl⟩ := play_fails obliging ran
    rfl

omit [Scalar α] in
theorem addRuns_size (position : α) (p : Performance α) (blocks : List (String × List String)) :
    (p.addRuns position blocks).runs.size = p.runs.size + blocks.length := by
  obtain ⟨_, _, added, -⟩ := addRuns_eq position p blocks
  rw [added]
  simp

/-- A run whose play is broken off has failed. -/
theorem step_broken {time : α} {count : Nat} (obliging : p.Obliging) (found : p.runs[id]? = some run)
    (broken : p.BrokenOff run count) (size : (exec (step time id) p).runs.size = p.runs.size + count) :
    ∃ r f, (exec (step time id) p).runs[id]? = some r ∧ r.status = .ended (.failed f) := by
  obtain ⟨-, line, c, names, next, parsed, plays, short⟩ := broken
  obtain ⟨started, q, -, added, -, outcome⟩ := spawn_all names run.position (p.onRun id Run.advance)
  have grown : q.runs.size = p.runs.size + started.length := by
    rw [added.runs, addRuns_size]
    simp [onRun]
  have dispatched : runFrom (dispatch time id run.advance c) (p.onRun id Run.advance) =
      runFrom (play run names) (p.onRun id Run.advance) := dispatch_play obliging plays
  rw [exec_step found, next] at size ⊢
  simp only [parsed, dispatched] at size ⊢
  rcases outcome with ⟨f, failed, -⟩ | ⟨all, spawned⟩
  · have present := (Array.getElem?_eq_some_iff.mp found).1
    have there : q.runs[id]? = some q.runs[id] := Array.getElem?_eq_getElem (by omega)
    have ended : q.entered id (.error f) = q.closed id q.runs[id] (.failed f) := by simp only [entered, there]
    rw [play, runFrom_bind_error failed, ended]
    have inside : id < (q.closed id q.runs[id] (.failed f)).runs.size := by
      simp only [closed, onRun, counted, Array.size_modify]
      omega
    exact ⟨_, f, Array.getElem?_eq_getElem inside, closed_status (Array.getElem?_eq_getElem inside)⟩
  · rw [play, runFrom_bind_ok spawned] at size
    have cast : (p.onRun id Run.advance).blocks.cast names = p.blocks.cast names := rfl
    simp only [runFrom_pure, entered, onRun, Array.size_modify] at size
    rw [all, cast] at grown
    omega

theorem Settled.unplayed {time deadline : α} {outcome : Except Fault (Status α)}
    (settled : Settled time deadline id p outcome q) (children : List Nat) : outcome ≠ .ok (.playing children) := by
  unfold Settled at settled
  split at settled
  · simp [settled.1]
  · simp [settled.1]
  · split at settled <;> simp [settled.1]

theorem Settled.succeeds {time deadline : α} {outcome : Except Fault (Status α)}
    (settled : Settled time deadline id p outcome q) (found : p.runs[id]? = some run) :
    ∃ run', Succeeds id run' [] p.runs q.runs ∧ q.session.generation = p.session.generation ∧
      p.engine.Alike q.engine := by
  have still (aside : p.Aside [] q) : ∃ run', Succeeds id run' [] p.runs q.runs ∧
      q.session.generation = p.session.generation ∧ p.engine.Alike q.engine :=
    ⟨run, by rw [aside.runs]; exact .refl found, by rw [aside.session], aside.engine⟩
  unfold Settled at settled
  split at settled
  · exact still settled.2
  · exact still settled.2
  · split at settled
    · obtain ⟨-, aside⟩ := settled
      have runs := (Succeeds.refl found).modify fun r => { r with
        position := p.clock.settle time r.position [p.session.latestFinish] }
      exact ⟨_, by rw [aside.runs]; exact runs, by rw [aside.session]; rfl, aside.engine⟩
    · exact still settled.2

/-- A run that waits for others after it has read a line waits for those that it has started. -/
theorem step_waits {time : α} (found : p.runs[id]? = some run) (running : run.status = .running) {r : Run α}
    (there : (exec (step time id) p).runs[id]? = some r) {children : List Nat} (plays : r.status = .playing children) :
    children = List.range' p.runs.size ((exec (step time id) p).runs.size - p.runs.size) := by
  have lasts (ending : Outcome α) : r.status ≠ .ended ending := by simp [plays]
  rw [exec_step found] at there ⊢
  cases next : run.next? p.session with
  | none =>
    rw [next] at there
    exact absurd (closed_status there) (lasts _)
  | some line =>
    rw [next] at there
    cases parsed : Command.parse? line with
    | none =>
      simp only [parsed] at there
      have same : r = run.advance := by simpa [onRun, Array.getElem?_modify, found] using there.symm
      simp [same, Run.advance, running] at plays
    | some c =>
      simp only [parsed] at there ⊢
      obtain ⟨status, -⟩ := entered_status there lasts
      have done := dispatch_done time id run.advance c (p.onRun id Run.advance)
      rw [plays] at status
      cases deed : c.deed (p.onRun id Run.advance).session.bpm (p.onRun id Run.advance).engine.hasSample
          run.advance.name run.advance.position with
      | play names =>
        rw [deed] at done
        obtain ⟨started, -, added, -, ⟨-, -, running | ⟨f, failed⟩⟩ | ⟨-, outcome⟩⟩ := done
        · rw [running] at status
          cases status
        · rw [failed] at status
          cases status
        · have grown := congrArg Array.size added.runs
          rw [addRuns_size] at grown
          rw [outcome] at status ⊢
          split at status
          · cases status
          · cases status
            simp only [entered, onRun, Array.size_modify] at grown ⊢
            rw [grown, Nat.add_sub_cancel_left]
      | settle =>
        rw [deed] at done
        exact absurd status (Settled.unplayed done children)
      | adjust | sound =>
        rw [deed, status] at done
        cases Persists.eq_running done.1
      | _ =>
        rw [deed] at done
        have outcome := done.1
        rw [outcome] at status
        cases status

/-- What a turn makes of a performance: a run has become another one, and runs were started that
this one minds. -/
structure Taken (id : Nat) (run' : Run α) (started : List (Run α)) (p q : Performance α) : Prop where
  runs : Succeeds id run' started p.runs q.runs
  unborn : ∀ r ∈ started, r.status = .created
  waits : ∀ children, run'.status = .playing children → children = List.range' p.runs.size started.length
  minds : ∀ i, p.runs.size ≤ i → i < p.runs.size + started.length → run'.minds i = true
  generation : q.session.generation = p.session.generation
  engine : p.engine.Alike q.engine

omit [Scalar α] in
/-- A turn in which nothing is started. -/
theorem Taken.of_alone {run' : Run α} (runs : Succeeds id run' [] p.runs q.runs)
    (free : ∀ children, run'.status ≠ .playing children)
    (generation : q.session.generation = p.session.generation) (engine : p.engine.Alike q.engine) :
    Taken id run' [] p q :=
  ⟨runs, by simp, fun children plays => absurd plays (free children),
    fun i least most => by simp at most; omega, generation, engine⟩

theorem step_taken (time : α) (obliging : p.Obliging) (found : p.runs[id]? = some run)
    (running : run.status = .running) :
    ∃ run' started, Taken id run' started p (exec (step time id) p) := by
  have failing {count : Nat} (broken : p.BrokenOff run count)
      (size : (exec (step time id) p).runs.size = p.runs.size + count) := step_broken obliging found broken size
  have waiting {r : Run α} (there : (exec (step time id) p).runs[id]? = some r) {children : List Nat}
      (plays : r.status = .playing children) := step_waits found running there plays
  have turn := step_turn time found running
  generalize exec (step time id) p = q at turn failing waiting
  cases turn with
  | @goes q run' started going moves awaited =>
    refine ⟨run', started, going.runs, fun r member => (going.fresh r member).status, fun children plays => ?_,
      fun i least most => ?_, going.generation, going.engine⟩
    · rw [waiting going.runs.found plays, going.runs.size, Nat.add_sub_cancel_left]
    · rcases awaited with rfl | plays | broken
      · simp at most
        omega
      · simp [Run.minds, plays]
        omega
      · obtain ⟨r, f, there, ended⟩ := failing broken going.runs.size
        cases going.runs.found.symm.trans there
        have live := moves.live
        simp [Run.isLive, ended] at live
  | @ends q run' started outcome going moves broken begun spent failed =>
    refine ⟨run'.withStatus (.ended outcome), started, going.runs.modify (·.withStatus (.ended outcome)),
      fun r member => (going.fresh r member).status, fun children plays => by simp [Run.withStatus] at plays,
      fun i least most => ?_, (closed_generation ..).trans going.generation, going.engine⟩
    rcases broken with rfl | broken
    · simp at most
      omega
    · cases outcome with
      | finished position =>
        obtain ⟨-, line, -, -, next, -⟩ := broken
        rw [spent position rfl] at next
        cases next
      | failed f => rfl
      | cancelled => rfl
  | vanishes created => cases running.symm.trans created

/-- A run that is woken starts no others. If it waited for some, it goes on, or comes to grief. -/
theorem wake_taken (time : α) (w : Wake) (found : p.runs[id]? = some run) (idle : run.status ≠ .running) :
    ∃ run', Taken id run' [] p (exec (wake time id w) p) ∧
      ∀ children, run.status = .playing children → w = .go ∨ w = .timeout ∨ ∀ i, run'.minds i = true := by
  have woken := wake_woken found time w
  generalize exec (wake time id w) p = q at woken
  have same : Succeeds id run [] p.runs p.runs := .refl found
  cases woken with
  | vanishes created why =>
    refine ⟨_, .of_alone (same.modify (·.withStatus (.ended .cancelled))) (by simp [Run.withStatus]) rfl (.refl _), ?_⟩
    simp [created]
  | @closes outcome begun why =>
    refine ⟨_, .of_alone (same.modify (·.withStatus (.ended outcome))) (by simp [Run.withStatus])
      (closed_generation ..) (.refl _), fun children _ => .inr (.inr fun i => ?_)⟩
    rcases why with ⟨-, rfl⟩ | ⟨f, -, rfl⟩ <;> rfl
  | ignores spent =>
    rcases spent with running | ⟨outcome, ended⟩
    · exact absurd running idle
    · exact ⟨run, .of_alone same (by simp [ended]) rfl (.refl _), by simp [ended]⟩
  | @resumes q clock position still live heeds =>
    have runs : Succeeds id { run with position := position run, status := .running } [] p.runs q.runs := by
      rw [still.runs]
      exact same.modify fun r => { r with position := position r, status := .running }
    exact ⟨_, .of_alone runs (by simp) (by rw [still.session]; rfl) still.engine,
      fun children plays => (heeds children plays).imp_right .inl⟩
  | @settles q deadline outcome waits settled =>
    obtain ⟨status, rfl, -⟩ := settled.ongoing
    obtain ⟨run', runs, generation, engine⟩ := Settled.succeeds settled found
    have free (children : List Nat) : status ≠ .playing children := by simpa using Settled.unplayed settled children
    exact ⟨_, .of_alone (runs.modify (·.withStatus status)) free generation engine, by simp [waits]⟩

omit [Scalar α] in
theorem Taken.finished {run' : Run α} {started : List (Run α)} (taken : Taken id run' started p q)
    (found : p.runs[id]? = some run) (live : run.isLive = true) (i : Nat) (ended : p.hasFinished i = true) :
    q.hasFinished i = true := by
  obtain ⟨r, position, there, status⟩ := hasFinished_eq_true.mp ended
  refine hasFinished_eq_true.mpr ⟨r, position, taken.runs.other ?_ there, status⟩
  rintro rfl
  obtain rfl := Option.some.inj (found.symm.trans there)
  simp [Run.isLive, status] at live

omit [Scalar α] in
/-- Who is minded stays so over a turn, if a run only goes on from a play when all have finished
that it waited for. -/
theorem Tended.taken {run' : Run α} {started : List (Run α)} (tended : p.Tended) (taken : Taken id run' started p q)
    (found : p.runs[id]? = some run) (live : run.isLive = true)
    (joined : ∀ children, run.status = .playing children → children.all p.hasFinished = true ∨
      ∀ i, run'.minds i = true) : q.Tended := by
  have kept := taken.finished found live
  intro i inside
  rw [taken.runs.size] at inside
  by_cases old : i < p.runs.size
  · rcases tended i old with rfl | ended | ⟨j, r, earlier, there, minded⟩
    · exact .inl rfl
    · exact .inr (.inl (kept i ended))
    · by_cases own : j = id
      · subst own
        obtain rfl := Option.some.inj (found.symm.trans there)
        obtain ⟨children, plays, member⟩ := Run.minds_of_live live minded
        rcases joined children plays with finished | still
        · exact .inr (.inl (kept i (List.all_eq_true.mp finished i member)))
        · exact .inr (.inr ⟨j, run', earlier, taken.runs.found, still i⟩)
      · exact .inr (.inr ⟨j, r, earlier, taken.runs.other own there, minded⟩)
  · have present := taken.runs.present
    exact .inr (.inr ⟨id, run', by omega, taken.runs.found, taken.minds i (by omega) inside⟩)

end Performance

end Partita
