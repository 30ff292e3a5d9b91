import Partita.Proofs.Performance.Exact
import Partita.Proofs.Performance.Turn

/-! What becomes of runs after a stop. Stopping clears the flag that lets runs read
on, and leaves them in their generation. A run that is stopped reads nothing until
the flag is set again, which a start or a replay does; if nothing was ended at once
in between, the run goes on where it was. -/
namespace Partita.Performance

open Score

variable {α : Type}

/-- A run of a generation is live and the session goes on for it. -/
def Resumes (id generation : Nat) (p : Performance α) : Prop :=
  ∃ run, p.runs[id]? = some run ∧ run.generation = generation ∧ run.isLive = true ∧
    p.session.playing = true ∧ p.session.generation = generation

/-- A run of a generation is there, and if it is live then the session does not go
on for it. -/
def Silent (id generation : Nat) (p : Performance α) : Prop :=
  ∃ run, p.runs[id]? = some run ∧ run.generation = generation ∧
    (run.isLive = true → p.session.playing = true → p.session.generation ≠ generation)

namespace Silent

variable {id generation : Nat} {p q : Performance α}

theorem transfer (silent : p.Silent id generation) (runs : p.runs[id]? = q.runs[id]?)
    (playing : q.session.playing = true → p.session.playing = true)
    (same : q.session.generation = p.session.generation) : q.Silent id generation := by
  obtain ⟨run, found, born, idle⟩ := silent
  exact ⟨run, runs ▸ found, born, fun live plays => same ▸ idle live (playing plays)⟩

theorem aside {sounds : List (Event α)} (silent : p.Silent id generation) (still : p.Aside sounds q) :
    q.Silent id generation :=
  silent.transfer (by rw [still.runs]) (fun plays => still.session ▸ plays) (by rw [still.session])

theorem addRun (silent : p.Silent id generation) (position : α) (block : String × List String) :
    (p.addRun position block).Silent id generation := by
  have kept : p.runs[id]? = (p.addRun position block).runs[id]? := by
    obtain ⟨run, found, -⟩ := silent
    have present := (Array.getElem?_eq_some_iff.mp found).1
    simp [Performance.addRun, Array.getElem?_push, Nat.ne_of_lt present]
  exact silent.transfer kept (fun plays => plays) rfl

theorem of_stopped (silent : p.Silent id generation) (runs : q.runs = p.runs)
    (stopped : q.session.playing = false) : q.Silent id generation := by
  obtain ⟨run, found, born, -⟩ := silent
  exact ⟨run, runs ▸ found, born, fun _ plays => by simp [stopped] at plays⟩

theorem of_going {j : Nat} {run place run' : Run α} {started : List (Run α)} (silent : p.Silent id generation)
    (going : Going j p q run' started) (moves : run.Moves place run') (found : p.runs[j]? = some run)
    (live : run.isLive = true) : q.Silent id generation := by
  by_cases own : id = j
  · subst j
    obtain ⟨_, there, born, idle⟩ := silent
    obtain rfl := Option.some.inj (there.symm.trans found)
    refine ⟨run', going.runs.found, moves.generation.trans born, fun _ plays => ?_⟩
    rw [going.generation]
    exact idle live (going.playing ▸ plays)
  · have kept : p.runs[id]? = q.runs[id]? := by
      obtain ⟨_, there, -⟩ := silent
      exact there.trans (going.runs.other own there).symm
    exact silent.transfer kept (fun plays => going.playing ▸ plays) going.generation

/-- The end of a run changes neither the flag nor the generation. -/
theorem of_ended {j : Nat} (silent : p.Silent id generation) (outcome : Outcome α)
    (runs : q.runs = p.runs.modify j (·.withStatus (.ended outcome)))
    (playing : q.session.playing = p.session.playing)
    (same : q.session.generation = p.session.generation) : q.Silent id generation := by
  obtain ⟨run, found, born, idle⟩ := silent
  by_cases own : j = id
  · refine ⟨run.withStatus (.ended outcome), ?_, born, fun live => by simp [Run.withStatus, Run.isLive] at live⟩
    rw [runs, Array.getElem?_modify, if_pos own, found]
    rfl
  · refine ⟨run, ?_, born, fun live plays => same ▸ idle live (playing ▸ plays)⟩
    rw [runs, Array.getElem?_modify, if_neg own, found]

variable [Scalar α]

theorem of_turn {j : Nat} {run place : Run α} (silent : p.Silent id generation) (turn : Turn j run place p q)
    (found : p.runs[j]? = some run) (live : run.isLive = true) : q.Silent id generation := by
  cases turn with
  | goes going moves _ => exact silent.of_going going moves found live
  | ends outcome going moves _ _ _ _ =>
    refine (silent.of_going going moves found live).of_ended outcome rfl ?_ (closed_generation ..)
    exact closed_playing ..
  | vanishes _ _ _ => exact silent.of_ended .cancelled rfl rfl rfl

/-- Only a start or a replay can end the silence of a run. -/
theorem take {m : Moment α} (silent : p.Silent id generation) (ready : p.enabled m.act = true)
    (other : m.act ≠ .begin ∧ m.act ≠ .replay) : (p.take m).Silent id generation := by
  have turned {j : Nat} (turn : m.act.actor? = some j) : (p.take m).Silent id generation := by
    obtain ⟨run, found, live, turn⟩ := take_turn turn ready
    exact silent.of_turn turn found live
  obtain ⟨time, act⟩ := m
  cases act with
  | step j => exact turned rfl
  | wake j w => exact turned rfl
  | begin => exact absurd rfl other.1
  | replay => exact absurd rfl other.2
  | spawn name position =>
    rcases spawn_cases p name position with still | ⟨lines, -, still⟩
    · exact silent.aside still
    · exact (silent.addRun position _).aside still
  | stop => exact (silent.of_stopped (q := p.stopped) rfl rfl).aside (stop_aside p)
  | forceStop =>
    change Silent _ _ (runFrom forceStop p).2
    rcases forceStop_cases p with ⟨q, ran, still⟩ | ⟨f, q, ran, still⟩
    · rw [ran]
      exact (silent.of_stopped (q := p.cleared) rfl rfl).aside still
    · rw [ran]
      exact (silent.transfer (q := p.dismissed) rfl (fun plays => plays) rfl).aside still
  | normalize => exact silent.aside (normalizeVolumes_aside p).1

end Silent

theorem Silent.read? {id generation : Nat} {p : Performance α} (silent : p.Silent id generation)
    {act : Act α} (ready : p.enabled act = true) : p.read? id act = none := by
  obtain ⟨run, found, rfl, idle⟩ := silent
  cases act with
  | step j =>
    simp only [Performance.read?]
    split
    · rename_i own
      subst own
      have live : run.isLive = true := by
        simp only [enabled, found] at ready
        unfold Run.isLive
        split
        · simp [*] at ready
        · rfl
      have unread : run.next? p.session = none := by
        simp only [Run.next?, Bool.and_eq_true, beq_iff_eq, ite_eq_right_iff, and_imp]
        exact fun plays same => absurd same.symm (idle live plays)
      simp [found, unread]
    · rfl
  | _ => rfl

def Present (id generation : Nat) (p : Performance α) : Prop :=
  p.runs[id]?.map Run.generation = some generation

variable [Scalar α]

theorem present_stable (id generation : Nat) : Stable (Present (α := α) id generation) where
  aside present still := by rwa [Present, still.runs]
  addRun := by
    intro p position name lines present _
    obtain ⟨run, found, -⟩ := Option.map_eq_some_iff.mp present
    have bound := (Array.getElem?_eq_some_iff.mp found).1
    simpa [Present, addRun, Array.getElem?_push, Nat.ne_of_lt bound] using present
  opened _ present := present
  stopped present := present
  cleared present := present

/-- A silent run stays silent up to a start or a replay that lets it go on. -/
theorem Silent.until_restart {id generation : Nat} {p : Performance α} {ms : List (Moment α)}
    (silent : p.Silent id generation) (ran : Execution p ms) :
    (p.after ms).Silent id generation ∨ ∃ xs m ys, ms = xs ++ m :: ys ∧
      (m.act = .begin ∨ m.act = .replay) ∧ (p.after (xs ++ [m])).Resumes id generation := by
  induction ms generalizing p with
  | nil => exact .inl silent
  | cons m rest ih =>
    by_cases quiet : (p.take m).Silent id generation
    · rcases ih quiet ran.2 with still | ⟨xs, r, ys, rfl, restart, resumed⟩
      · exact .inl still
      · exact .inr ⟨m :: xs, r, ys, rfl, restart, resumed⟩
    · have restart : m.act = .begin ∨ m.act = .replay := by
        by_contra other
        exact quiet (silent.take ran.1 (not_or.mp other))
      have there : (p.take m).Present id generation := by
        obtain ⟨run, found, born, -⟩ := silent
        have present : p.Present id generation := Option.map_eq_some_iff.mpr ⟨run, found, born⟩
        have stable := present_stable (α := α) id generation
        obtain ⟨time, act⟩ := m
        rcases restart with rfl | rfl
        · exact stable.begin present time
        · exact stable.replay present time fun _ => .inr present
      obtain ⟨run, found, born⟩ := Option.map_eq_some_iff.mp there
      refine .inr ⟨[], m, rest, rfl, restart, run, found, born, ?_⟩
      by_contra idle
      exact quiet ⟨run, found, born, fun live plays same => idle ⟨live, plays, same⟩⟩

/-- A run that is there when a performance is stopped dispatches no command after
that, unless a start or a replay lets it go on in its own generation. -/
theorem stopped_run_dispatches_only_after_restart {p : Performance α} {time : α} {id generation : Nat}
    {ms : List (Moment α)} {act : Act α} {c : Command} (there : p.Present id generation)
    (ran : Execution (p.take ⟨time, .stop⟩) ms)
    (ready : ((p.take ⟨time, .stop⟩).after ms).enabled act = true)
    (read : ((p.take ⟨time, .stop⟩).after ms).dispatched? id act = some c) :
    ∃ xs m ys, ms = xs ++ m :: ys ∧ (m.act = .begin ∨ m.act = .replay) ∧
      ((p.take ⟨time, .stop⟩).after (xs ++ [m])).Resumes id generation := by
  have silent : (p.take ⟨time, .stop⟩).Silent id generation := by
    obtain ⟨run, found, born⟩ := Option.map_eq_some_iff.mp there
    have stopped : p.stopped.Silent id generation :=
      ⟨run, found, born, fun _ plays => by simp [Performance.stopped, Session.stop, Session.notify] at plays⟩
    exact stopped.aside (stop_aside p)
  rcases silent.until_restart ran with still | restarted
  · rw [dispatched?, still.read? ready] at read
    contradiction
  · exact restarted

def pausing : Performance ℚ :=
  initial [("main", ["waitsec 1", "sample kick"])] default (.realtime none)
    { recorder := true, samples := [("kick", ⟨#[], #[]⟩)] }

def intoPause : List (Moment ℚ) := [⟨0, .begin⟩, ⟨0, .wake 0 .go⟩, ⟨0, .step 0⟩]

def restarted : List (Moment ℚ) := [⟨0, .begin⟩, ⟨1, .wake 0 .go⟩]

theorem stopped_run_dispatches_only_after_restart_pausing :
    Execution pausing (intoPause ++ ⟨0, .stop⟩ :: restarted) ∧
      ∃ xs m ys, restarted = xs ++ m :: ys ∧ (m.act = .begin ∨ m.act = .replay) ∧
        (((pausing.after intoPause).take ⟨0, .stop⟩).after (xs ++ [m])).Resumes 0 0 := by
  have there : (pausing.after intoPause).Present 0 0 := by unfold Present; decide +kernel
  have ran : Execution ((pausing.after intoPause).take ⟨0, .stop⟩) restarted := by decide +kernel
  have ready : (((pausing.after intoPause).take ⟨0, .stop⟩).after restarted).enabled (.step 0) = true := by
    decide +kernel
  have read : (((pausing.after intoPause).take ⟨0, .stop⟩).after restarted).dispatched? 0 (.step 0) =
      some ⟨"sample", ["kick"], "sample kick"⟩ := by decide +kernel
  exact ⟨by decide +kernel, stopped_run_dispatches_only_after_restart there ran ready read⟩

/-- A run that is stopped in its pause plays on after a new start. -/
theorem stopped_run_plays_on :
    Execution pausing (intoPause ++ ⟨0, .stop⟩ :: restarted ++ [⟨1, .step 0⟩]) ∧
      ((pausing.after intoPause).runs[0]?.map Run.isLive) = some true ∧
      (pausing.after (intoPause ++ ⟨0, .stop⟩ :: restarted)).dispatched? 0 (.step 0) =
        some ⟨"sample", ["kick"], "sample kick"⟩ := by
  decide +kernel

end Partita.Performance
