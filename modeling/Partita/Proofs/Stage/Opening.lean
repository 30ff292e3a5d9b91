import Partita.Proofs.Stage.Staffed

/-! How a performance is opened that was just put on the stage. Its part is staffed from the
beginning; the task that opens it waits for the main run, if there is a main block, and goes on
at once if there is none. -/
namespace Partita

open Score

variable {α : Type}

namespace Stage

variable {s t : Stage α} {part task : Nat} {x : Part α}

/-- A task waits for the main run of a part, or goes on when that has finished or come to grief. -/
def Expects (s : Stage α) (task : Nat) (x : Part α) : Prop :=
  (∃ c, x.cells[0]? = some c ∧ s.loop.awaits? task = some c) ∨
    ∃ r, s.loop.active = some (task, r) ∧ ∀ v, r = .value v → x.performance.hasFinished 0 = true

variable [Scalar α]

/-- A part that is new has no runs for anyone to see to. -/
theorem addPart_staffed (vacant : ∀ c i, .run s.parts.size i ∉ s.loop.frames c) {e : Engine α}
    (obliging : e.Obliging) (blocks : Blocks) (config : Config α) (clock : Clock α) :
    (({ s with engines := s.engines.push e } : Stage α).addPart (Performance.initial blocks config clock {})
      s.engines.size).2.Staffed (fun _ => False) s.parts.size
        ⟨Performance.initial blocks config clock {}, s.engines.size, #[]⟩ where
  found := by simp [addPart, Performance.initial]
  size := rfl
  own c i member := absurd member (vacant c i)
  attends i c r cell := by simp at cell
  tended i inside := absurd inside (Nat.not_lt_zero i)
  engine := ⟨e, by simp [addPart], obliging⟩
  generation := rfl

/-- A performance without runs begins with its main run, if there is a main block. -/
theorem opening_begins (time : α) {p : Performance α} (fresh : p.runs = #[]) :
    ∃ run q, runFrom (opening time false) p = (.ok (run, p.session.generation), q) ∧
      q.session.generation = p.session.generation ∧
      (run = none ∧ q.runs = #[] ∨ run = some 0 ∧ ∃ r : Run α, q.runs = #[r] ∧ r.status = .created) := by
  have opened {run : Option Nat} {q : Performance α} (ran : runFrom (Performance.begin time) p = (.ok run, q)) :
      runFrom (opening time false) p = (.ok (run, p.session.generation), q) := by
    simp only [opening, runFrom_get_bind, Bool.false_eq_true, if_false]
    rw [runFrom_bind_ok ran]
    rfl
  rcases p.begin_cases time with ⟨q, -, ran, still⟩ | ⟨lines, q, -, ran, still⟩
  · exact ⟨_, q, opened ran, by rw [still.session]; rfl, .inl ⟨rfl, still.runs.trans fresh⟩⟩
  · refine ⟨_, q, opened ran, by rw [still.session]; rfl,
      .inr ⟨by rw [fresh]; rfl, Performance.newRun p.session.generation 0 (mainName, lines), ?_, rfl⟩⟩
    rw [still.runs]
    simp only [Performance.addRun, Performance.opened, fresh]
    rfl

namespace Staffed

/-- A part without runs is opened, and has a task for its main run, unless there is none. -/
theorem opened (staffed : s.Staffed (fun _ => False) part x) (manned : s.Manned) (fresh : x.performance.runs = #[]) :
    ∃ y run t, s.onPart part (opening s.loop.time false) = (.ok (run, 0), t) ∧
      s.Passes (fun _ => False) (fun _ => True) t ∧ t.Staffed (fun _ => False) part y ∧
      (run = none ∧ y.performance.runs = #[] ∨ run = some 0 ∧ ∃ c, y.cells[0]? = some c) := by
  obtain ⟨run, q, ran, generation, outcome⟩ := opening_begins s.loop.time (p := s.mounted x) fresh
  have zero : (s.mounted x).session.generation = 0 := staffed.generation
  rw [zero] at ran generation
  have later : (s.mounted x).Continues (fun _ => True) q := by
    have continues := (opening_ongoing (F := fun _ => True) s.loop.time false (s.mounted x)).1
    rwa [ran] at continues
  have none (i : Nat) (r : Run α) : x.performance.runs[i]? ≠ some r := by simp [fresh]
  have unfinished (i : Nat) (ended : x.performance.hasFinished i = true) : q.hasFinished i = true := by
    obtain ⟨r, -, there, -⟩ := Performance.hasFinished_eq_true.mp ended
    exact absurd there (none i r)
  have unborn (i : Nat) (r : Run α) (there : q.runs[i]? = some r) : i = 0 ∧ r.status = .created := by
    rcases outcome with ⟨-, runs⟩ | ⟨-, r', runs, created⟩
    · simp [runs] at there
    · rw [runs, Array.getElem?_singleton] at there
      split at there
      · cases there
        exact ⟨‹_›, created⟩
      · cases there
  have others (i : Nat) (r : Run α) (there : x.performance.runs[i]? = some r) : False ∨ q.runs[i]? = some r :=
    absurd there (none i r)
  have tended : q.Tended := fun i inside => .inl (unborn i _ (Array.getElem?_eq_getElem inside)).1
  obtain ⟨y, operated, performance, -⟩ := staffed.operated manned (opening s.loop.time false) (by rw [ran]) later others
    unfinished (fun i r _ there => (unborn i r there).2) tended generation
  have runs : y.performance.runs = q.runs := by rw [performance]
  refine ⟨y, run, _, Prod.ext (by rw [onPart_eq staffed.found, ran]) rfl, onPart_passes manned (fun _ => trivial) _,
    operated, ?_⟩
  rcases outcome with ⟨begun, runless⟩ | ⟨begun, r, single, -⟩
  · exact .inl ⟨begun, runs.trans runless⟩
  · have inside : 0 < y.cells.size := by
      rw [operated.size, runs, single]
      exact Nat.zero_lt_one
    exact .inr ⟨begun, _, Array.getElem?_eq_getElem inside⟩

/-- A part without runs is opened inside a call: the task waits for the main run, or goes on. -/
theorem openMain (staffed : s.Staffed (fun _ => False) part x) (turns : s.Turns task)
    (fresh : x.performance.runs = #[]) (foreign : ∀ i, .run part i ∉ s.loop.frames task) {frame : Frame α}
    {frames : List (Frame α)} (apart : ∀ i, .run part i ∉ frame :: frames) :
    ∃ y u, s.openMain task (frame :: frames) part false = u ∧ u.Staffed (fun _ => False) part y ∧
      (u.loop.frames task = .main part 0 :: frame :: frames ∧ u.loop.result? task = none ∧ u.Expects task y ∨
        u.loop.frames task = frame :: frames ∧ y.performance.runs = #[] ∧ ∃ r, u.loop.active = some (task, r)) := by
  obtain ⟨y, run, t, opened, passes, later, outcome⟩ := staffed.opened turns.toManned fresh
  obtain ⟨signal, active⟩ := turns.active
  obtain ⟨kind, -, pending⟩ := turns.loop.active task signal active
  have active : t.loop.active = some (task, signal) := passes.still.trans active
  obtain ⟨result, calls, -⟩ := passes.loop.tasks task kind id
  have turns : t.Turns task := turns.after passes
  have foreign : ∀ i, .run part i ∉ t.loop.frames task := calls ▸ foreign
  rw [openMain_eq, opened]
  rcases outcome with ⟨rfl, runless⟩ | ⟨rfl, c, cell⟩
  · dsimp only
    have left : (t.onLoop (·.leave task (frame :: frames) (.value (.number 0)))).loop.frames task = frame :: frames :=
      Loop.leave_frames turns.loop active (frame :: frames) (.value (.number 0))
    exact ⟨y, _, rfl, later.elsewhere turns foreign (turns.leave _ _) (fun i member => apart i (left ▸ member)) rfl rfl,
      .inr ⟨left, runless, _, rfl⟩⟩
  · have there : t.parts[part]?.bind (·.cells[0]?) = some c := by
      rw [later.found]
      exact cell
    dsimp only
    rw [there]
    have waits : (t.onLoop (·.await task (.main part 0 :: frame :: frames) c)).loop.frames task =
        .main part 0 :: frame :: frames := Loop.await_frames turns.loop active (.main part 0 :: frame :: frames) c
    refine ⟨y, _, rfl, later.elsewhere turns foreign (turns.await _ _) (fun i member => ?_) rfl rfl,
      .inl ⟨waits, (Loop.result?_await ..).trans (result.trans pending), ?_⟩⟩
    · rcases List.mem_cons.mp (waits ▸ member) with main | outer
      · cases main
      · exact apart i outer
    · rcases Loop.await_hears turns.loop active (.main part 0 :: frame :: frames) c with open_ | ⟨r, goes, done⟩
      · exact .inl ⟨c, cell, open_⟩
      · exact .inr ⟨r, goes, fun v value => later.finished cell (value ▸ done)⟩

end Staffed

end Stage

end Partita
