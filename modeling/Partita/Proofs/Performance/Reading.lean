import Partita.Proofs.Performance.Exact
import Partita.Proofs.Performance.Turn

/-! The lines that a run reads in an execution. Whatever else happens, a run only
moves when it reads a line, and then to where the line takes it; so the lines it
reads are those of the unrolled block, in their order. -/
namespace Partita

open Score

variable {α : Type}

/-- Runs of one block that have come to one place in it. -/
structure Run.SamePlace (r s : Run α) : Prop where
  name : s.name = r.name
  lines : s.lines = r.lines
  generation : s.generation = r.generation
  cursor : s.cursor = r.cursor
  loops : s.loops = r.loops

theorem Run.SamePlace.refl (r : Run α) : r.SamePlace r := ⟨rfl, rfl, rfl, rfl, rfl⟩

theorem Run.SamePlace.ahead {β : Type} {r s : Run α} (same : r.SamePlace s) (emit : String → List β) :
    s.ahead emit = r.ahead emit := by
  simp only [Run.ahead, same.lines, same.cursor, same.loops]

theorem Run.SamePlace.aligned {β : Type} {r s : Run α} (same : r.SamePlace s) {emit : String → List β}
    (aligned : r.Aligned emit) : s.Aligned emit := by
  simpa only [Run.Aligned, same.lines, same.cursor, same.loops] using aligned

namespace Performance

/-- Where an act leaves a run, whoever acts. -/
def placed (p : Performance α) (id : Nat) (act : Act α) (run : Run α) : Run α :=
  match p.read? id act with
  | some line => run.read line
  | none => run

theorem placeAfter_eq_placed {p : Performance α} {act : Act α} {id : Nat} {run : Run α}
    (found : p.runs[id]? = some run) (own : act.actor? = some id) :
    run.placeAfter p.session act = p.placed id act run := by
  cases act with
  | step j =>
    cases own
    cases next : run.next? p.session <;> simp [Run.placeAfter, placed, read?, found, next]
  | wake j w => rfl
  | _ => cases own

theorem placed_block (p : Performance α) (id : Nat) (act : Act α) (run : Run α) :
    (p.placed id act run).name = run.name ∧ (p.placed id act run).lines = run.lines ∧
      (p.placed id act run).generation = run.generation := by
  unfold placed
  split
  · exact ⟨run.read_name _, run.read_lines _, run.read_generation _⟩
  · exact ⟨rfl, rfl, rfl⟩

theorem read?_other {p : Performance α} {act : Act α} {id : Nat} (other : act.actor? ≠ some id) :
    p.read? id act = none := by
  cases act with
  | step j =>
    have different : j ≠ id := fun same => other (congrArg some same)
    simp [read?, different]
  | _ => rfl

theorem next?_of_read? {p : Performance α} {act : Act α} {id : Nat} {run : Run α} {line : String}
    (found : p.runs[id]? = some run) (read : p.read? id act = some line) :
    run.next? p.session = some line := by
  cases act with
  | step j =>
    simp only [read?, found, Option.bind_some] at read
    split at read
    · exact read
    · contradiction
  | _ => contradiction

/-- What is ahead of a run shrinks by the line that it reads. -/
theorem placed_ahead {β : Type} {emit : String → List β} {p : Performance α} {id : Nat} {run : Run α}
    (act : Act α) (found : p.runs[id]? = some run) (aligned : run.Aligned emit) :
    run.ahead emit = (p.read? id act).toList.flatMap emit ++ (p.placed id act run).ahead emit ∧
      (p.placed id act run).Aligned emit := by
  unfold placed
  cases read : p.read? id act with
  | none => exact ⟨rfl, aligned⟩
  | some line =>
    simpa using Run.ahead_read (Run.getElem?_of_next? (next?_of_read? found read)) aligned

variable [Scalar α]

def reads (p : Performance α) (id : Nat) : List (Moment α) → List String
  | [] => []
  | m :: rest => (p.read? id m.act).toList ++ (p.take m).reads id rest

def dispatches (p : Performance α) (id : Nat) : List (Moment α) → List Command
  | [] => []
  | m :: rest => (p.dispatched? id m.act).toList ++ (p.take m).dispatches id rest

theorem dispatches_eq_reads (p : Performance α) (id : Nat) (ms : List (Moment α)) :
    p.dispatches id ms = (p.reads id ms).filterMap Command.parse? := by
  induction ms generalizing p with
  | nil => rfl
  | cons m rest ih =>
    rw [dispatches, reads, List.filterMap_append, ih, dispatched?]
    cases p.read? id m.act with
    | none => rfl
    | some line => cases parsed : Command.parse? line <;> simp [parsed]

theorem Turn.other {id j : Nat} {run place r : Run α} {p q : Performance α} (turn : Turn j run place p q)
    (different : id ≠ j) (found : p.runs[id]? = some r) : q.runs[id]? = some r := by
  have unmoved {s : Performance α} (there : s.runs[id]? = some r) (f : Run α → Run α) :
      (s.runs.modify j f)[id]? = some r := by
    rw [Array.getElem?_modify, if_neg different.symm, there]
  cases turn with
  | goes going _ _ => exact going.runs.other different found
  | ends outcome going _ _ _ _ _ => exact unmoved (going.runs.other different found) _
  | vanishes _ _ _ => exact unmoved found _

/-- A turn takes a run to its place, and ends it in the ordinary way only if there
is nothing for it to read. -/
theorem Turn.own {id : Nat} {run place : Run α} {p q : Performance α} (turn : Turn id run place p q)
    (found : p.runs[id]? = some run) :
    ∃ s, q.runs[id]? = some s ∧ s.name = run.name ∧ s.lines = run.lines ∧
      s.generation = run.generation ∧ s.cursor = place.cursor ∧ s.loops = place.loops ∧
      ∀ position, s.status = .ended (.finished position) → run.next? p.session = none := by
  have modified {s : Performance α} {r : Run α} (there : s.runs[id]? = some r) (f : Run α → Run α) :
      (s.runs.modify id f)[id]? = some (f r) := by
    rw [Array.getElem?_modify, if_pos rfl, there]
    rfl
  cases turn with
  | goes going moves _ =>
    refine ⟨_, going.runs.found, moves.name, moves.lines, moves.generation, moves.cursor, moves.loops, ?_⟩
    intro position ended
    have live := moves.live
    simp [Run.isLive, ended] at live
  | ends outcome going moves _ _ spent _ =>
    refine ⟨_, modified going.runs.found _, moves.name, moves.lines, moves.generation, moves.cursor, moves.loops, ?_⟩
    rintro position ⟨⟩
    exact spent position rfl
  | vanishes _ _ same =>
    subst same
    exact ⟨_, modified found _, rfl, rfl, rfl, rfl, rfl, by simp [Run.withStatus]⟩

theorem found_stable (id : Nat) (run : Run α) : Stable fun p => p.runs[id]? = some run where
  aside found still := by rwa [still.runs]
  addRun := by
    intro p position name lines found _
    have present := (Array.getElem?_eq_some_iff.mp found).1
    simpa [addRun, Array.getElem?_push, Nat.ne_of_lt present] using found
  opened _ found := found
  stopped found := found
  cleared found := found

/-- A run changes only in its own turns. -/
theorem take_other {p : Performance α} {m : Moment α} {id : Nat} {run : Run α} (found : p.runs[id]? = some run)
    (ready : p.enabled m.act = true) (other : m.act.actor? ≠ some id) : (p.take m).runs[id]? = some run :=
  (found_stable id run).take found ready
    (fun turn _ _ turned => turned.other (fun same => other (same ▸ turn)) found) (.inr found)

/-- Whoever acts, a run is afterwards where the line that it has read takes it. -/
theorem take_placed {p : Performance α} {m : Moment α} {id : Nat} {run : Run α}
    (found : p.runs[id]? = some run) (ready : p.enabled m.act = true) :
    ∃ s, (p.take m).runs[id]? = some s ∧ (p.placed id m.act run).SamePlace s ∧
      (s = run ∨ run.isLive = true ∧
        ∀ position, s.status = .ended (.finished position) → run.next? p.session = none) := by
  by_cases own : m.act.actor? = some id
  · obtain ⟨r, there, live, turn⟩ := take_turn own ready
    obtain rfl := Option.some.inj (found.symm.trans there)
    obtain ⟨s, after, name, lines, generation, cursor, loops, spent⟩ := turn.own found
    rw [placeAfter_eq_placed found own] at cursor loops
    obtain ⟨name', lines', generation'⟩ := p.placed_block id m.act run
    refine ⟨s, after, ⟨?_, ?_, ?_, cursor, loops⟩, .inr ⟨live, spent⟩⟩
    · rw [name, name']
    · rw [lines, lines']
    · rw [generation, generation']
  · have unread := read?_other (p := p) own
    refine ⟨run, take_other found ready own, ?_, .inl rfl⟩
    rw [placed, unread]
    exact .refl run

/-- The lines that a run has read and what is ahead of it make up what was ahead. -/
theorem Execution.reads {β : Type} {emit : String → List β} {p : Performance α} {ms : List (Moment α)}
    {id : Nat} {run : Run α} (ran : Execution p ms) (found : p.runs[id]? = some run)
    (aligned : run.Aligned emit) :
    ∃ s, (p.after ms).runs[id]? = some s ∧ s.generation = run.generation ∧ s.lines = run.lines ∧
      run.ahead emit = (p.reads id ms).flatMap emit ++ s.ahead emit := by
  induction ms generalizing p run with
  | nil => exact ⟨run, found, rfl, rfl, by simp [Performance.reads]⟩
  | cons m rest ih =>
    obtain ⟨s, after, same, _⟩ := take_placed found ran.1
    obtain ⟨-, lines, generation⟩ := p.placed_block id m.act run
    obtain ⟨moved, placed⟩ := placed_ahead m.act found aligned
    obtain ⟨t, ended, born, block, ahead⟩ := ih ran.2 after (same.aligned placed)
    refine ⟨t, ended, ?_, ?_, ?_⟩
    · rw [born, same.generation, generation]
    · rw [block, same.lines, lines]
    · rw [moved, ← same.ahead, ahead, Performance.reads]
      simp

/-- A run that ends in the ordinary way while the session goes on for it has nothing
ahead of it. -/
theorem Execution.finished {β : Type} {emit : String → List β} {p : Performance α} {ms : List (Moment α)}
    {id : Nat} {run s : Run α} {position : α} (ran : Execution p ms)
    (steady : Along (fun q _ => q.session.playing = true ∧ q.session.generation = run.generation) p ms)
    (found : p.runs[id]? = some run)
    (done : ∀ position, run.status = .ended (.finished position) → run.ahead emit = [])
    (there : (p.after ms).runs[id]? = some s) (ended : s.status = .ended (.finished position)) :
    s.ahead emit = [] := by
  induction ms generalizing p run with
  | nil =>
    obtain rfl := Option.some.inj (found.symm.trans there)
    exact done position ended
  | cons m rest ih =>
    obtain ⟨t, after, same, spent⟩ := take_placed found ran.1
    have born : t.generation = run.generation := by
      rw [same.generation, (p.placed_block id m.act run).2.2]
    refine ih ran.2 (by rw [born]; exact steady.2) after (fun position finished => ?_) there
    rcases spent with rfl | ⟨-, spent⟩
    · exact done position finished
    · have none := spent position finished
      have unread : p.read? id m.act = .none := by
        cases read : p.read? id m.act with
        | none => rfl
        | some line => simp [next?_of_read? found read] at none
      rw [same.ahead, placed, unread]
      apply Run.ahead_over
      simpa [Run.next?, steady.1.1, steady.1.2] using none

def steps (id : Nat) (ms : List (Moment α)) : Nat :=
  ms.countP fun m => match m.act with
    | .step j => j == id
    | _ => false

/-- How many steps a run has left at most: one for every line ahead of it, and one
to end. -/
def stepsLeft (run : Run α) : Nat :=
  (run.ahead fun line => [line]).length + (if run.isLive then 1 else 0)

theorem step_over {p : Performance α} {id : Nat} {run : Run α} (time : α) (found : p.runs[id]? = some run)
    (none : run.next? p.session = none) :
    ∃ s, (exec (step time id) p).runs[id]? = some s ∧ s.isLive = false := by
  rw [exec_step found, none]
  refine ⟨run.withStatus (.ended (.finished run.position)), ?_, rfl⟩
  simp [closed, onRun, counted, Array.getElem?_modify, found]

theorem take_stepsLeft {p : Performance α} {m : Moment α} {id : Nat} {run s : Run α}
    (ready : p.enabled m.act = true) (found : p.runs[id]? = some run)
    (aligned : run.Aligned fun line => [line]) (after : (p.take m).runs[id]? = some s) :
    steps id [m] + stepsLeft s ≤ stepsLeft run := by
  obtain ⟨t, there, same, moved⟩ := take_placed found ready
  obtain rfl := Option.some.inj (there.symm.trans after)
  have ahead := (placed_ahead m.act found aligned).1
  rw [← same.ahead] at ahead
  have length := congrArg List.length ahead
  have bound : (if t.isLive then 1 else 0) ≤ 1 := by split <;> omega
  obtain ⟨time, act⟩ := m
  by_cases step : act = .step id
  · subst step
    have one : steps id [(⟨time, .step id⟩ : Moment α)] = 1 := by simp [steps]
    have live : run.isLive = true := by
      obtain ⟨r, found', live, -⟩ := take_turn (m := ⟨time, .step id⟩) rfl ready
      rwa [Option.some.inj (found.symm.trans found')]
    simp only [read?, found, if_true, Option.bind_some] at length
    cases next : run.next? p.session with
    | none =>
      obtain ⟨s, ended, spent⟩ := step_over time found next
      obtain rfl := Option.some.inj (ended.symm.trans after)
      simp only [next, Option.toList_none, List.flatMap_nil, List.nil_append] at length
      simp only [stepsLeft, one, live, spent, if_true, Bool.false_eq_true, if_false]
      omega
    | some line =>
      simp only [next, Option.toList_some, List.flatMap_cons, List.flatMap_nil, List.append_nil,
        List.length_append, List.length_singleton] at length
      simp only [stepsLeft, one, live, if_true]
      omega
  · have none : steps id [(⟨time, act⟩ : Moment α)] = 0 := by
      cases act <;> simp_all [steps]
    have unread : p.read? id act = .none := by
      cases act <;> simp_all [read?]
    simp only [unread, Option.toList_none, List.flatMap_nil, List.nil_append] at length
    rcases moved with rfl | ⟨live, -⟩
    · omega
    · simp only [stepsLeft, live, if_true]
      omega

theorem Execution.steps {p : Performance α} {ms : List (Moment α)} {id : Nat} {run s : Run α}
    (ran : Execution p ms) (found : p.runs[id]? = some run) (aligned : run.Aligned fun line => [line])
    (after : (p.after ms).runs[id]? = some s) :
    Performance.steps id ms + stepsLeft s ≤ stepsLeft run := by
  induction ms generalizing p run with
  | nil =>
    obtain rfl := Option.some.inj (found.symm.trans after)
    simp [Performance.steps]
  | cons m rest ih =>
    obtain ⟨t, there, same, -⟩ := take_placed found ran.1
    have less := take_stepsLeft ran.1 found aligned there
    have more := ih ran.2 there (same.aligned (placed_ahead m.act found aligned).2) after
    have split : Performance.steps id ([m] ++ rest) = Performance.steps id [m] + Performance.steps id rest :=
      List.countP_append
    rw [List.singleton_append] at split
    omega

/-- The commands on lines, apart from those that open or close a loop. -/
theorem filter_filterMap_parse (lines : List String) :
    (lines.filterMap Command.parse?).filter Command.isPlain = lines.flatMap plain := by
  induction lines with
  | nil => rfl
  | cons line rest ih =>
    rw [List.flatMap_cons, ← ih, plain, List.filterMap_cons]
    cases Command.parse? line with
    | none => rfl
    | some c => cases kept : c.isPlain <;> simp [kept, Option.filter]

/-- A run executes its block as if the loops were unrolled. In every execution, from
when it was started, the commands that it dispatches are the unrolled ones up to some
point; it ends after a number of steps that its lines fix; and if it ends in the
ordinary way while the session goes on for it, it has dispatched them all. -/
theorem run_unrolls_its_loops {p : Performance α} {ms : List (Moment α)} {id generation : Nat}
    {position : α} {name : String} {lines : List String}
    (found : p.runs[id]? = some (newRun generation position (name, lines))) (ran : Execution p ms) :
    let played := (p.dispatches id ms).filter Command.isPlain
    let bound := (unrolled (fun line => [line]) lines).length + 1
    played <+: unroll lines ∧ Performance.steps id ms ≤ bound ∧
      (Performance.steps id ms = bound → ((p.after ms).outcome? id).isSome = true) ∧
      ((p.after ms).hasFinished id = true →
        Along (fun q _ => q.session.playing = true ∧ q.session.generation = generation) p ms →
        played = unroll lines) := by
  intro played bound
  obtain ⟨whole, aligned⟩ := newRun_ahead plain generation position name lines
  obtain ⟨s, there, -, -, ahead⟩ := ran.reads found aligned
  have dispatched : played = (p.reads id ms).flatMap plain := by
    simp only [played, dispatches_eq_reads, filter_filterMap_parse]
  rw [whole, ← dispatched] at ahead
  obtain ⟨lined, straight⟩ := newRun_ahead (fun line => [line]) generation position name lines
  have counted := ran.steps found straight there
  have left : stepsLeft (newRun generation position (name, lines)) = bound := by
    rw [stepsLeft, lined]
    rfl
  rw [left] at counted
  refine ⟨⟨_, ahead.symm⟩, by omega, fun all => ?_, fun ended steady => ?_⟩
  · have spent : s.isLive = false := by
      cases live : s.isLive with
      | false => rfl
      | true =>
        simp only [stepsLeft, live, if_true] at counted
        omega
    unfold Run.isLive at spent
    unfold outcome?
    split at spent <;> simp_all
  · obtain ⟨finish, status⟩ := finished_of_hasFinished there ended
    have none : s.ahead plain = [] :=
      ran.finished steady found (by simp [newRun]) there status
    rw [none, List.append_nil] at ahead
    exact ahead.symm

def knotted : List String :=
  ["loop 2", "// twice", "sample a", "loop 0", "sample b", "end", "end reverb", "end", "end", "", "loop 3x",
    "sample c"]

def knottedRun : Performance ℚ :=
  (initial [("main", knotted)] default (.virtual 0) { recorder := true }).take ⟨0, .begin⟩

def knottedSteps : List (Moment ℚ) := ⟨0, .wake 0 .go⟩ :: List.replicate 20 ⟨0, .step 0⟩

theorem run_unrolls_its_loops_knotted :
    Execution knottedRun knottedSteps ∧
      (knottedRun.dispatches 0 knottedSteps).filter Command.isPlain = unroll knotted := by
  have found : knottedRun.runs[0]? = some (newRun 0 0 ("main", knotted)) := rfl
  obtain ⟨ran, ended⟩ : Execution knottedRun knottedSteps ∧ (knottedRun.after knottedSteps).hasFinished 0 = true := by
    decide +kernel
  exact ⟨ran, (run_unrolls_its_loops found ran).2.2.2 ended (by decide +kernel)⟩

end Performance

end Partita
