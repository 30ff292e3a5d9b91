import Partita.Proofs.Performance.Tending
import Partita.Proofs.Stage.Cancellation
import Partita.Proofs.Stage.Manned

/-! A performance whose runs all have tasks that see to them. A task in a play goes on only when
those it waits for have come to their ends, or one of them to grief; so nobody outlasts a main run
that has finished. -/
namespace Partita

variable {α : Type}

def Frame.isPause : Frame α → Bool
  | .within .. | .ending .. | .sleeping .. => true
  | _ => false

/-- A later state of a part in which none of its runs has moved. -/
structure Part.Rests (x y : Part α) : Prop where
  cells : y.cells = x.cells
  engine : y.engine = x.engine
  runs : y.performance.runs = x.performance.runs
  generation : y.performance.session.generation = x.performance.session.generation

theorem Part.Rests.refl (x : Part α) : x.Rests x := ⟨rfl, rfl, rfl, rfl⟩

namespace Stage

/-- What a task in a play waits for, or goes on with: a group of tasks of its part, those of the
runs it plays among them, or the news that all of these have finished. -/
def Joins (s : Stage α) (x : Part α) (c : Nat) (children : List Nat) : Prop :=
  (∃ g members, s.loop.awaits? c = some g ∧ s.loop.kind? g = some (.group members) ∧
    (∀ i ∈ children, ∃ d ∈ members, x.cells[i]? = some d) ∧ ∀ d ∈ members, ∃ i : Nat, x.cells[i]? = some d) ∨
  ∃ r, s.loop.active = some (c, r) ∧ r ≠ .raised .timeout ∧
    ∀ v, r = .value v → children.all x.performance.hasFinished = true

/-- A task that sees to a run: it is in the call of the run, or pauses inside it, until the run has
ended. -/
structure Attends (s : Stage α) (k : Nat) (x : Part α) (i c : Nat) (r : Run α) : Prop where
  task : s.loop.kind? c = some .task
  value : ∀ v, s.loop.result? c = some (.value v) → ∃ position, r.status = .ended (.finished position)
  raised : s.loop.result? c ≠ some (.raised .timeout)
  spent : ∀ v, s.loop.result? c = some v → s.loop.frames c = []
  live : s.loop.result? c = none → r.isLive = true
  calls : s.loop.result? c = none → s.loop.frames c = [.run k i] ∨
    (∃ top, top.isPause = true ∧ s.loop.frames c = [top, .run k i]) ∧ ∀ children, r.status ≠ .playing children
  joins : s.loop.result? c = none → ∀ children, r.status = .playing children → s.Joins x c children

/-- A part of a stage that was never reset and whose runs all have tasks that see to them, but for
some, and which nobody outlasts. -/
structure Staffed (exempt : Nat → Prop) (s : Stage α) (k : Nat) (x : Part α) : Prop where
  found : s.parts[k]? = some x
  size : x.cells.size = x.performance.runs.size
  own : ∀ c i, .run k i ∈ s.loop.frames c → x.cells[i]? = some c
  attends : ∀ (i c : Nat) (r : Run α), x.cells[i]? = some c → x.performance.runs[i]? = some r → ¬ exempt i →
    s.Attends k x i c r
  tended : x.performance.Tended
  engine : ∃ e, s.engines[x.engine]? = some e ∧ e.Obliging
  generation : x.performance.session.generation = 0

variable {s t : Stage α} {k : Nat} {x y : Part α} {exempt : Nat → Prop} {moved : Nat → Prop}

theorem Attends.moves {P : List (Frame α) → Prop} {i c : Nat} {r : Run α} (attends : s.Attends k x i c r)
    (remains : s.loop.Remains moved P t.loop) (still : ¬ moved c)
    (active : ∀ v, s.loop.active = some (c, v) → t.loop.active = some (c, v))
    (cells : ∀ i c : Nat, x.cells[i]? = some c → y.cells[i]? = some c)
    (finished : ∀ i, x.performance.hasFinished i = true → y.performance.hasFinished i = true) :
    t.Attends k y i c r := by
  obtain ⟨result, frames, awaits⟩ := remains.tasks c attends.task still
  refine ⟨remains.kinds c _ attends.task, result ▸ attends.value, result ▸ attends.raised,
    by rw [result, frames]; exact attends.spent, result ▸ attends.live,
    by rw [result, frames]; exact attends.calls, fun open_ children plays => ?_⟩
  rcases attends.joins (result ▸ open_) children plays with
    ⟨g, members, waits, group, all, few⟩ | ⟨v, turn, timely, ended⟩
  · refine .inl ⟨g, members, awaits.trans waits, remains.kinds g _ group, fun i member => ?_, fun d member => ?_⟩
    · obtain ⟨d, inside, cell⟩ := all i member
      exact ⟨d, inside, cells i d cell⟩
    · obtain ⟨i, cell⟩ := few d member
      exact ⟨i, cells i d cell⟩
  · refine .inr ⟨v, active v turn, timely, fun w same => List.all_eq_true.mpr fun i member => ?_⟩
    exact finished i (List.all_eq_true.mp (ended w same) i member)

/-- A task that sees to a run is in no call of another one. -/
theorem Attends.only {i j c : Nat} {r : Run α} (attends : s.Attends k x i c r) (calls : .run k j ∈ s.loop.frames c) :
    j = i := by
  cases result : s.loop.result? c with
  | some v =>
    rw [attends.spent v result] at calls
    cases calls
  | none =>
    rcases attends.calls result with one | ⟨⟨top, pause, two⟩, -⟩
    · rw [one] at calls
      cases List.mem_singleton.mp calls
      rfl
    · rw [two] at calls
      rcases List.mem_cons.mp calls with rfl | calls
      · cases pause
      · cases List.mem_singleton.mp calls
        rfl

/-- A task that ends its turn in the call of its run, or pauses inside it, sees to the run. -/
theorem Attends.of_lands {Q : Nat → Prop} {task i : Nat} {r : Run α} {frames : List (Frame α)} (turns : s.Turns task)
    (lands : Lands Q s task frames t) (live : r.isLive = true)
    (calls : frames = [.run k i] ∨
      (∃ top, top.isPause = true ∧ frames = [top, .run k i]) ∧ ∀ children, r.status ≠ .playing children)
    (joins : ∀ children, r.status = .playing children → t.Joins x task children) : t.Attends k x i task r := by
  obtain ⟨_, active⟩ := turns.active
  have open_ := lands.result turns
  exact ⟨(lands.passes turns).loop.kinds _ _ (turns.loop.active task _ active).1,
    fun v done => (by cases open_.symm.trans done), fun done => (by cases open_.symm.trans done),
    fun v done => (by cases open_.symm.trans done), fun _ => live, fun _ => lands.calls turns ▸ calls, fun _ => joins⟩

/-- A task that leaves the call of its run has seen it end. -/
theorem Attends.of_leave {task i : Nat} {r : Run α} (turns : s.Turns task) {v : Reply (Value α)}
    (value : ∀ w, v = .value w → ∃ position, r.status = .ended (.finished position)) (timely : v ≠ .raised .timeout) :
    (s.onLoop (·.leave task [] v)).Attends k x i task r := by
  obtain ⟨_, active⟩ := turns.active
  have left : s.Passes (· = task) (fun _ => True) (s.onLoop (·.leave task [] v)) := turns.leave [] v
  have done : (s.onLoop (·.leave task [] v)).loop.result? task = some v := Loop.leave_result turns.loop active v
  have bare : (s.onLoop (·.leave task [] v)).loop.frames task = [] :=
    (Loop.leave_enters s.loop (P := fun _ => True) trivial task [] v).own.elim id (·.2)
  exact ⟨left.loop.kinds _ _ (turns.loop.active task _ active).1, fun w ended => value w (Option.some.inj (done.symm.trans ended)),
    fun late => timely (Option.some.inj (done.symm.trans late)), fun _ _ => bare,
    fun open_ => (by cases done.symm.trans open_), fun open_ => (by cases done.symm.trans open_),
    fun open_ => (by cases done.symm.trans open_)⟩

/-- A task whose run is to play others waits for all of their tasks. -/
theorem Attends.of_play {task i : Nat} {r : Run α} (turns : s.Turns task) {children : List Nat}
    (status : r.status = .playing children) (inside : ∀ j ∈ children, j < x.cells.size) :
    (s.onLoop fun l => (l.newGroup (children.filterMap (x.cells[·]?))).2.await task [.run k i]
      l.cells.size).Attends k x i task r := by
  obtain ⟨_, active⟩ := turns.active
  obtain ⟨passes, group⟩ : s.loop.Passes (fun _ => False) (Frame.RunsIn (· ≠ k)) _ ∧ _ :=
    Loop.newGroup_passes turns.loop (children.filterMap (x.cells[·]?))
  have lands : Lands (· ≠ k) s task [.run k i] _ := .awaits passes s.loop.cells.size
  have turn := passes.still.trans active
  have later : Loop.Passes (· = task) (Frame.RunsIn (· ≠ k)) _ _ :=
    Loop.await_passes passes.orderly turn [.run k i] s.loop.cells.size
  refine .of_lands turns lands (by simp [Run.isLive, status]) (.inl rfl) fun others plays => .inl ⟨_, _,
    (Loop.await_awaits passes.orderly turn [.run k i] (s.loop.newGroup_result? _)).1, later.kinds _ _ group,
    fun j member => ?_, fun d member => ?_⟩
  · cases status.symm.trans plays
    have present := inside j member
    have few : x.cells[j]? = some x.cells[j] := Array.getElem?_eq_getElem _
    exact ⟨_, List.mem_filterMap.mpr ⟨j, member, few⟩, few⟩
  · obtain ⟨j, -, listed⟩ := List.mem_filterMap.mp member
    exact ⟨j, listed⟩

/-- A task that is to take its first step in a run. -/
structure Posted (s : Stage α) (k i c : Nat) : Prop where
  task : s.loop.kind? c = some .task
  calls : s.loop.frames c = [.run k i]
  result : s.loop.result? c = none

theorem Posted.moves {P : List (Frame α) → Prop} {i c : Nat} (posted : s.Posted k i c)
    (remains : s.loop.Remains (fun _ => False) P t.loop) : t.Posted k i c := by
  obtain ⟨result, frames, -⟩ := remains.tasks c posted.task id
  exact ⟨remains.kinds c _ posted.task, frames.trans posted.calls, result.trans posted.result⟩

theorem Posted.attends {i c : Nat} {r : Run α} (posted : s.Posted k i c) (unborn : r.status = .created) :
    s.Attends k x i c r where
  task := posted.task
  value v done := by cases posted.result.symm.trans done
  raised done := by cases posted.result.symm.trans done
  spent v done := by cases posted.result.symm.trans done
  live _ := by simp [Run.isLive, unborn]
  calls _ := .inl posted.calls
  joins _ children plays := by cases unborn.symm.trans plays

/-- A turn in a call that does not operate on a performance leaves it as it is. -/
theorem deliver_elsewhere [Scalar α] {task : Nat}
    (foreign : ∀ frame ∈ (s.loop.frames task).head?, frame.operates = true → frame.part ≠ k) (r : Reply (Value α)) :
    (s.deliver task r).parts[k]? = s.parts[k]? := by
  cases calls : s.loop.frames task with
  | nil =>
    unfold deliver
    rw [calls]
    rfl
  | cons frame rest =>
    obtain ⟨m, affects, resumes⟩ := deliver_receives calls r
    rw [calls] at foreign
    rw [resumes.parts]
    cases affects with
    | idle agrees => rw [agrees.parts]
    | acts agrees found effect =>
      have other : k ≠ frame.part := by
        refine Ne.symm (foreign frame rfl ?_)
        cases frame with
        | run | open_ | main | conductor => rfl
        | _ => exact effect.elim
      rw [← Array.foldl_toList, serveAll_other _ _ other, stored_other _ _ _ other, agrees.parts]

namespace Staffed

/-- What some tasks do leaves a part staffed, if each of them sees to the run that it may have. -/
theorem moves {Q : Nat → Prop} (staffed : s.Staffed exempt k x)
    (remains : s.loop.Remains moved (Frame.RunsIn Q) t.loop) (others : ∀ j, Q j → j ≠ k)
    (turns : ∀ c v, s.loop.active = some (c, v) → (∃ d, moved d) → moved c)
    (calls : ∀ c i, moved c → .run k i ∈ t.loop.frames c → x.cells[i]? = some c)
    (attends : ∀ (i c : Nat) (r : Run α), moved c → x.cells[i]? = some c → x.performance.runs[i]? = some r →
      t.Attends k y i c r)
    (seen : ∀ i c : Nat, exempt i → x.cells[i]? = some c → moved c) (found : t.parts[k]? = some y) (rests : x.Rests y)
    (engine : ∃ e, t.engines[x.engine]? = some e ∧ e.Obliging) : t.Staffed (fun _ => False) k y where
  found := found
  size := by rw [rests.cells, rests.runs, staffed.size]
  own c i member := by
    rw [rests.cells]
    by_cases own : moved c
    · exact calls c i own member
    · rcases remains.mem_frames own member with before | ⟨-, runs⟩
      · exact staffed.own c i before
      · exact absurd rfl (others k (runs k i member))
  attends i c r cell there _ := by
    rw [rests.cells] at cell
    rw [rests.runs] at there
    by_cases own : moved c
    · exact attends i c r own cell there
    · refine (staffed.attends i c r cell there fun free => own (seen i c free cell)).moves remains own
        (fun v turn => ?_) (fun i c cell => rests.cells ▸ cell) fun i ended => ?_
      · rcases remains.active with same | ⟨some, -⟩
        · exact same.trans turn
        · exact absurd (turns c v turn some) own
      · rwa [Performance.hasFinished, Performance.outcome?, rests.runs]
  tended := staffed.tended.of_runs rests.runs
  engine := rests.engine.symm ▸ engine
  generation := rests.generation.trans staffed.generation

/-- The run of a task, as long as it has no result. -/
theorem run (staffed : s.Staffed exempt k x) {c i : Nat} (cell : x.cells[i]? = some c) :
    ∃ r, x.performance.runs[i]? = some r :=
  ⟨_, Array.getElem?_eq_getElem (Nat.lt_of_lt_of_eq (Array.getElem?_eq_some_iff.mp cell).1 staffed.size)⟩

theorem obliging (staffed : s.Staffed exempt k x) : (s.mounted x).Obliging := by
  obtain ⟨e, route, obliging⟩ := staffed.engine
  simpa [Performance.Obliging, mounted, Array.getD_eq_getD_getElem?, route] using obliging

/-- A run has finished once its task has come to a value. -/
theorem finished (staffed : s.Staffed (fun _ => False) k x) {i c : Nat} (cell : x.cells[i]? = some c) {v : Value α}
    (done : s.loop.result? c = some (.value v)) : x.performance.hasFinished i = true := by
  obtain ⟨r, there⟩ := staffed.run cell
  obtain ⟨position, status⟩ := (staffed.attends i c r cell there id).value v done
  exact Performance.hasFinished_eq_true.mpr ⟨r, position, there, status⟩

/-- Who is in no run of a part sees to none. -/
theorem strange (staffed : s.Staffed (fun _ => False) k x) {task : Nat} (pending : s.loop.result? task = none)
    (foreign : ∀ i, .run k i ∉ s.loop.frames task) (i : Nat) : x.cells[i]? ≠ some task := by
  intro cell
  obtain ⟨r, there⟩ := staffed.run cell
  apply foreign i
  rcases (staffed.attends i task r cell there id).calls pending with one | ⟨⟨top, -, two⟩, -⟩
  · exact one ▸ List.mem_singleton_self _
  · exact two ▸ List.mem_cons_of_mem _ (List.mem_singleton_self _)

/-- The members of a group that a task waits for have finished once the group has come to a value. -/
theorem joined (staffed : s.Staffed (fun _ => False) k x) (manned : s.Manned) {g : Nat} {members children : List Nat}
    (group : s.loop.kind? g = some (.group members)) (all : ∀ i ∈ children, ∃ d ∈ members, x.cells[i]? = some d)
    {v : Value α} (done : s.loop.result? g = some (.value v)) : children.all x.performance.hasFinished = true := by
  refine List.all_eq_true.mpr fun i member => ?_
  obtain ⟨d, inside, cell⟩ := all i member
  obtain ⟨w, ended⟩ := manned.loop.members_done group done d inside
  exact staffed.finished cell ended

theorem joined_raised (staffed : s.Staffed (fun _ => False) k x) (manned : s.Manned) {g : Nat} {members : List Nat}
    (group : s.loop.kind? g = some (.group members)) (few : ∀ d ∈ members, ∃ i : Nat, x.cells[i]? = some d) :
    s.loop.result? g ≠ some (.raised .timeout) := by
  intro done
  rcases manned.loop.member_raised group done with ⟨⟨⟩⟩ | ⟨d, inside, raised⟩
  obtain ⟨i, cell⟩ := few d inside
  obtain ⟨r, there⟩ := staffed.run cell
  exact (staffed.attends i d r cell there id).raised raised

/-- The loop lets a task in a play go on only when those it waits for have come to their ends. -/
theorem called (staffed : s.Staffed (fun _ => False) k x) (manned : s.Manned) (idle : s.loop.active = none)
    {cb : Callback} {rest : List Callback} (next : s.loop.round = cb :: rest) :
    (s.onLoop fun l => { l with round := rest }.run .nothing cb).Staffed (fun _ => False) k x := by
  have passes : s.loop.Passes cb.Turns (fun _ => True) (Loop.run { s.loop with round := rest } .nothing cb) :=
    Loop.run_passes manned.loop next .nothing
  have began : s.loop.Stays { s.loop with round := rest } := .of_cells rfl
  have frames (c : Nat) : (Loop.run { s.loop with round := rest } .nothing cb).frames c = s.loop.frames c :=
    (began.trans (Loop.run_stays _ Value.nothing cb)).frames c
  refine ⟨staffed.found, staffed.size, fun c i member => staffed.own c i (frames c ▸ member),
    fun i c r cell there _ => ?_, staffed.tended, staffed.engine, staffed.generation⟩
  have attends := staffed.attends i c r cell there id
  have result := Loop.run_result? manned.loop next Value.nothing attends.task
  change (Loop.run { s.loop with round := rest } .nothing cb).result? c = _ at result
  refine ⟨passes.kinds c _ attends.task, fun v => ?_, ?_, fun v => ?_, ?_, ?_, fun open_ children plays => ?_⟩
  · exact fun done => attends.value v (result.symm.trans done)
  · exact fun done => attends.raised (result.symm.trans done)
  · exact fun done => frames c ▸ attends.spent v (result.symm.trans done)
  · exact fun open_ => attends.live (result.symm.trans open_)
  · exact fun open_ => frames c ▸ attends.calls (result.symm.trans open_)
  · have before : s.loop.result? c = none := result.symm.trans open_
    rcases attends.joins before children plays with ⟨g, members, waits, group, all, few⟩ | ⟨v, turn, -⟩
    · rcases Loop.run_waits manned.loop next Value.nothing before waits with still | ⟨v, turn, given⟩
      · exact .inl ⟨g, members, still, passes.kinds g _ group, all, few⟩
      · refine .inr ⟨v, turn, ?_, fun w value => ?_⟩
        · rcases given with rfl | done
          · simp
          · exact fun late => staffed.joined_raised manned group few (late ▸ done)
        · rcases given with rfl | done
          · cases value
          · exact staffed.joined manned group all (value ▸ done)
    · cases idle.symm.trans turn

variable [Scalar α]

/-- A new round moves nobody. -/
theorem nextRound (staffed : s.Staffed (fun _ => False) k x) (manned : s.Manned) (drained : s.loop.round = [])
    {l : Loop α (Value α) (Frame α)} (begun : s.loop.nextRound? = some l) :
    Staffed (fun _ => False) { s with loop := l } k x := by
  have passes : s.loop.Passes (fun _ => False) (Frame.RunsIn fun _ => False) l :=
    Loop.nextRound?_passes manned.loop drained begun
  exact staffed.moves passes.toRemains (fun _ => False.elim) (fun _ _ _ ⟨_, never⟩ => never) (fun _ _ => False.elim)
    (fun _ _ _ => False.elim) (fun _ _ => False.elim) staffed.found (.refl x) staffed.engine

omit [Scalar α] in
/-- The tasks of new runs are there to take their first steps. -/
theorem serveAll_posts (manned : s.Manned) (requests : List Request) (found : s.parts[k]? = some x) :
    ∃ cells : List Nat,
      (requests.foldl (fun s r => s.serve k r) s).parts[k]? = some { x with cells := x.cells ++ cells.toArray } ∧
      ∀ n c : Nat, cells[n]? = some c → ∃ i : Nat, (requests.filterMap Request.spawned?)[n]? = some i ∧
        (requests.foldl (fun s r => s.serve k r) s).Posted k i c := by
  induction requests generalizing s x with
  | nil => exact ⟨[], by simpa using found, by simp⟩
  | cons request requests ih =>
    have passes : s.Passes (fun _ => False) (fun _ => True) (s.serve k request) := serve_passes manned trivial request
    have idle (same : (s.serve k request).parts = s.parts) (silent : request.spawned? = none) := by
      have later := ih passes.manned (same ▸ found)
      rwa [← List.filterMap_cons_none silent] at later
    cases request with
    | changed => exact idle rfl rfl
    | cancel run => exact idle (s.serve_parts k (by simp)) rfl
    | spawned run =>
      have there : (s.serve k (.spawned run)).parts[k]? = some { x with cells := x.cells.push s.loop.cells.size } := by
        simp only [serve, Array.getElem?_modify, if_true, found]
        rfl
      obtain ⟨cells, later, posted⟩ := ih passes.manned there
      refine ⟨s.loop.cells.size :: cells, by simpa using later, fun n c cell => ?_⟩
      cases n with
      | zero =>
        cases cell
        have first : (s.serve k (.spawned run)).Posted k run s.loop.cells.size :=
          ⟨by simp [serve, Loop.newTask, Loop.newCell, Loop.callSoon, Loop.kind?, Role.kind],
            s.loop.newTask_frames _, by simp [serve, Loop.newTask, Loop.newCell, Loop.callSoon, Loop.result?]⟩
        exact ⟨run, rfl, first.moves (serveAll_passes (Q := fun _ => True) passes.manned trivial requests).loop⟩
      | succ n => exact posted n c cell

omit [Scalar α] in
/-- The runs that a performance has started on the way to a later state have tasks that are to take
their first steps. -/
theorem stored_posts {F : Fault → Prop} {q : Performance α} (manned : s.Manned) (found : s.parts[k]? = some x)
    (full : x.cells.size = x.performance.runs.size) (later : (s.mounted x).Continues F q)
    (there : (q.outbox.foldl (fun s r => s.serve k r) (s.stored k x q)).parts[k]? = some y) :
    y.engine = x.engine ∧ ∀ i c : Nat, x.cells.size ≤ i → y.cells[i]? = some c →
      (q.outbox.foldl (fun s r => s.serve k r) (s.stored k x q)).Posted k i c := by
  obtain ⟨requests, outbox, -, spawned⟩ := later.tells
  have asked : q.outbox.toList = requests := by rw [outbox]; simp [mounted]
  have stored : (s.stored k x q).Manned := .of_loop manned rfl rfl
  rw [← Array.foldl_toList, asked] at there ⊢
  obtain ⟨cells, listed, posted⟩ := serveAll_posts stored requests (stored_part found q)
  obtain rfl := Option.some.inj (listed.symm.trans there)
  refine ⟨rfl, fun i c new cell => ?_⟩
  have cell : cells[i - x.cells.size]? = some c := by
    rwa [Array.getElem?_append_right new, List.getElem?_toArray] at cell
  obtain ⟨j, told, posted⟩ := posted _ c cell
  rw [spawned] at told
  obtain ⟨few, rfl⟩ := List.getElem?_eq_some_iff.mp told
  -- the task at an index is that of the run at the index, since there were as many of both
  have index : (List.range' (s.mounted x).runs.size (q.runs.size - (s.mounted x).runs.size))[i - x.cells.size] = i := by
    have before : (s.mounted x).runs.size = x.cells.size := full.symm
    rw [List.getElem_range', before]
    omega
  rwa [index] at posted

/-- What is made of a performance without moving any run but an exempt one leaves the part staffed,
with the tasks of its new runs. -/
theorem operated {β : Type} {F : Fault → Prop} (staffed : s.Staffed (fun _ => False) k x) (manned : s.Manned)
    (act : PerformM α β) {q : Performance α} (ran : (runFrom act (s.mounted x)).2 = q)
    (later : (s.mounted x).Continues F q)
    (others : ∀ (i : Nat) (r : Run α), x.performance.runs[i]? = some r → exempt i ∨ q.runs[i]? = some r)
    (finished : ∀ i, x.performance.hasFinished i = true → q.hasFinished i = true)
    (unborn : ∀ (i : Nat) (r : Run α), x.performance.runs.size ≤ i → q.runs[i]? = some r → r.status = .created)
    (tended : q.Tended) (generation : q.session.generation = 0) :
    ∃ y, (s.onPart k act).2.Staffed exempt k y ∧
      y.performance = { q with engine := {}, journal := #[], outbox := #[] } ∧
      ∀ i c : Nat, x.cells[i]? = some c → y.cells[i]? = some c := by
  obtain ⟨y, registers⟩ := stored_registers (.refl s) staffed.found staffed.size later
  obtain ⟨engine, posted⟩ := stored_posts manned staffed.found staffed.size later registers.found
  have passes : s.Passes (fun _ => False) (fun _ => True) (s.onPart k act).2 := onPart_passes manned (fun _ => trivial) act
  have follows : s.Follows F (s.onPart k act).2 := s.onPart_follows_of k fun z there => by
    obtain rfl := Option.some.inj (staffed.found.symm.trans there)
    exact ran.symm ▸ later
  rw [onPart_eq staffed.found, ran] at passes follows ⊢
  dsimp only at passes follows ⊢
  generalize q.outbox.foldl (fun s r => s.serve k r) (s.stored k x q) = t at registers passes follows posted
  have runs : y.performance.runs = q.runs := by rw [registers.performance]
  have kept (i : Nat) (ended : x.performance.hasFinished i = true) : y.performance.hasFinished i = true := by
    rw [Performance.hasFinished, Performance.outcome?, runs]
    exact finished i ended
  refine ⟨y, ⟨registers.found, runs ▸ registers.size, fun c i member => ?_, fun i c r cell run free => ?_,
    tended.of_runs runs, ?_, registers.performance ▸ generation⟩, registers.performance, registers.kept⟩
  · rcases passes.loop.mem_frames id member with before | ⟨new, -⟩
    · exact registers.kept i c (staffed.own c i before)
    · obtain ⟨_, call, -, -, cell⟩ := registers.made c (Loop.kind?_eq_none.mp new) _ member
      cases call
      exact cell
  · rw [runs] at run
    by_cases old : i < x.performance.runs.size
    · have before : x.performance.runs[i]? = some x.performance.runs[i] := Array.getElem?_eq_getElem old
      have unmoved := (others i _ before).resolve_left free
      obtain rfl := Option.some.inj (unmoved.symm.trans run)
      have listed : i < x.cells.size := staffed.size ▸ old
      have cell' : x.cells[i]? = some x.cells[i] := Array.getElem?_eq_getElem _
      obtain rfl := Option.some.inj ((registers.kept i _ cell').symm.trans cell)
      exact (staffed.attends i _ _ cell' before id).moves passes.loop id (fun v turn => passes.still.trans turn)
        registers.kept kept
    · have new := Nat.le_of_not_lt old
      exact (posted i c (staffed.size ▸ new) cell).attends (unborn i r new run)
  · obtain ⟨e, there, obliging⟩ := staffed.engine
    obtain ⟨f, later, alike⟩ := follows.engines _ e there
    exact ⟨f, engine ▸ later, obliging.alike alike⟩

omit [Scalar α] in
/-- What a task in a play goes on with is the end of all that it waited for, or its cause of grief. -/
theorem heard (staffed : s.Staffed (fun _ => False) k x) (manned : s.Manned) {task i : Nat} {r : Reply (Value α)}
    (active : s.loop.active = some (task, r)) (cell : x.cells[i]? = some task) {run : Run α}
    (there : x.performance.runs[i]? = some run) {children : List Nat} (plays : run.status = .playing children) :
    wakeOf r ≠ .timeout ∧ (wakeOf r = .go → children.all x.performance.hasFinished = true) := by
  obtain ⟨-, idle, open_⟩ := manned.loop.active task r active
  rcases (staffed.attends i task run cell there id).joins open_ children plays with ⟨g, _, waits, -⟩ | ⟨v, turn, timely, ended⟩
  · cases idle.symm.trans waits
  · cases active.symm.trans turn
    cases r with
    | value v => exact ⟨by simp [wakeOf], fun _ => ended v rfl⟩
    | raised x => cases x <;> simp_all [wakeOf]

/-- A run that takes its turn minds none that it has outlasted, or minds everyone. -/
theorem turn_taken (staffed : s.Staffed exempt k x) {i : Nat} {run : Run α}
    (there : x.performance.runs[i]? = some run) {wake : Wake}
    (heard : ∀ children, run.status = .playing children →
      wake ≠ .timeout ∧ (wake = .go → children.all x.performance.hasFinished = true)) :
    ∃ run' started, Performance.Taken i run' started (s.mounted x) (runFrom (if x.performance.isRunning i
        then Performance.step s.loop.time i else Performance.wake s.loop.time i wake) (s.mounted x)).2 ∧
      ∀ children, run.status = .playing children →
        children.all x.performance.hasFinished = true ∨ ∀ j, run'.minds j = true := by
  by_cases running : run.status = .running
  · have reads : x.performance.isRunning i = true := by simp [Performance.isRunning, there, running]
    rw [if_pos reads]
    obtain ⟨run', started, taken⟩ := Performance.step_taken s.loop.time staffed.obliging there running
    exact ⟨run', started, taken, fun children plays => by cases running.symm.trans plays⟩
  · have waits : ¬ x.performance.isRunning i = true := by
      cases status : run.status <;> simp_all [Performance.isRunning]
    rw [if_neg waits]
    obtain ⟨run', taken, goes⟩ := Performance.wake_taken (p := s.mounted x) s.loop.time wake there running
    refine ⟨run', [], taken, fun children plays => ?_⟩
    rcases goes children plays with go | late | grief
    · exact .inl ((heard children plays).2 go)
    · exact absurd late (heard children plays).1
    · exact .inr grief

/-- A run takes its turn, or is taken out of what it waits for. -/
theorem turn (staffed : s.Staffed (fun _ => False) k x) (manned : s.Manned) {task i : Nat} {r : Reply (Value α)}
    (active : s.loop.active = some (task, r)) (calls : s.loop.frames task = [.run k i]) :
    ∃ y run', (s.turn k i r).Staffed (· = i) k y ∧ y.performance.runs[i]? = some run' ∧
      (∀ j c : Nat, x.cells[j]? = some c → y.cells[j]? = some c) ∧
      ∀ children, run'.status = .playing children → ∀ j ∈ children, j < y.cells.size := by
  have cell := staffed.own task i (calls ▸ List.mem_singleton_self _)
  obtain ⟨run, there⟩ := staffed.run cell
  have live := (staffed.attends i task run cell there id).live (manned.loop.active task r active).2.2
  obtain ⟨run', started, taken, joins⟩ :=
    staffed.turn_taken there fun _ plays => staffed.heard manned active cell there plays
  have effect := s.mounted_turned x i (wakeOf r)
  have turned : s.turn k i r = (s.onPart k _).2 := turn_eq staffed.found r
  generalize (if x.performance.isRunning i then Performance.step s.loop.time i
    else Performance.wake s.loop.time i (wakeOf r)) = act at taken effect turned
  have tended : (s.mounted x).Tended := staffed.tended.of_runs rfl
  have unborn (j : Nat) (r' : Run α) (new : x.performance.runs.size ≤ j)
      (born : (runFrom act (s.mounted x)).2.runs[j]? = some r') : r'.status = .created := by
    rcases taken.runs.origin born with ⟨rfl, -⟩ | ⟨-, old⟩ | ⟨-, listed⟩
    · exact absurd (Array.getElem?_eq_some_iff.mp there).1 (Nat.not_lt.mpr new)
    · exact absurd (Array.getElem?_eq_some_iff.mp old).1 (Nat.not_lt.mpr new)
    · exact taken.unborn r' (List.mem_of_getElem? listed)
  have others (j : Nat) (r' : Run α) (before : x.performance.runs[j]? = some r') :
      j = i ∨ (runFrom act (s.mounted x)).2.runs[j]? = some r' :=
    or_iff_not_imp_left.mpr fun other => taken.runs.other other before
  obtain ⟨y, later, performance, kept⟩ := staffed.operated manned act rfl effect.continues others
    (taken.finished there live) unborn (tended.taken taken there live joins)
    (taken.generation.trans staffed.generation)
  have runs : y.performance.runs = (runFrom act (s.mounted x)).2.runs := by rw [performance]
  refine ⟨y, run', turned ▸ later, runs ▸ taken.runs.found, kept, fun children plays j member => ?_⟩
  have few := taken.waits children plays ▸ member
  rw [later.size, runs, taken.runs.size]
  exact (List.mem_range'_1.mp few).2

omit [Scalar α] in
/-- A task has taken its turn, and sees to its run. -/
theorem attended {task i : Nat} {r : Run α} (staffed : s.Staffed exempt k x) (seen : ∀ j, exempt j → j = i)
    (turns : s.Turns task) (calls : .run k i ∈ s.loop.frames task) (there : x.performance.runs[i]? = some r)
    (passes : s.Passes (· = task) (· ≠ k) t) (parts : t.parts = s.parts) (engines : t.engines = s.engines)
    (attends : t.Attends k x i task r) : t.Staffed (fun _ => False) k x := by
  obtain ⟨_, active⟩ := turns.active
  have cell := staffed.own task i calls
  refine staffed.moves passes.loop (fun _ => id) (fun c v turn _ => ?_) (fun c j own member => ?_)
    (fun j c r' own listed found => ?_) (fun j c free listed => ?_) (parts ▸ staffed.found) (.refl x)
    (engines ▸ staffed.engine)
  · cases active.symm.trans turn
    rfl
  · subst own
    obtain rfl := attends.only member
    exact cell
  · subst own
    obtain rfl : i = j := by
      by_cases free : exempt j
      · exact (seen j free).symm
      · obtain ⟨r', there'⟩ := staffed.run listed
        exact (staffed.attends j c r' listed there' free).only calls
    obtain rfl := Option.some.inj (there.symm.trans found)
    exact attends
  · obtain rfl := seen j free
    exact Option.some.inj (listed.symm.trans cell)

/-- A task goes on with its run as it then is. -/
theorem follows {task i : Nat} {run : Run α} (staffed : s.Staffed (· = i) k x) (turns : s.Turns task)
    (calls : s.loop.frames task = [.run k i]) (there : x.performance.runs[i]? = some run)
    (inside : ∀ children, run.status = .playing children → ∀ j ∈ children, j < x.cells.size) :
    (s.followRun task [] k i).Staffed (fun _ => False) k x := by
  obtain ⟨parts, engines⟩ := s.followRun_parts task [] k i
  refine staffed.attended (fun _ => id) turns (calls ▸ List.mem_singleton_self _) there
    (followRun_passes turns [] k i) parts engines ?_
  have lands {t : Stage α} {frames : List (Frame α)} (live : run.isLive = true)
      (idle : ∀ children, run.status ≠ .playing children) (lands : Lands (· ≠ k) s task frames t)
      (within : frames = [.run k i] ∨ ∃ top, top.isPause = true ∧ frames = [top, .run k i]) :
      t.Attends k x i task run :=
    .of_lands turns lands live (within.imp_right (⟨·, idle⟩)) fun children plays => absurd plays (idle children)
  unfold followRun
  simp only [staffed.found, there]
  cases status : run.status with
  | ended outcome =>
    cases outcome with
    | finished position => exact .of_leave turns (fun _ _ => ⟨position, status⟩) (by simp)
    | failed f => exact .of_leave turns (by simp) (by simp)
    | cancelled => exact .of_leave turns (by simp) (by simp)
  | created => exact lands (by simp [Run.isLive, status]) (by simp [status]) (.proceeds (.refl turns.loop) _) (.inl rfl)
  | running => exact lands (by simp [Run.isLive, status]) (by simp [status]) (.proceeds (.refl turns.loop) _) (.inl rfl)
  | waiting seconds beats =>
    have live : run.isLive = true := by simp [Run.isLive, status]
    have idle : ∀ children, run.status ≠ .playing children := by simp [status]
    dsimp only
    split
    · exact lands live idle (.yields (.refl turns.loop)) (.inl rfl)
    · rename_i d _
      rcases sleep_lands turns [.run k i] d with here | ⟨timer, inside⟩
      · exact lands live idle here (.inl rfl)
      · exact lands live idle inside (.inr ⟨_, rfl, rfl⟩)
  | settling deadline =>
    have listens : (Frame.listen k x.performance.session.changes : Frame α).isRun = false := rfl
    obtain ⟨_, _, _, waits⟩ := waitWithin_lands turns [.run k i] listens (deadline - s.loop.time)
    exact lands (by simp [Run.isLive, status]) (by simp [status]) waits (.inr ⟨_, rfl, rfl⟩)
  | playing children => exact .of_play turns status (inside children status)

/-- A task of the part takes its turn. -/
theorem deliver_own {task i : Nat} {r : Reply (Value α)} (staffed : s.Staffed (fun _ => False) k x) (manned : s.Manned)
    (active : s.loop.active = some (task, r)) (cell : x.cells[i]? = some task) :
    ∃ y, (s.deliver task r).Staffed (fun _ => False) k y ∧ ∀ j c : Nat, x.cells[j]? = some c → y.cells[j]? = some c := by
  have turns : s.Turns task := ⟨manned, r, active⟩
  obtain ⟨run, there⟩ := staffed.run cell
  have attends := staffed.attends i task run cell there id
  have open_ := (manned.loop.active task r active).2.2
  rcases attends.calls open_ with calls | ⟨⟨top, pause, calls⟩, idle⟩
  · have same : s.deliver task r = (s.turn k i r).followRun task [] k i := by
      rw [← deliverRun_eq]
      unfold deliver
      rw [calls]
    obtain ⟨y, run', turned, there', kept, inside⟩ := staffed.turn manned active calls
    have passes : s.Passes (fun _ => False) (fun _ => True) (s.turn k i r) := turn_passes turns (fun _ => trivial) i r
    have still := (passes.loop.tasks task attends.task id).2.1.trans calls
    exact ⟨y, same ▸ turned.follows (turns.after passes) still there' inside, kept⟩
  · have landed {frames : List (Frame α)} (lands : Lands (· ≠ k) s task frames (s.deliver task r))
        (within : frames = [.run k i] ∨ ∃ top, top.isPause = true ∧ frames = [top, .run k i]) :
        ∃ y, (s.deliver task r).Staffed (fun _ => False) k y ∧
          ∀ j c : Nat, x.cells[j]? = some c → y.cells[j]? = some c :=
      ⟨x, staffed.attended (fun _ => False.elim) turns (calls ▸ by simp) there (lands.passes turns) lands.parts.1
        lands.parts.2 (.of_lands turns lands (attends.live open_) (within.imp_right (⟨·, idle⟩))
          fun children plays => absurd plays (idle children)), fun _ _ => id⟩
    have left (timer : Nat) (v : Reply (Value α)) : Lands (· ≠ k) s task [.run k i]
        (s.onLoop fun l => (l.cancelTimer timer).leave task [.run k i] v) :=
      .of_leave (Loop.cancelTimer_passes turns.loop timer) v
    unfold deliver at landed ⊢
    rw [calls] at landed ⊢
    cases top with
    | within inner waiter timer =>
      dsimp only at landed ⊢
      unfold deliverWithin at landed ⊢
      split at landed
      · exact landed (left timer _) (.inl rfl)
      · exact landed (endInner_lands turns _ inner waiter timer _) (.inr ⟨_, rfl, rfl⟩)
    | ending inner timer timedOut => exact landed (left timer _) (.inl rfl)
    | sleeping timer => exact landed (left timer _) (.inl rfl)
    | _ => cases pause

omit [Scalar α] in
/-- A task of another part, or of none, has taken its turn. -/
theorem others {task : Nat} (staffed : s.Staffed (fun _ => False) k x) (turns : s.Turns task)
    (strange : ∀ i : Nat, x.cells[i]? ≠ some task) (passes : s.Passes (· = task) (· ≠ k) t)
    (calls : ∀ i, .run k i ∈ t.loop.frames task → .run k i ∈ s.loop.frames task) (found : t.parts[k]? = some y)
    (rests : x.Rests y) (engines : ∀ (i : Nat) (e : Engine α), s.engines[i]? = some e → ∃ f, t.engines[i]? = some f ∧ e.Alike f) :
    t.Staffed (fun _ => False) k y := by
  obtain ⟨_, active⟩ := turns.active
  obtain ⟨e, route, obliging⟩ := staffed.engine
  obtain ⟨f, there, alike⟩ := engines _ e route
  refine staffed.moves passes.loop (fun _ => id) (fun c v turn _ => ?_) (fun c i own member => ?_)
    (fun i c r own listed _ => absurd (own ▸ listed) (strange i)) (fun _ _ => False.elim) found rests
    ⟨f, there, obliging.alike alike⟩
  · cases active.symm.trans turn
    rfl
  · subst own
    exact absurd (staffed.own c i (calls i member)) (strange i)

omit [Scalar α] in
/-- A task that is in no run of a part moves to other calls. -/
theorem elsewhere {task : Nat} (staffed : s.Staffed (fun _ => False) k x) (turns : s.Turns task)
    (foreign : ∀ i, .run k i ∉ s.loop.frames task) (passes : s.Passes (· = task) (· ≠ k) t)
    (apart : ∀ i, .run k i ∉ t.loop.frames task) (parts : t.parts = s.parts) (engines : t.engines = s.engines) :
    t.Staffed (fun _ => False) k x := by
  obtain ⟨r, active⟩ := turns.active
  have pending := (turns.loop.active task r active).2.2
  exact staffed.others turns (staffed.strange pending foreign) passes (fun i member => absurd member (apart i))
    (parts ▸ staffed.found) (.refl x) fun i e there => ⟨e, engines ▸ there, .refl e⟩

/-- A task takes its turn in a call that does not operate on the part. -/
theorem deliver_other {task : Nat} {r : Reply (Value α)} (staffed : s.Staffed (fun _ => False) k x) (turns : s.Turns task)
    (strange : ∀ i : Nat, x.cells[i]? ≠ some task)
    (foreign : ∀ frame ∈ (s.loop.frames task).head?, frame.operates = true → frame.part ≠ k) :
    (s.deliver task r).Staffed (fun _ => False) k x := by
  have follows : s.Follows (fun _ => True) (s.deliver task r) := s.deliver_follows (fun _ _ => trivial) task fun _ _ => trivial
  exact staffed.others turns strange (deliver_passes turns r fun frame first acts _ => foreign frame first acts)
    (fun i => deliver_calls r) ((deliver_elsewhere foreign r).trans staffed.found) (.refl x) follows.engines

end Staffed

section close

variable [Scalar α]

/-- A task looks whether its performance was reset, and leaves all runs as they are. -/
theorem onPart_conclude (s : Stage α) (part generation : Nat) (time : α) :
    ∃ (result : Except Fault (Outcome α)) (u : Stage α),
      s.onPart part (Performance.conclude time generation .cancelled) = (result, u) ∧
      u.loop = s.loop ∧ u.listeners = s.listeners ∧
      (∀ (k : Nat) (x : Part α), s.parts[k]? = some x → ∃ y, u.parts[k]? = some y ∧ x.Rests y) ∧
      (∀ (i : Nat) (e : Engine α), s.engines[i]? = some e → u.engines[i]? = some e) ∧
      ∀ x, s.parts[part]? = some x → x.performance.session.generation = generation → result = .ok .cancelled := by
  cases found : s.parts[part]? with
  | none =>
    refine ⟨.error (.noRoute ""), s, ?_, rfl, rfl, fun k x there => ⟨x, there, .refl x⟩, fun _ _ => id, by simp⟩
    unfold onPart
    rw [found]
  | some x =>
    obtain ⟨result, q, ran, runs, session, engine, outbox, same⟩ : ∃ result q,
        runFrom (Performance.conclude time generation .cancelled) (s.mounted x) = (result, q) ∧
          q.runs = x.performance.runs ∧ q.session = x.performance.session ∧ q.engine = (s.mounted x).engine ∧
          q.outbox = #[] ∧ (x.performance.session.generation = generation → result = .ok .cancelled) := by
      simp only [Performance.conclude, runFrom_get_bind]
      split
      · rename_i reset
        exact ⟨_, _, rfl, rfl, rfl, rfl, rfl, fun same => by simp [mounted, same] at reset⟩
      · exact ⟨_, _, rfl, rfl, rfl, rfl, rfl, fun _ => rfl⟩
    refine ⟨result, s.stored part x q, ?_, rfl, rfl, fun k y there => ?_, fun i e there => ?_, fun z there => ?_⟩
    · rw [onPart_eq found, ran, outbox]
      rfl
    · by_cases own : k = part
      · subst own
        obtain rfl := Option.some.inj (found.symm.trans there)
        exact ⟨_, stored_part found q, rfl, rfl, runs, congrArg Session.generation session⟩
      · exact ⟨y, (stored_other s x q own).trans there, .refl y⟩
    · obtain ⟨present, held⟩ := Array.getElem?_eq_some_iff.mp there
      simp only [stored, Array.set!_eq_setIfInBounds, Array.getElem?_setIfInBounds, engine, mounted]
      split
      · rename_i own
        subst own
        simp [present, Array.getD_eq_getD_getElem?, held]
      · exact there
    · obtain rfl := Option.some.inj there
      exact same

/-- A task passes on the end of a main run, unless its performance was reset. -/
theorem closeMain_leaves (s : Stage α) (task : Nat) (frames : List (Frame α)) (part generation : Nat)
    (r : Reply (Value α)) : ∃ (u : Stage α) (v : Reply (Value α)), s.closeMain task frames part generation r =
      u.onLoop (·.leave task frames v) ∧ u.loop = s.loop ∧ u.listeners = s.listeners ∧
      (∀ (k : Nat) (x : Part α), s.parts[k]? = some x → ∃ y, u.parts[k]? = some y ∧ x.Rests y) ∧
      (∀ (i : Nat) (e : Engine α), s.engines[i]? = some e → u.engines[i]? = some e) ∧
      ∀ x, s.parts[part]? = some x → x.performance.session.generation = generation → v = r := by
  unfold closeMain
  split
  · obtain ⟨result, u, ran, loop, listeners, parts, engines, same⟩ := s.onPart_conclude part generation s.loop.time
    rw [ran]
    split
    · rename_i position _ equal
      cases equal
      exact ⟨u, _, rfl, loop, listeners, parts, engines, fun x there dated => by cases same x there dated⟩
    · rename_i equal
      cases equal
      exact ⟨u, _, rfl, loop, listeners, parts, engines, fun _ _ _ => rfl⟩
  · exact ⟨s, _, rfl, rfl, rfl, fun k x there => ⟨x, there, .refl x⟩, fun _ _ => id, fun _ _ _ => rfl⟩

end close

end Stage

end Partita
