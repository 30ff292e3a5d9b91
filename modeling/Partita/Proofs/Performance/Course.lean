import Partita.Proofs.Performance.Turn

/-! What every operation keeps of the course of a performance. Whatever is asked of it, by
its runs or from outside and whether it is the time for it or not: no run changes its
generation, the session goes back to no generation, and a run fails only for want of an
instrument or because a run it waits for has failed. -/
namespace Partita

open Score

variable {α : Type} {F : Fault → Prop}

namespace Session

/-- A later state of a session: it goes back to no generation, and neither its count moves
nor does it stop without a change being announced. -/
structure Leads (s t : Session α) : Prop where
  generation : s.generation ≤ t.generation
  changes : s.changes ≤ t.changes
  unannounced : t.changes = s.changes → t.active = s.active ∧ (s.playing = true → t.playing = true)

theorem Leads.of_announced {s t : Session α} (generation : s.generation ≤ t.generation)
    (announced : t.changes = s.changes + 1) : s.Leads t :=
  ⟨generation, by omega, fun same => by omega⟩

theorem Leads.refl (s : Session α) : s.Leads s := ⟨Nat.le_refl _, Nat.le_refl _, fun _ => ⟨rfl, id⟩⟩

theorem Leads.trans {s t u : Session α} (first : s.Leads t) (second : t.Leads u) : s.Leads u := by
  refine ⟨Nat.le_trans first.generation second.generation, Nat.le_trans first.changes second.changes, fun same => ?_⟩
  have earlier := first.changes
  have later := second.changes
  obtain ⟨active, playing⟩ := first.unannounced (by omega)
  obtain ⟨active', playing'⟩ := second.unannounced (by omega)
  exact ⟨active'.trans active, fun goes => playing' (playing goes)⟩

theorem setBpm_leads (s : Session α) (bpm : α) : s.Leads (s.setBpm bpm) :=
  ⟨Nat.le_refl _, Nat.le_refl _, fun _ => ⟨rfl, id⟩⟩

theorem runStarted_leads (s : Session α) : s.Leads s.runStarted := .of_announced (Nat.le_refl _) rfl

theorem stop_leads (s : Session α) : s.Leads s.stop := .of_announced (Nat.le_refl _) rfl

theorem reset_leads (s : Session α) : s.Leads s.reset := .of_announced (Nat.le_succ _) rfl

theorem start_leads [Scalar α] (s : Session α) : s.Leads s.start :=
  ⟨Nat.le_refl _, Nat.le_refl _, fun _ => ⟨rfl, fun _ => rfl⟩⟩

theorem runFinished_leads [Scalar α] (s : Session α) (generation : Nat) (position : α) :
    s.Leads (s.runFinished generation position) := by
  unfold runFinished
  split
  · exact .of_announced (Nat.le_refl _) rfl
  · exact .refl s

end Session

def Request.spawned? : Request → Option Nat
  | .spawned run => some run
  | _ => none

namespace Run

def fault? (r : Run α) : Option Fault := match r.status with
  | .ended (.failed f) => some f
  | _ => none

/-- What may become of a run: it keeps its generation, fails with faults of a kind, and does not
come back once it has ended. -/
structure Stays (F : Fault → Prop) (r s : Run α) : Prop where
  generation : s.generation = r.generation
  fault : ∀ f, s.fault? = some f → r.fault? = some f ∨ F f
  gone : r.isLive = false → s.isLive = false

namespace Stays

theorem refl (r : Run α) : r.Stays F r := ⟨rfl, fun _ => .inl, id⟩

theorem trans {r s t : Run α} (first : r.Stays F s) (second : s.Stays F t) : r.Stays F t :=
  ⟨second.generation.trans first.generation,
    fun f failed => (second.fault f failed).elim (first.fault f) .inr, fun gone => second.gone (first.gone gone)⟩

theorem of_status {r s : Run α} (generation : s.generation = r.generation)
    (status : s.status = r.status) : r.Stays F s :=
  ⟨generation, fun f failed => .inl (by rwa [fault?, status] at failed), fun gone => by rwa [isLive, status]⟩

theorem of_unfailed {r s : Run α} (generation : s.generation = r.generation)
    (unfailed : s.fault? = none) (gone : r.isLive = false → s.isLive = false) : r.Stays F s :=
  ⟨generation, fun f failed => by rw [unfailed] at failed; contradiction, gone⟩

/-- A run that is live may go on in whatever way it likes. -/
theorem of_live {r s : Run α} (generation : s.generation = r.generation) (unfailed : s.fault? = none)
    (live : r.isLive = true) : r.Stays F s :=
  .of_unfailed generation unfailed fun gone => by rw [live] at gone; contradiction

end Stays

end Run

namespace Performance

/-- A later state of a performance as far as its runs go, which fail only with faults of a
kind. -/
structure Course (F : Fault → Prop) (p q : Performance α) : Prop where
  session : p.session.Leads q.session
  size : p.runs.size ≤ q.runs.size
  /-- Every run was there before, or is of a generation that the session had meanwhile. -/
  runs : ∀ (i : Nat) (s : Run α), q.runs[i]? = some s → (∃ r, p.runs[i]? = some r ∧ r.Stays F s) ∨
    p.runs.size ≤ i ∧ s.generation ≤ q.session.generation ∧ ∀ f, s.fault? = some f → F f

namespace Course

variable {p q r : Performance α}

theorem generation (course : p.Course F q) : p.session.generation ≤ q.session.generation :=
  course.session.generation

theorem of_runs (runs : q.runs = p.runs) (session : p.session.Leads q.session) : p.Course F q :=
  ⟨session, Nat.le_of_eq (by rw [runs]), fun _ s there => .inl ⟨s, runs ▸ there, .refl s⟩⟩

theorem refl (p : Performance α) : p.Course F p := .of_runs rfl (.refl _)

theorem trans (first : p.Course F q) (second : q.Course F r) : p.Course F r where
  session := first.session.trans second.session
  size := Nat.le_trans first.size second.size
  runs i t there := by
    rcases second.runs i t there with ⟨s, old, later⟩ | ⟨new, dated, failed⟩
    · rcases first.runs i s old with ⟨u, older, stays⟩ | ⟨new, dated, failed⟩
      · exact .inl ⟨u, older, stays.trans later⟩
      · refine .inr ⟨new, ?_, fun f ended => (later.fault f ended).elim (failed f) id⟩
        rw [later.generation]
        exact Nat.le_trans dated second.generation
    · exact .inr ⟨Nat.le_trans first.size new, dated, failed⟩

end Course

/-- What a performance asks of its scheduler on the way to a later state: it tells of a
change of the session and, in their order, of the new runs. -/
def Tells (p q : Performance α) : Prop :=
  ∃ requests : List Request, q.outbox = p.outbox ++ requests.toArray ∧
    (p.session.changes < q.session.changes → .changed ∈ requests) ∧
    requests.filterMap Request.spawned? = List.range' p.runs.size (q.runs.size - p.runs.size)

theorem Tells.of_same {p q : Performance α} (outbox : q.outbox = p.outbox)
    (changes : q.session.changes = p.session.changes) (size : q.runs.size = p.runs.size) : p.Tells q :=
  ⟨[], by simp [outbox], by simp [changes], by simp [size]⟩

theorem Tells.of_changed {p q : Performance α} (outbox : q.outbox = p.outbox.push .changed)
    (size : q.runs.size = p.runs.size) : p.Tells q :=
  ⟨[.changed], by simp [outbox], by simp, by simp [Request.spawned?, size]⟩

theorem Tells.of_addRun (p : Performance α) (position : α) (block : String × List String) :
    p.Tells (p.addRun position block) := by
  have one : (p.addRun position block).runs.size - p.runs.size = 1 := by simp [addRun]
  exact ⟨[.changed, .spawned p.runs.size], Array.ext' (by simp [addRun]), by simp, by rw [one]; rfl⟩

theorem Tells.of_dismissed (p : Performance α) : p.Tells p.dismissed := by
  refine ⟨_, rfl, by simp [dismissed], ?_⟩
  simp [dismissed, List.filterMap_map, Function.comp_def, Request.spawned?]

theorem Tells.trans {p q r : Performance α} (size : p.runs.size ≤ q.runs.size) (size' : q.runs.size ≤ r.runs.size)
    (first : p.Tells q) (second : q.Tells r) : p.Tells r := by
  obtain ⟨a, outbox, changed, spawned⟩ := first
  obtain ⟨b, outbox', changed', spawned'⟩ := second
  refine ⟨a ++ b, by simp [outbox, outbox'], fun changes => ?_, ?_⟩
  · rw [List.mem_append]
    by_cases earlier : p.session.changes < q.session.changes
    · exact .inl (changed earlier)
    · exact .inr (changed' (by omega))
  · obtain ⟨m, grown⟩ := Nat.exists_eq_add_of_le size
    obtain ⟨n, grown'⟩ := Nat.exists_eq_add_of_le size'
    rw [List.filterMap_append, spawned, spawned', grown', grown, Nat.add_sub_cancel_left, Nat.add_sub_cancel_left,
      Nat.add_assoc, Nat.add_sub_cancel_left, List.range'_append_1]

structure Continues (F : Fault → Prop) (p q : Performance α) : Prop extends p.Course F q where
  engine : p.engine.Alike q.engine
  tells : p.Tells q

namespace Continues

variable {p q r : Performance α}

theorem of_runs (runs : q.runs = p.runs) (session : p.session.Leads q.session)
    (engine : p.engine.Alike q.engine) (tells : p.Tells q) : p.Continues F q :=
  ⟨.of_runs runs session, engine, tells⟩

theorem refl (p : Performance α) : p.Continues F p := ⟨.refl p, .refl _, .of_same rfl rfl rfl⟩

theorem trans (first : p.Continues F q) (second : q.Continues F r) : p.Continues F r :=
  ⟨first.toCourse.trans second.toCourse, first.engine.trans second.engine,
    first.tells.trans first.size second.size second.tells⟩

instance : IsPreorder (Performance α) (Continues F) where
  refl := .refl
  trans _ _ _ first second := first.trans second

theorem of_aside {sounds : List (Event α)} (still : p.Aside sounds q) : p.Continues F q :=
  .of_runs still.runs (still.session ▸ .refl _) still.engine
    (.of_same still.outbox (by rw [still.session]) (by rw [still.runs]))

theorem of_modify (id : Nat) (f : Run α → Run α) (runs : q.runs = p.runs.modify id f)
    (session : q.session = p.session) (engine : q.engine = p.engine) (outbox : q.outbox = p.outbox)
    (stays : ∀ r : Run α, p.runs[id]? = some r → r.Stays F (f r)) : p.Continues F q := by
  refine ⟨⟨session ▸ .refl _, by simp [runs], fun i s there => .inl ?_⟩, engine ▸ .refl _,
    .of_same outbox (by rw [session]) (by simp [runs])⟩
  rw [runs, Array.getElem?_modify] at there
  split at there
  · rename_i same
    obtain ⟨r, old, rfl⟩ := Option.map_eq_some_iff.mp there
    exact ⟨r, old, stays r (same ▸ old)⟩
  · exact ⟨s, there, .refl s⟩

theorem of_onRun (p : Performance α) (id : Nat) {f : Run α → Run α}
    (stays : ∀ r : Run α, p.runs[id]? = some r → r.Stays F (f r)) : p.Continues F (p.onRun id f) :=
  .of_modify id f rfl rfl rfl rfl stays

theorem of_addRun (p : Performance α) (position : α) (block : String × List String) :
    p.Continues F (p.addRun position block) := by
  refine ⟨⟨p.session.runStarted_leads, by simp [Performance.addRun], fun i s there => ?_⟩, .refl _,
    .of_addRun p position block⟩
  simp only [Performance.addRun, Array.getElem?_push] at there
  split at there
  · cases there
    exact .inr ⟨by omega, Nat.le_refl _, by simp [newRun, Run.fault?]⟩
  · exact .inl ⟨s, there, .refl s⟩

theorem of_addRuns (p : Performance α) (position : α) (blocks : List (String × List String)) :
    p.Continues F (p.addRuns position blocks) := by
  induction blocks generalizing p with
  | nil => exact .refl p
  | cons block rest ih => exact (of_addRun p position block).trans (ih _)

end Continues

variable [Scalar α]

/-- Carrying out a command fails only where the engine is not set up for it. -/
theorem dispatch_fault {time : α} {id : Nat} {run : Run α} {c : Command} {p : Performance α} {f : Fault}
    (failed : (runFrom (dispatch time id run c) p).1 = .error f) : f.isSetup = true := by
  rw [runFrom_dispatch] at failed
  split at failed
  · split at failed
    · cases failed
    · split at failed
      · rename_i setup
        cases failed
        exact setup
      · cases failed
  · cases failed

theorem Settled.ongoing {time deadline : α} {id : Nat} {p q : Performance α} {outcome : Except Fault (Status α)}
    (settled : Settled time deadline id p outcome q) : ∃ status, outcome = .ok status ∧ status.isOngoing = true := by
  unfold Settled at settled
  split at settled
  · exact ⟨_, settled.1, rfl⟩
  · exact ⟨_, settled.1, rfl⟩
  · split at settled <;> exact ⟨_, settled.1, rfl⟩

theorem Done.ongoing {time : α} {id : Nat} {run : Run α} {p q : Performance α} {outcome : Except Fault (Status α)}
    {d : Deed α} (done : Done time id run p outcome q d) {status : Status α} (entered : outcome = .ok status) :
    status.isOngoing = true := by
  subst entered
  cases d with
  | play names =>
    obtain ⟨started, -, -, -, ⟨-, -, same | ⟨f, failed⟩⟩ | ⟨-, same⟩⟩ := done
    · cases same
      rfl
    · cases failed
    · cases same
      split <;> rfl
  | settle =>
    obtain ⟨_, same, ongoing⟩ := Settled.ongoing done
    cases same
    exact ongoing
  | adjust | sound =>
    obtain rfl := Persists.eq_running done.1
    rfl
  | _ =>
    cases done.1
    rfl

def Abiding (p : Performance α) (id : Nat) : Prop := ∀ r, p.runs[id]? = some r → r.isLive = true

namespace Abiding

variable {p q : Performance α} {id : Nat}

omit [Scalar α] in
theorem of_found {run : Run α} (found : p.runs[id]? = some run) (live : run.isLive = true) : p.Abiding id :=
  fun _ there => Option.some.inj (found.symm.trans there) ▸ live

omit [Scalar α] in
theorem aside {sounds : List (Event α)} (abides : p.Abiding id) (still : p.Aside sounds q) : q.Abiding id :=
  fun r there => abides r (still.runs ▸ there)

omit [Scalar α] in
theorem onRun (abides : p.Abiding id) {f : Run α → Run α} (status : ∀ r : Run α, (f r).status = r.status) :
    (p.onRun id f).Abiding id := by
  intro r there
  simp only [Performance.onRun, Array.getElem?_modify, if_true] at there
  obtain ⟨s, old, rfl⟩ := Option.map_eq_some_iff.mp there
  rw [Run.isLive, status]
  exact abides s old

omit [Scalar α] in
theorem addRuns (abides : p.Abiding id) (position : α) (blocks : List (String × List String)) :
    (p.addRuns position blocks).Abiding id := by
  obtain ⟨changes, outbox, added, -⟩ := addRuns_eq position p blocks
  rw [added]
  intro r there
  rw [Array.getElem?_append] at there
  split at there
  · exact abides r there
  · have listed := List.mem_of_getElem? (List.getElem?_toArray.symm.trans there)
    obtain ⟨block, -, rfl⟩ := List.mem_map.mp listed
    rfl

theorem settled {time deadline : α} {outcome : Except Fault (Status α)} (abides : p.Abiding id)
    (settled : Settled time deadline id p outcome q) : q.Abiding id := by
  unfold Settled at settled
  split at settled
  · exact abides.aside settled.2
  · exact abides.aside settled.2
  · split at settled
    · refine Abiding.aside ?_ settled.2
      exact abides.onRun fun _ => rfl
    · exact abides.aside settled.2

/-- A command does not end the run that reads it. -/
theorem done {time : α} {run : Run α} {outcome : Except Fault (Status α)} {d : Deed α}
    (abides : p.Abiding id) (done : Done time id run p outcome q d) : q.Abiding id := by
  cases d with
  | nothing => exact abides.aside done.2
  | adjust => exact abides.aside done.2
  | pause seconds beats => exact abides.aside done.2
  | sound event =>
    obtain ⟨-, sounds, heard, -⟩ := done
    exact abides.aside heard
  | play names =>
    obtain ⟨started, -, added, -⟩ := done
    exact (abides.addRuns _ started).aside added
  | openLoop passes =>
    refine Abiding.aside ?_ done.2
    exact abides.onRun fun _ => rfl
  | closeLoop =>
    refine (abides.onRun fun r => ?_).aside done.2
    unfold Run.closeLoop
    split
    · rfl
    · split <;> rfl
  | settle => exact abides.settled done
  | tempo bpm => exact Abiding.aside (p := { p with session := p.session.setBpm bpm }) abides done.2

end Abiding

namespace Continues

variable {p q : Performance α}

theorem of_counted (p : Performance α) (generation : Nat) (position : α) :
    p.Continues F (p.counted generation position) := by
  refine .of_runs rfl (p.session.runFinished_leads generation position) (.refl _) ?_
  cases current : generation == p.session.generation with
  | true => exact .of_changed (by simp [counted, current]) rfl
  | false => exact .of_same (by simp [counted, current]) (by simp [counted, Session.runFinished, current]) rfl

theorem of_closed (p : Performance α) (id : Nat) (run : Run α) {outcome : Outcome α}
    (failed : ∀ f, outcome = .failed f → F f) : p.Continues F (p.closed id run outcome) := by
  refine (of_counted p run.generation run.position).trans
    (of_onRun _ id fun r _ => ⟨rfl, fun f ended => .inr (failed f ?_), fun _ => rfl⟩)
  unfold Run.fault? Run.withStatus at ended
  cases outcome with
  | failed g =>
    cases ended
    rfl
  | _ => cases ended

theorem of_entered {p : Performance α} {id : Nat} (abides : p.Abiding id) {outcome : Except Fault (Status α)}
    (failed : ∀ f, outcome = .error f → F f) (ongoing : ∀ status, outcome = .ok status → status.isOngoing = true) :
    p.Continues F (p.entered id outcome) := by
  cases outcome with
  | ok status =>
    refine of_onRun p id fun r there => .of_live rfl ?_ (abides r there)
    have begun := ongoing status rfl
    cases status with
    | ended outcome => cases begun
    | _ => rfl
  | error f =>
    dsimp only [entered]
    cases p.runs[id]? with
    | none => exact .refl p
    | some run => exact of_closed p id run (by rintro _ ⟨⟩; exact failed f rfl)

theorem of_settled {time deadline : α} {id : Nat} {outcome : Except Fault (Status α)}
    (settled : Settled time deadline id p outcome q) : p.Continues F q := by
  unfold Settled at settled
  split at settled
  · exact of_aside settled.2
  · exact of_aside settled.2
  · split at settled
    · refine trans ?_ (of_aside settled.2)
      exact of_onRun p id fun r _ => .of_status rfl rfl
    · exact of_aside settled.2

theorem of_done {time : α} {id : Nat} {run : Run α} {outcome : Except Fault (Status α)} {d : Deed α}
    (done : Done time id run p outcome q d) : p.Continues F q := by
  cases d with
  | nothing => exact of_aside done.2
  | adjust => exact of_aside done.2
  | pause seconds beats => exact of_aside done.2
  | sound event =>
    obtain ⟨-, sounds, heard, -⟩ := done
    exact of_aside heard
  | play names =>
    obtain ⟨started, -, added, -⟩ := done
    exact (of_addRuns p _ started).trans (of_aside added)
  | openLoop passes =>
    refine trans ?_ (of_aside done.2)
    exact of_onRun p id fun r _ => .of_status rfl rfl
  | closeLoop =>
    refine (of_onRun p id fun r _ => ?_).trans (of_aside done.2)
    unfold Run.closeLoop
    split
    · exact .refl r
    · split <;> exact .of_status rfl rfl
  | settle => exact of_settled done
  | tempo bpm =>
    refine trans ?_ (of_aside done.2)
    exact .of_runs rfl (p.session.setBpm_leads bpm) (.refl _) (.of_same rfl rfl rfl)

end Continues

section operations

variable (setup : ∀ f : Fault, f.isSetup = true → F f) (p : Performance α)

include setup in
theorem step_continues (time : α) {id : Nat} (abides : p.Abiding id) : p.Continues F (exec (step time id) p) := by
  cases found : p.runs[id]? with
  | none =>
    have idle : exec (step time id) p = p := by
      change (runFrom (step time id) p).2 = p
      simp [step, found]
    rw [idle]
    exact .refl p
  | some run =>
    rw [exec_step found]
    have advanced : p.Continues F (p.onRun id Run.advance) := .of_onRun p id fun r _ => .of_status rfl rfl
    split
    · exact .of_closed p id run (by simp)
    · split
      · exact advanced
      · rename_i line _ c _
        have done := dispatch_done time id run.advance c (p.onRun id Run.advance)
        have kept := (abides.onRun (f := Run.advance) fun _ => rfl).done done
        refine (advanced.trans (.of_done done)).trans (.of_entered kept (fun f failed => ?_) fun _ => done.ongoing)
        exact setup f (dispatch_fault failed)

theorem wake_continues (time : α) (id : Nat) {w : Wake} (passed : ∀ f, w = .fail f → F f) :
    p.Continues F (exec (wake time id w) p) := by
  cases found : p.runs[id]? with
  | none =>
    change p.Continues F (runFrom (wake time id w) p).2
    rw [wake, runFrom_get_bind, found]
    exact .refl p
  | some run =>
    have woken := wake_woken found time w
    generalize exec (wake time id w) p = q at woken ⊢
    cases woken with
    | vanishes created why => exact .of_onRun p id fun r _ => .of_unfailed rfl rfl fun _ => rfl
    | closes begun why =>
      refine .of_closed p id run fun f failed => ?_
      rcases why with ⟨-, rfl⟩ | ⟨g, told, rfl⟩
      · cases failed
      · cases failed
        exact passed f told
    | ignores spent => exact .refl p
    | resumes clock position still live =>
      refine Continues.trans ?_ (.of_aside still)
      exact .of_modify id (fun r => { r with position := position r, status := .running })
        rfl rfl rfl rfl fun r there => .of_live rfl rfl (Abiding.of_found found live r there)
    | settles waits settled =>
      obtain ⟨status, same, ongoing⟩ := settled.ongoing
      have abides := Abiding.of_found found (by simp [Run.isLive, waits])
      refine (Continues.of_settled settled).trans (.of_entered (abides.settled settled) ?_ ?_)
      · rw [same]
        simp
      · rw [same]
        rintro _ ⟨⟩
        exact ongoing

theorem spawn_continues (name : String) (position : α) : p.Continues F (runFrom (spawn name position) p).2 := by
  rcases spawn_cases p name position with still | ⟨lines, -, still⟩
  · exact .of_aside still
  · exact (Continues.of_addRun p position _).trans (.of_aside still)

theorem begin_continues (time : α) : p.Continues F (runFrom (begin time) p).2 := by
  refine .trans ?_ (spawn_continues (p.opened time) mainName 0)
  exact .of_runs rfl p.session.start_leads (.refl _) (.of_same rfl rfl rfl)

theorem stop_continues : p.Continues F (runFrom stop p).2 := by
  refine .trans ?_ (.of_aside (stop_aside p))
  exact .of_runs rfl p.session.stop_leads (.refl _) (.of_changed rfl rfl)

theorem forceStop_continues : p.Continues F (runFrom forceStop p).2 := by
  have dismissed : p.Continues F p.dismissed := .of_runs rfl (.refl _) (.refl _) (.of_dismissed p)
  rcases forceStop_cases p with ⟨q, ran, still⟩ | ⟨f, q, ran, still⟩
  · rw [ran]
    refine .trans (.trans dismissed ?_) (.of_aside still)
    exact .of_runs rfl p.session.reset_leads (.refl _) (.of_changed rfl rfl)
  · rw [ran]
    exact .trans dismissed (.of_aside still)

theorem normalizeVolumes_continues : p.Continues F (runFrom normalizeVolumes p).2 :=
  .of_aside (normalizeVolumes_aside p).1

end operations

def isRunning (p : Performance α) (id : Nat) : Bool := match p.runs[id]? with
  | some r => match r.status with
    | .running => true
    | _ => false
  | none => false

/-- What a run makes of a performance when its turn comes, at whatever time: it reads its next
line, or is taken out of what it waits for. -/
def Turned (time : α) (id : Nat) (p q : Performance α) : Prop :=
  if p.isRunning id then q = exec (step time id) p else ∃ w, q = exec (wake time id w) p

omit [Scalar α] in
theorem abiding_of_isRunning {p : Performance α} {id : Nat} (running : p.isRunning id = true) : p.Abiding id := by
  intro r there
  unfold isRunning at running
  rw [there] at running
  cases status : r.status <;> simp [status] at running
  simp [Run.isLive, status]

theorem Turned.continues {time : α} {id : Nat} {p q : Performance α} (turned : p.Turned time id q) :
    p.Continues (fun _ => True) q := by
  unfold Turned at turned
  split at turned
  · exact turned ▸ p.step_continues (fun _ _ => trivial) time (abiding_of_isRunning ‹_›)
  · obtain ⟨w, rfl⟩ := turned
    exact p.wake_continues time id fun _ _ => trivial

/-- A turn is that of a run that is there; without one nothing happens. -/
theorem Turned.cases {time : α} {id : Nat} {p q : Performance α} (turned : p.Turned time id q) :
    (p.runs[id]? = none ∧ q = p) ∨ ∃ run, p.runs[id]? = some run ∧
      (run.status = .running ∧ q = exec (step time id) p ∨ run.status ≠ .running ∧ ∃ w, Woken time id w run p q) := by
  unfold Turned isRunning at turned
  cases found : p.runs[id]? with
  | none =>
    simp only [found] at turned
    obtain ⟨w, rfl⟩ := turned
    refine .inl ⟨rfl, ?_⟩
    change (runFrom (wake time id w) p).2 = p
    rw [wake, runFrom_get_bind, found]
    rfl
  | some run =>
    refine .inr ⟨run, rfl, ?_⟩
    simp only [found] at turned
    cases status : run.status with
    | running =>
      simp only [status] at turned
      exact .inl ⟨rfl, turned⟩
    | _ =>
      simp only [status] at turned
      obtain ⟨w, rfl⟩ := turned
      exact .inr ⟨by simp, w, wake_woken found time w⟩

/-- A session for which a run is to wait is not settled. -/
theorem Settled.unsettled {time deadline : α} {id : Nat} {p q : Performance α} {outcome : Except Fault (Status α)}
    (settled : Settled time deadline id p outcome q) {limit : α} (waits : outcome = .ok (.settling limit)) :
    q.session.settled 1 = false := by
  unfold Settled at settled
  split at settled
  · rename_i verdict
    rw [settled.2.session]
    unfold Session.verdict at verdict
    split at verdict
    · cases verdict
    · exact Bool.eq_false_iff.mpr ‹_›
  · cases settled.1.symm.trans waits
  · split at settled
    · cases settled.1.symm.trans waits
    · cases settled.1.symm.trans waits

theorem Done.unsettled {time : α} {id : Nat} {run : Run α} {p q : Performance α} {outcome : Except Fault (Status α)}
    {d : Deed α} (done : Done time id run p outcome q d) {limit : α} (waits : outcome = .ok (.settling limit)) :
    q.session.settled 1 = false := by
  cases d with
  | settle => exact Settled.unsettled done waits
  | play names =>
    obtain ⟨started, -, -, -, ⟨-, -, same | ⟨f, same⟩⟩ | ⟨-, same⟩⟩ := done
    · cases same.symm.trans waits
    · cases same.symm.trans waits
    · have same := Except.ok.inj (same.symm.trans waits)
      split at same <;> cases same
  | adjust | sound =>
    subst waits
    cases Persists.eq_running done.1
  | _ => cases done.1.symm.trans waits

omit [Scalar α] in
theorem onRun_status {p : Performance α} {id : Nat} {f : Run α → Run α} {r : Run α}
    (there : (p.onRun id f).runs[id]? = some r) {status : Status α} (enters : ∀ r, (f r).status = status) :
    r.status = status := by
  simp only [onRun, Array.getElem?_modify, if_true] at there
  obtain ⟨run, -, rfl⟩ := Option.map_eq_some_iff.mp there
  exact enters run

theorem closed_status {p : Performance α} {id : Nat} {run r : Run α} {outcome : Outcome α}
    (there : (p.closed id run outcome).runs[id]? = some r) : r.status = .ended outcome :=
  onRun_status there fun _ => rfl

/-- A run that a deed has not ended is in the status that the deed asks for. -/
theorem entered_status {p : Performance α} {id : Nat} {outcome : Except Fault (Status α)} {r : Run α}
    (there : (p.entered id outcome).runs[id]? = some r) (lasts : ∀ ending, r.status ≠ .ended ending) :
    outcome = .ok r.status ∧ (p.entered id outcome).session = p.session := by
  cases outcome with
  | ok status =>
    have same : r.status = status := onRun_status there fun _ => rfl
    exact ⟨congrArg _ same.symm, rfl⟩
  | error f =>
    unfold entered at there ⊢
    dsimp only at there
    split at there
    · exact absurd (closed_status there) (lasts _)
    · rename_i missing
      cases missing.symm.trans there

/-- A run that waits for something when its turn has ended was asked to by the command that it
has read, or by the look at the session that it has taken. -/
theorem Turned.asked {time : α} {id : Nat} {p q : Performance α} (turned : p.Turned time id q) {r : Run α}
    (there : q.runs[id]? = some r) (idle : r.status ≠ .running) (lasts : ∀ ending, r.status ≠ .ended ending) :
    ∃ run n, p.runs[id]? = some run ∧ q.session = n.session ∧
      ((∃ deadline, run.status = .settling deadline ∧ Settled time deadline id p (.ok r.status) n) ∨
        ∃ line c, run.status = .running ∧ run.next? p.session = some line ∧ Command.parse? line = some c ∧
          Done time id run.advance (p.onRun id Run.advance) (.ok r.status) n
            (c.deed p.session.bpm p.engine.hasSample run.name run.position)) := by
  rcases turned.cases with ⟨missing, rfl⟩ | ⟨run, found, ⟨running, rfl⟩ | ⟨apart, w, woken⟩⟩
  · cases missing.symm.trans there
  · rw [exec_step found] at there ⊢
    split at there
    · exact absurd (closed_status there) (lasts _)
    · rename_i line next
      split at there
      · simp only [onRun, Array.getElem?_modify, if_true, found, Option.map_some, Option.some.injEq] at there
        subst there
        exact absurd running idle
      · rename_i c parsed
        obtain ⟨waiting, same⟩ := entered_status there lasts
        have done := dispatch_done time id run.advance c (p.onRun id Run.advance)
        rw [waiting] at done
        exact ⟨run, _, found, same, .inr ⟨line, c, running, next, parsed, done⟩⟩
  · cases woken with
    | vanishes created why => exact absurd (onRun_status there fun _ => rfl) (lasts _)
    | closes begun why => exact absurd (closed_status there) (lasts _)
    | ignores spent =>
      obtain rfl := Option.some.inj (found.symm.trans there)
      rcases spent with running | ⟨outcome, ended⟩
      · exact absurd running apart
      · exact absurd ended (lasts _)
    | resumes clock position still =>
      rw [still.runs] at there
      exact absurd (onRun_status there fun _ => rfl) idle
    | settles waits settled =>
      obtain ⟨waiting, same⟩ := entered_status there lasts
      exact ⟨run, _, found, same, .inl ⟨_, waits, waiting ▸ settled⟩⟩

/-- A run that waits for the session when its turn has ended waits because the session is not
settled. -/
theorem Turned.unsettled {time : α} {id : Nat} {p q : Performance α} (turned : p.Turned time id q) {r : Run α}
    {limit : α} (there : q.runs[id]? = some r) (waits : r.status = .settling limit) :
    q.session.settled 1 = false := by
  obtain ⟨run, n, -, same, ⟨deadline, -, settled⟩ | ⟨line, c, -, -, -, done⟩⟩ :=
    turned.asked there (by simp [waits]) (by simp [waits])
  · rw [same]
    exact settled.unsettled (congrArg _ waits)
  · rw [same]
    exact done.unsettled (congrArg _ waits)

/-- Whether a run looks in its next turn whether the session is settled: it waits for that, or
is about to read that it is to. -/
def isFinishing (p : Performance α) (id : Nat) : Bool := match p.runs[id]? with
  | none => false
  | some run => match run.status with
    | .settling _ => true
    | .running => ((run.next? p.session).bind Command.parse?).any (·.verb == "waitforfinish")
    | _ => false

/-- A run is to wait for its sound to fade only when the session is settled. -/
theorem Settled.settled {time deadline : α} {id : Nat} {p q : Performance α} {outcome : Except Fault (Status α)}
    (settled : Settled time deadline id p outcome q) {seconds : α} {beats : Option α}
    (pauses : outcome = .ok (.waiting seconds beats)) : q.session.settled 1 = true := by
  unfold Settled at settled
  split at settled
  · cases settled.1.symm.trans pauses
  · cases settled.1.symm.trans pauses
  · rename_i verdict
    split at settled
    · rw [settled.2.session]
      unfold Session.verdict at verdict
      split at verdict
      · assumption
      · split at verdict <;> cases verdict
    · cases settled.1.symm.trans pauses

/-- A run that has looked whether the session is settled and waits for its sound to fade has seen
that it is. -/
theorem Turned.settled {time : α} {id : Nat} {p q : Performance α} (turned : p.Turned time id q)
    (looks : p.isFinishing id = true) {r : Run α} {seconds : α} {beats : Option α} (there : q.runs[id]? = some r)
    (pauses : r.status = .waiting seconds beats) : q.session.settled 1 = true := by
  obtain ⟨run, n, found, same, ⟨deadline, -, settled⟩ | ⟨line, c, running, next, parsed, done⟩⟩ :=
    turned.asked there (by simp [pauses]) (by simp [pauses])
  · rw [same]
    exact settled.settled (congrArg _ pauses)
  · have verb : c.verb = "waitforfinish" := by simpa [isFinishing, found, running, next, parsed] using looks
    have deed : c.deed p.session.bpm p.engine.hasSample run.name run.position = .settle := by
      simp [Command.deed, verb]
    rw [deed] at done
    rw [same]
    exact Settled.settled done (congrArg _ pauses)

end Performance

end Partita
