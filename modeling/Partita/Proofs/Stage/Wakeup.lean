import Mathlib.Algebra.Order.Ring.Rat
import Partita.Proofs.Performance.Exact
import Partita.Proofs.Stage.Interleaving

/-! No wake-up is lost. A task that waits for a session to settle has the next change listened
to that is announced after its look at the session. While that change has not come, the session
is as the task saw it as far as it matters; and once it comes, the listener is told. -/
namespace Partita

variable {α : Type} [Scalar α]

namespace Session

omit [Scalar α] in
theorem settled_eq_false {s : Session α} {baseline : Int} :
    s.settled baseline = false ↔ s.playing = true ∧ baseline < s.active := by
  simp [settled]

omit [Scalar α] in
theorem settled_eq_true {s : Session α} {baseline : Int} :
    s.settled baseline = true ↔ s.playing = false ∨ s.active ≤ baseline := by
  simp only [settled, Bool.not_eq_true', Bool.and_eq_false_iff, decide_eq_false_iff_not, Int.not_lt]

omit [Scalar α] in
/-- A session does not settle without a change being announced. -/
theorem Leads.unsettled {s t : Session α} (leads : s.Leads t) (silent : t.changes = s.changes) {baseline : Int}
    (unsettled : s.settled baseline = false) : t.settled baseline = false := by
  obtain ⟨playing, busy⟩ := settled_eq_false.mp unsettled
  obtain ⟨same, goes⟩ := leads.unannounced silent
  exact settled_eq_false.mpr ⟨goes playing, same ▸ busy⟩

end Session

namespace Stage

variable {s t : Stage α} {task : Nat} {frame : Frame α} {rest : List (Frame α)}

theorem Follows.leads {F : Fault → Prop} (follows : s.Follows F t) {k : Nat} {x : Part α}
    (found : s.parts[k]? = some x) :
    ∃ y, t.parts[k]? = some y ∧ x.performance.session.Leads y.performance.session := by
  have inside := (Array.getElem?_eq_some_iff.mp found).1
  have there := Array.getElem?_eq_getElem (Nat.lt_of_lt_of_le inside follows.size)
  refine ⟨_, there, ?_⟩
  rcases follows.parts k _ there with ⟨y, old, -, course⟩ | ⟨new, -⟩
  · obtain rfl := Option.some.inj (found.symm.trans old)
    exact course.session
  · omega

/-- A task listens for the change after those announced so far, or the session was not settled
when the last of these was. -/
def Watches (s : Stage α) (inner part : Nat) (baseline : Int) : Prop :=
  s.loop.isDone inner = true ∨ ∃ epoch x, s.loop.frames inner = [.listen part epoch] ∧ s.parts[part]? = some x ∧
    epoch ≤ x.performance.session.changes ∧
    (x.performance.session.changes = epoch → x.performance.session.settled baseline = false)

/-- A stage on which nobody sleeps through a change of a session. -/
structure Alert (s : Stage α) : Prop where
  stacked : ∀ c, Frame.Stacked (s.loop.frames c)
  watching : ∀ c inner waiter timer rest, s.loop.frames c = .within inner waiter timer :: rest →
    ∃ call part baseline, rest = [call] ∧ call.watched? = some (part, baseline) ∧ s.Watches inner part baseline
  listening : ∀ c part epoch rest a, s.loop.frames c = .listen part epoch :: rest → s.loop.awaits? c = some a →
    s.loop.isDone a = true ∨ ⟨part, epoch, a⟩ ∈ s.listeners
  cells : ∀ x ∈ s.listeners, x.cell < s.loop.cells.size
  heard : s.Heard

theorem Watches.serves {inner part : Nat} {baseline : Int} (watches : s.Watches inner part baseline)
    (serves : s.Serves t) : t.Watches inner part baseline := by
  rcases watches with ended | ⟨epoch, x, calls, found, earlier, unsettled⟩
  · exact .inl (serves.loop.done inner ended)
  · obtain ⟨y, there, leads⟩ := serves.follows.leads found
    refine .inr ⟨epoch, y, ?_, there, Nat.le_trans earlier leads.changes, fun silent => ?_⟩
    · rw [serves.loop.old inner (Loop.lt_size_of_frames calls), calls]
    · have before := leads.changes
      exact leads.unsettled (by omega) (unsettled (by omega))

theorem Alert.serves (alert : s.Alert) (serves : s.Serves t) : t.Alert where
  stacked := serves.loop.stacked alert.stacked
  watching c inner waiter timer rest calls := by
    rcases serves.loop.frames c with same | newly
    · obtain ⟨call, part, baseline, alone, watched, watches⟩ :=
        alert.watching c inner waiter timer rest (same.symm.trans calls)
      exact ⟨call, part, baseline, alone, watched, watches.serves serves⟩
    · cases newly.mem (calls ▸ List.mem_cons_self)
  listening c part epoch rest a calls awaits := by
    have awaits := serves.loop.awaits c a awaits
    have there : c < s.loop.cells.size := Loop.lt_size_of_awaits awaits
    rw [serves.loop.old c there] at calls
    rcases alert.listening c part epoch rest a calls awaits with ended | listed
    · exact .inl (serves.loop.done a ended)
    · exact (serves.kept _ listed (alert.cells _ listed)).symm
  cells x member := Nat.lt_of_lt_of_le (alert.cells x (serves.fewer x member)) serves.loop.size
  heard := serves.heard alert.heard

omit [Scalar α] in
/-- A task that listens goes on listening, or is done. -/
theorem Becomes.listener {part epoch : Nat} {next : List (Frame α)}
    (becomes : Becomes s t task (.listen part epoch) [] next) :
    t.loop.isDone task = true ∨ next = [.listen part epoch] := by
  cases becomes with
  | leaves last => exact .inl (last rfl)
  | goes next => exact absurd rfl (next.not_listen part epoch)
  | waits base => cases base
  | watches base => cases base
  | listens same => exact .inr rfl

omit [Scalar α] in
/-- A task that comes to wait for a change or within a time limit has listened for that change
before, or waits for a session that is not settled. -/
theorem Becomes.unquiet {top : Frame α} {next : List (Frame α)} (stacked : Frame.Stacked (frame :: rest))
    (becomes : Becomes s t task frame rest (top :: next)) (loud : top.isQuiet = false) (parts : t.parts = s.parts) :
    (∃ part epoch, top = .listen part epoch ∧ frame :: rest = top :: next) ∨
      ∃ inner waiter timer call part baseline, top = .within inner waiter timer ∧ next = [call] ∧
        call.watched? = some (part, baseline) ∧ t.Watches inner part baseline := by
  generalize entered : top :: next = frames at becomes
  cases becomes with
  | leaves last =>
    rcases stacked.rest with rfl | ⟨-, base, rfl, outermost⟩
    · cases entered
    · cases entered
      cases (Frame.isQuiet_of_isBase outermost).symm.trans loud
  | goes next =>
    cases entered
    cases next.isQuiet.symm.trans loud
  | waits base next inside quiet =>
    cases entered
    cases quiet.symm.trans loud
  | watches base next watched found unsettled listens =>
    cases entered
    obtain rfl := stacked.alone base
    exact .inr ⟨_, _, _, _, _, _, rfl, rfl, watched,
      .inr ⟨_, _, listens, parts ▸ found, Nat.le_refl _, fun _ => unsettled⟩⟩
  | listens same =>
    cases entered
    exact .inl ⟨_, _, same, rfl⟩

omit [Scalar α] in
theorem Watches.resumes {inner part : Nat} {baseline : Int} (watches : s.Watches inner part baseline)
    (calls : s.loop.frames task = frame :: rest) (resumes : s.Resumes task frame rest t) :
    t.Watches inner part baseline := by
  rcases watches with ended | ⟨epoch, x, listens, found, earlier, unsettled⟩
  · exact .inl (resumes.done inner ended)
  · by_cases same : inner = task
    · subst same
      cases calls.symm.trans listens
      refine resumes.becomes.listener.imp_right fun still => ?_
      exact ⟨epoch, x, still, resumes.parts ▸ found, earlier, unsettled⟩
    · refine .inr ⟨epoch, x, ?_, resumes.parts ▸ found, earlier, unsettled⟩
      rw [resumes.others inner (Loop.lt_size_of_frames listens) same, listens]

omit [Scalar α] in
theorem Alert.resumes (alert : s.Alert) (calls : s.loop.frames task = frame :: rest)
    (resumes : s.Resumes task frame rest t) : t.Alert := by
  have stacked : Frame.Stacked (frame :: rest) := calls ▸ alert.stacked task
  refine ⟨resumes.stacked calls alert.stacked, fun c inner waiter timer rest' waits => ?_,
    fun c part epoch rest' a listens awaits => ?_, fun x member => ?_, fun x member y found => ?_⟩
  · by_cases own : c = task
    · subst own
      rcases (waits ▸ resumes.becomes).unquiet stacked rfl resumes.parts with ⟨_, _, listens, -⟩ | watcher
      · cases listens
      · obtain ⟨_, _, _, call, part, baseline, same, alone, watched, watches⟩ := watcher
        cases same
        exact ⟨call, part, baseline, alone, watched, watches⟩
    · rcases resumes.frames own with same | newly
      · obtain ⟨call, part, baseline, alone, watched, watches⟩ :=
          alert.watching c inner waiter timer rest' (same.symm.trans waits)
        exact ⟨call, part, baseline, alone, watched, watches.resumes calls resumes⟩
      · cases newly.mem (waits ▸ List.mem_cons_self)
  · have known (awaits : s.loop.awaits? c = some a) (listens : s.loop.frames c = .listen part epoch :: rest') :
        t.loop.isDone a = true ∨ ⟨part, epoch, a⟩ ∈ t.listeners :=
      (alert.listening c part epoch rest' a listens awaits).imp (resumes.done a) (resumes.kept _)
    by_cases own : c = task
    · subst own
      rcases (listens ▸ resumes.becomes).unquiet stacked rfl resumes.parts with ⟨_, _, -, same⟩ | watcher
      · rcases resumes.awaits c a awaits with awaits | ⟨-, listed⟩
        · exact known awaits (calls.trans same)
        · exact .inr (listed part epoch (List.cons.inj same).1)
      · obtain ⟨_, _, _, _, _, _, other, -⟩ := watcher
        cases other
    · have awaits := (resumes.awaits c a awaits).resolve_right fun here => own here.1
      rw [resumes.others c (Loop.lt_size_of_awaits awaits) own] at listens
      exact known awaits listens
  · rcases resumes.added x member with old | ⟨there, -⟩
    · exact Nat.lt_of_lt_of_le (alert.cells x old) resumes.size
    · exact there
  · rw [resumes.parts] at found
    rcases resumes.added x member with old | ⟨-, heard⟩
    · exact alert.heard x old y found
    · exact heard y found

/-- Whatever happens, nobody sleeps through a change. -/
theorem Alert.happens {allowed : SessionCue α → Prop} (alert : s.Alert) (happens : s.Happens allowed t) : t.Alert := by
  rcases happens.cases with idles | ⟨part, cue, -, operates⟩ | ⟨task, frame, rest, calls, m, affects, resumes⟩
  · exact alert.serves idles.serves
  · exact alert.serves (operates.serves fun p _ same => same ▸ (sessionAct_ongoing cue p).1)
  · exact (alert.serves affects.serves).resumes (affects.frames calls) resumes

theorem conducted_alert (p : Performance α) (engine : Engine α) (cues : List (Cue α)) :
    (conducted p engine cues).Alert where
  stacked c := by
    rcases conducted_frames p engine cues c with none | one
    · rw [none]
      exact .none
    · rw [one]
      exact .one _
  watching c inner waiter timer rest calls := by
    rcases conducted_frames p engine cues c with none | one
    · cases none.symm.trans calls
    · cases one.symm.trans calls
  listening c part epoch rest a calls _ := by
    rcases conducted_frames p engine cues c with none | one
    · cases none.symm.trans calls
    · cases one.symm.trans calls
  cells x member := by cases member
  heard x member := by cases member

theorem waitWithin_result? (s : Stage α) {task c : Nat} (frames : List (Frame α)) (inner : Frame α) (seconds : α)
    (inside : c < s.loop.cells.size) : (s.waitWithin task frames inner seconds).loop.result? c = s.loop.result? c := by
  have limited := s.loop.newPlain_stays.trans (Loop.callLater_stays _ seconds (.resolve s.loop.cells.size))
  unfold waitWithin
  refine (Loop.result?_await ..).trans ((Loop.result?_onDone ..).trans ?_)
  exact (Loop.result?_newCell _ _ (Nat.lt_of_lt_of_le inside limited.size)).trans (Loop.result?_newCell _ _ inside)

/-- A wait that ends with a settled session ends when the session is settled. -/
theorem deliverSettle_returns {part : Nat} {baseline : Int} {timeout : α} {deadline : Option α} {x : Part α}
    (inside : task < s.loop.cells.size) (found : s.parts[part]? = some x) (r : Reply (Value α))
    (pending : s.loop.result? task = none)
    (returns : (s.deliverSettle task [] part baseline timeout deadline r).loop.result? task =
      some (.value (.flag true))) :
    x.performance.session.settled baseline = true := by
  unfold deliverSettle at returns
  dsimp only at returns
  split at returns
  · cases Loop.result?_leave pending returns
  · cases Loop.result?_leave pending returns
  · rw [found] at returns
    dsimp only [Option.map_some] at returns
    split at returns
    · rename_i verdict
      unfold Session.verdict at verdict
      split at verdict
      · assumption
      · split at verdict <;> cases verdict
    · cases Loop.result?_leave pending returns
    · rw [waitWithin_result? s _ _ _ inside] at returns
      cases pending.symm.trans returns

omit [Scalar α] in
/-- A task that waits, within a time limit, for a session to settle: the task that listens on its
behalf, the part, and the runs with which its session may settle. -/
def waits? (s : Stage α) (c : Nat) : Option (Nat × Nat × Int) := match s.loop.frames c with
  | .within inner _ _ :: call :: _ => call.watched?.map fun (part, baseline) => (inner, part, baseline)
  | _ => none

omit [Scalar α] in
theorem waits?_eq_some {c inner part : Nat} {baseline : Int} (waits : s.waits? c = some (inner, part, baseline)) :
    ∃ waiter timer call rest, s.loop.frames c = .within inner waiter timer :: call :: rest ∧
      call.watched? = some (part, baseline) := by
  unfold waits? at waits
  split at waits
  · rename_i calls
    obtain ⟨⟨_, _⟩, watched, same⟩ := Option.map_eq_some_iff.mp waits
    cases same
    exact ⟨_, _, _, _, calls, watched⟩
  · cases waits

/-- A task that is about to look whether a session is settled: the part, and the runs with which
its session may settle. A run waits for itself to be the only one. -/
def looks? (s : Stage α) (c : Nat) : Option (Nat × Int) := match s.loop.frames c with
  | .settle part baseline _ _ :: _ => some (part, baseline)
  | .run part run :: _ =>
    if (s.parts[part]?.map (·.performance)).any (·.isFinishing run) then some (part, 1) else none
  | _ => none

omit [Scalar α] in
def succeeded (s : Stage α) (c : Nat) : Bool := match s.loop.result? c with
  | some (.value (.flag success)) => success
  | _ => false

omit [Scalar α] in
def pauses (s : Stage α) (part run : Nat) : Bool :=
  match s.parts[part]?.bind (·.performance.runs[run]?) with
  | some r => match r.status with
    | .waiting .. => true
    | _ => false
  | none => false

omit [Scalar α] in
/-- Whether a task that looked has ended its wait with success: it has, or its run goes on to wait
for the sound to fade. -/
def passes (s : Stage α) (c : Nat) (t : Stage α) : Bool := match s.loop.frames c with
  | .settle .. :: _ => t.succeeded c
  | .run part run :: _ => t.pauses part run
  | _ => false

omit [Scalar α] in
theorem pauses_eq_true {part run : Nat} {x : Part α} (found : s.parts[part]? = some x)
    (pauses : s.pauses part run = true) :
    ∃ r seconds beats, x.performance.runs[run]? = some r ∧ r.status = .waiting seconds beats := by
  unfold Stage.pauses at pauses
  rw [found] at pauses
  split at pauses
  · rename_i r there
    split at pauses
    · exact ⟨r, _, _, there, ‹_›⟩
    · cases pauses
  · cases pauses

/-- A wait that ends with success ends when the session is settled. -/
theorem deliverSettle_succeeded {c part : Nat} {baseline : Int} {timeout : α} {deadline : Option α} {x : Part α}
    (calls : s.loop.frames c = [.settle part baseline timeout deadline]) (pending : s.loop.isDone c = false)
    (r : Reply (Value α)) (succeeds : (s.deliverSettle c [] part baseline timeout deadline r).succeeded c = true)
    (found : (s.deliverSettle c [] part baseline timeout deadline r).parts[part]? = some x) :
    x.performance.session.settled baseline = true := by
  rw [(deliverSettle_resumes calls r).parts] at found
  have unfinished : s.loop.result? c = none := Option.isNone_iff_eq_none.mp (Option.isSome_eq_false_iff.mp pending)
  unfold succeeded at succeeds
  split at succeeds
  · rename_i success returns
    exact deliverSettle_returns (Loop.lt_size_of_frames calls) found r unfinished (succeeds ▸ returns)
  · cases succeeds

/-- A run that goes on after its look at the session goes on when the session is settled. -/
theorem deliverRun_pauses {c part run : Nat} {x y : Part α} (calls : s.loop.frames c = .run part run :: rest)
    (found : s.parts[part]? = some x) (looks : x.performance.isFinishing run = true) (r : Reply (Value α))
    (pauses : (s.deliverRun c rest part run r).pauses part run = true)
    (there : (s.deliverRun c rest part run r).parts[part]? = some y) :
    y.performance.session.settled 1 = true := by
  obtain ⟨run', seconds, beats, listed, status⟩ := pauses_eq_true there pauses
  obtain ⟨m, q, turned, performance, -, resumes⟩ := deliverRun_turned calls found r
  rw [← resumes.parts, there] at performance
  have same := Option.some.inj performance
  rw [same] at listed ⊢
  exact turned.settled looks listed status

/-- A task whose look at a session ends its wait with success ends it when the session is
settled. -/
theorem step?_passes {c part : Nat} {baseline : Int} {x : Part α} {r : Reply (Value α)}
    (stacked : Frame.Stacked (s.loop.frames c)) (active : s.loop.active = some (c, r))
    (looks : s.looks? c = some (part, baseline)) (pending : s.loop.isDone c = false) (taken : s.step? = some t)
    (passes : s.passes c t = true) (found : t.parts[part]? = some x) :
    x.performance.session.settled baseline = true := by
  have delivered : t = s.deliver c r := by
    rw [step?, active] at taken
    exact (Option.some.inj taken).symm
  subst delivered
  unfold Stage.passes at passes
  unfold looks? at looks
  split at looks
  · rename_i calls
    cases looks
    rw [calls] at stacked
    obtain rfl := stacked.alone rfl
    rw [deliver, calls] at passes found
    exact deliverSettle_succeeded calls pending r passes found
  · rename_i calls
    obtain ⟨finishing, same⟩ := Option.ite_none_right_eq_some.mp looks
    cases same
    obtain ⟨_, known, finishing⟩ := (Option.any_eq_true _ _).mp finishing
    obtain ⟨y, there, rfl⟩ := Option.map_eq_some_iff.mp known
    rw [deliver, calls] at passes found
    exact deliverRun_pauses calls there finishing r passes found
  · cases looks

/-- However the operations on sessions, the waits, the cancellations and the steps of all tasks
interleave: a task that waits for a session to settle waits for a change that has not come only
while the session is not settled, and who listens on its behalf sleeps only until that change
comes; and a wait that ends with success, be it a task's or a run's, ends when the session is
settled. -/
theorem no_wakeup_lost {p : Performance α} {engine : Engine α} {cues : List (Cue α)}
    (reached : Relation.ReflTransGen (Happens fun _ => True) (conducted p engine cues) s) :
    (∀ (c inner part : Nat) (baseline : Int), s.waits? c = some (inner, part, baseline) →
      s.loop.isDone inner = false → ∃ epoch x, s.loop.frames inner = [.listen part epoch] ∧
        s.parts[part]? = some x ∧
        (x.performance.session.changes ≤ epoch →
          x.performance.session.playing = true ∧ baseline < x.performance.session.active) ∧
        ∀ a, s.loop.awaits? inner = some a → s.loop.isDone a = false → x.performance.session.changes ≤ epoch) ∧
      ∀ (t : Stage α) (c part : Nat) (baseline : Int) (x : Part α), s.loop.active.map Prod.fst = some c →
        s.looks? c = some (part, baseline) → s.loop.isDone c = false → s.step? = some t → s.passes c t = true →
        t.parts[part]? = some x →
        x.performance.session.playing = false ∨ x.performance.session.active ≤ baseline := by
  have alert : s.Alert := by
    induction reached with
    | refl => exact conducted_alert p engine cues
    | tail _ happens ih => exact ih.happens happens
  constructor
  · intro c inner part baseline waits pending
    obtain ⟨waiter, timer, call, rest, calls, watched⟩ := waits?_eq_some waits
    obtain ⟨call', part', baseline', alone, watched', watches⟩ := alert.watching c inner waiter timer _ calls
    cases alone
    cases watched.symm.trans watched'
    rcases watches with ended | ⟨epoch, x, listens, found, earlier, unsettled⟩
    · cases pending.symm.trans ended
    · refine ⟨epoch, x, listens, found, fun current => ?_, fun a awaits asleep => ?_⟩
      · exact Session.settled_eq_false.mp (unsettled (Nat.le_antisymm current earlier))
      · rcases alert.listening inner part epoch [] a listens awaits with ended | listed
        · cases asleep.symm.trans ended
        · exact alert.heard _ listed x found
  · intro t c part baseline x active looks pending taken passes found
    obtain ⟨⟨_, r⟩, now, rfl⟩ := Option.map_eq_some_iff.mp active
    exact Session.settled_eq_true.mp (step?_passes (alert.stacked _) now looks pending taken passes found)

def patient (steps : Nat) : Stage ℚ :=
  (conducted (Performance.initial [] default (.virtual 0) {}) {}
    [.session .start, .session .runStarted, .session .runStarted, .wait 1 5, .ticks 4,
      .session (.runFinished 0 0), .joinWaits]).runUntil 0 steps

/-- The task sleeps while two runs are active, and ends with success when one is. -/
theorem no_wakeup_lost_patient :
    ((patient 15).waits? 1 = some (3, 0, 1) ∧ ∃ x, (patient 15).parts[0]? = some x ∧
      x.performance.session.playing = true ∧ 1 < x.performance.session.active) ∧
      ∃ t x, (patient 34).step? = some t ∧ (patient 34).passes 1 t = true ∧ t.parts[0]? = some x ∧
        (x.performance.session.playing = false ∨ x.performance.session.active ≤ 1) := by
  have waits : (patient 15).waits? 1 = some (3, 0, 1) := by decide +kernel
  have asleep : (patient 15).loop.awaits? 3 = some 4 ∧ (patient 15).loop.isDone 3 = false ∧
      (patient 15).loop.isDone 4 = false := by decide +kernel
  have looks : (patient 34).loop.active.map Prod.fst = some 1 ∧ (patient 34).looks? 1 = some (0, 1) ∧
      (patient 34).loop.isDone 1 = false := by decide +kernel
  have taken : (patient 34).step?.map (fun t => ((patient 34).passes 1 t, t.parts.size)) = some (true, 1) := by
    decide +kernel
  refine ⟨⟨waits, ?_⟩, ?_⟩
  · obtain ⟨epoch, x, -, found, unsettled, current⟩ :=
      (no_wakeup_lost (runUntil_reaches _ 0 15)).1 1 3 0 1 waits asleep.2.1
    obtain ⟨playing, busy⟩ := unsettled (current 4 asleep.1 asleep.2.2)
    exact ⟨x, found, playing, by omega⟩
  · obtain ⟨t, taken, same⟩ := Option.map_eq_some_iff.mp taken
    obtain ⟨passes, size⟩ := Prod.mk.inj same
    have found : t.parts[0]? = some t.parts[0] := Array.getElem?_eq_getElem (by omega)
    have settled := (no_wakeup_lost (runUntil_reaches _ 0 34)).2 t 1 0 1 _ looks.1 looks.2.1 looks.2.2 taken
      passes found
    exact ⟨t, _, taken, passes, found, settled.imp_right (by omega)⟩

end Stage

end Partita
