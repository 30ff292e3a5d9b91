import Partita.Proofs.Stage.Serving

/-! What a task does when it receives a signal. It first makes something of a performance, if
that is what its innermost call is for, and what the performance asks for is carried out; and
then it leaves that call, goes on inside it, or waits inside it for something else. -/
namespace Partita

variable {α : Type}

namespace Frame

/-- Whether a call is the outermost one of its task, which waits from inside it. -/
def isBase : Frame α → Bool
  | .run .. | .settle .. | .conductor .. => true
  | _ => false

/-- Whether a call waits neither within a time limit nor for a change. -/
def isQuiet : Frame α → Bool
  | .within .. | .listen .. => false
  | _ => true

theorem isQuiet_of_isBase {frame : Frame α} (base : frame.isBase = true) : frame.isQuiet = true := by
  cases frame with
  | within => cases base
  | listen => cases base
  | _ => rfl

def part : Frame α → Nat
  | .run part _ | .open_ part _ | .main part _ => part
  | _ => 0

/-- The part for whose session a call waits to settle, and the runs it may settle with. -/
def watched? : Frame α → Option (Nat × Int)
  | .run part _ => some (part, 1)
  | .settle part baseline _ _ => some (part, baseline)
  | _ => none

/-- The call that a task is in when it goes on inside a call. -/
inductive Next (s : Stage α) : Frame α → Frame α → Prop
  | run {part run : Nat} {x : Part α} {r : Run α} (found : s.parts[part]? = some x)
      (there : x.performance.runs[run]? = some r) (live : r.isLive = true) : Next s (.run part run) (.run part run)
  | settle (part : Nat) (baseline : Int) (timeout : α) (deadline deadline' : Option α) :
      Next s (.settle part baseline timeout deadline) (.settle part baseline timeout deadline')
  | conductor (cue : Cue α) (cues : List (Cue α)) (busy : Bool) :
      Next s (.conductor (cue :: cues) busy) (.conductor cues true)
  | ending (inner waiter timer : Nat) (timedOut : Bool) :
      Next s (.within inner waiter timer) (.ending inner timer timedOut)
  | main (part : Nat) (replay : Bool) (generation : Nat) : Next s (.open_ part replay) (.main part generation)
  | ticks (count : Nat) : Next s (.ticks (count + 1)) (.ticks count)
  | joining (cell : Nat) (cells : List Nat) : Next s (.joining (cell :: cells)) (.joining cells)

namespace Next

variable {s : Stage α} {frame frame' : Frame α}

theorem isBase (next : frame.Next s frame') : frame'.isBase = frame.isBase := by cases next <;> rfl

theorem isQuiet (next : frame.Next s frame') : frame'.isQuiet = true := by cases next <;> rfl

theorem not_listen (next : frame.Next s frame') (part epoch : Nat) : frame ≠ .listen part epoch := by
  rintro rfl
  cases next

end Next

end Frame

variable [Scalar α]

def Cue.Effect (cue : Cue α) (time : α) (p q : Performance α) : Prop := match cue with
  | .perform replay => q = (runFrom (Stage.opening time replay) p).2
  | .spawn name position => q = (runFrom (Performance.spawn name position) p).2
  | .stop => q = (runFrom Performance.stop p).2
  | .forceStop => q = (runFrom Performance.forceStop p).2
  | .normalize => q = (runFrom Performance.normalizeVolumes p).2
  | .session cue => q = (runFrom (Stage.sessionAct cue) p).2
  | .changed cue => q = (runFrom (Stage.changedAct cue) p).2
  | _ => False

def Frame.Effect (frame : Frame α) (time : α) (p q : Performance α) : Prop := match frame with
  | .run _ id => p.Turned time id q
  | .open_ _ replay => q = (runFrom (Stage.opening time replay) p).2
  | .main _ generation => q = (runFrom (Performance.conclude time generation .cancelled) p).2
  | .conductor (cue :: _) _ => cue.Effect time p q
  | _ => False

theorem Cue.Effect.continues {time : α} {p q : Performance α} {cue : Cue α} (effect : cue.Effect time p q) :
    p.Continues (fun _ => True) q := by
  cases cue with
  | perform replay => exact effect ▸ (Stage.opening_ongoing time replay p).1
  | spawn name position => exact effect ▸ p.spawn_continues name position
  | stop => exact effect ▸ p.stop_continues
  | forceStop => exact effect ▸ p.forceStop_continues
  | normalize => exact effect ▸ p.normalizeVolumes_continues
  | session cue => exact effect ▸ (Stage.sessionAct_ongoing cue p).1
  | changed cue => exact effect ▸ (Stage.changedAct_ongoing cue p).1
  | _ => exact effect.elim

theorem Frame.Effect.continues {time : α} {p q : Performance α} {frame : Frame α}
    (effect : frame.Effect time p q) : p.Continues (fun _ => True) q := by
  cases frame with
  | run part run => exact Performance.Turned.continues effect
  | open_ part replay => exact effect ▸ (Stage.opening_ongoing time replay p).1
  | main part generation => exact effect ▸ (Stage.conclude_ongoing time generation .cancelled p).1
  | conductor cues busy =>
    cases cues with
    | nil => exact effect.elim
    | cons cue cues => exact Cue.Effect.continues effect
  | _ => exact effect.elim

namespace Stage

variable {s t u : Stage α} {task : Nat} {frame : Frame α} {rest : List (Frame α)}

/-- What becomes of the calls `frame :: rest` of a task. -/
inductive Becomes (s t : Stage α) (task : Nat) (frame : Frame α) (rest : List (Frame α)) : List (Frame α) → Prop
  | leaves (last : rest = [] → t.loop.isDone task = true) : Becomes s t task frame rest rest
  | goes {frame' : Frame α} (next : frame.Next s frame') : Becomes s t task frame rest (frame' :: rest)
  | waits {top frame' : Frame α} (base : frame.isBase = true) (next : frame.Next s frame') (inside : top.isBase = false)
      (quiet : top.isQuiet = true) : Becomes s t task frame rest (top :: frame' :: rest)
  | watches {frame' : Frame α} {inner waiter timer part : Nat} {baseline : Int} {x : Part α}
      (base : frame.isBase = true) (next : frame.Next s frame') (watched : frame'.watched? = some (part, baseline))
      (found : s.parts[part]? = some x) (unsettled : x.performance.session.settled baseline = false)
      (listens : t.loop.frames inner = [.listen part x.performance.session.changes]) :
      Becomes s t task frame rest (.within inner waiter timer :: frame' :: rest)
  | listens {part epoch : Nat} (same : frame = .listen part epoch) : Becomes s t task frame rest (frame :: rest)

/-- What a task does on the stage when it has received a signal in the call `frame` inside
the calls `rest`. -/
structure Resumes (task : Nat) (frame : Frame α) (rest : List (Frame α)) (s t : Stage α) : Prop where
  parts : t.parts = s.parts
  size : s.loop.cells.size ≤ t.loop.cells.size
  others : ∀ c < s.loop.cells.size, c ≠ task → t.loop.frames c = s.loop.frames c
  new : ∀ c, s.loop.cells.size ≤ c → Frame.Newly Frame.isAide (t.loop.frames c)
  done : ∀ c, s.loop.isDone c = true → t.loop.isDone c = true
  awaits : ∀ c a, t.loop.awaits? c = some a → s.loop.awaits? c = some a ∨
    c = task ∧ ∀ part epoch, frame = .listen part epoch → ⟨part, epoch, a⟩ ∈ t.listeners
  kept : ∀ x ∈ s.listeners, x ∈ t.listeners
  added : ∀ x ∈ t.listeners, x ∈ s.listeners ∨ x.cell < t.loop.cells.size ∧
    ∀ y, s.parts[x.part]? = some y → y.performance.session.changes ≤ x.epoch
  becomes : Becomes s t task frame rest (t.loop.frames task)

namespace Resumes

variable {l : Loop α (Value α) (Frame α)} {next : List (Frame α)} {awaited : Nat → Prop}

omit [Scalar α] in
/-- A task moves on the loop, and nothing else of the stage has changed. -/
theorem of_loop (calls : s.loop.frames task = frame :: rest)
    (serves : s.loop.Serves (Frame.Newly Frame.isAide) l)
    (enters : l.Enters (Frame.Newly Frame.isAide) task next awaited t.loop) (parts : t.parts = s.parts)
    (kept : ∀ x ∈ s.listeners, x ∈ t.listeners)
    (added : ∀ x ∈ t.listeners, x ∈ s.listeners ∨ x.cell < t.loop.cells.size ∧
      ∀ y, s.parts[x.part]? = some y → y.performance.session.changes ≤ x.epoch)
    (listens : ∀ a part epoch, awaited a → frame = .listen part epoch → ⟨part, epoch, a⟩ ∈ t.listeners)
    (becomes : Becomes s t task frame rest next) : s.Resumes task frame rest t := by
  have inside := Loop.lt_size_of_frames calls
  have moved := serves.enters inside enters
  have own : t.loop.frames task = next := by
    rcases moved.own with own | ⟨bare, -⟩
    · exact own
    · rw [calls] at bare
      cases bare
  exact ⟨parts, moved.size, moved.others, fun c missing => moved.new c missing (by omega), moved.done,
    fun c a waits => (moved.awaits c a waits).imp_right fun ⟨same, here⟩ =>
      ⟨same, fun part epoch listening => listens a part epoch here listening⟩,
    kept, added, own ▸ becomes⟩

omit [Scalar α] in
/-- A task leaves its innermost call. -/
theorem leaves (calls : s.loop.frames task = frame :: rest) (stays : s.loop.Stays l) (x : Reply (Value α))
    (loop : t.loop = l.leave task rest x) (parts : t.parts = s.parts) (listeners : t.listeners = s.listeners) :
    s.Resumes task frame rest t := by
  have inside := Nat.lt_of_lt_of_le (Loop.lt_size_of_frames calls) stays.size
  have enters : l.Enters (Frame.Newly Frame.isAide) task rest (fun _ => False) t.loop :=
    loop ▸ l.leave_enters (.inl rfl) task rest x
  refine of_loop calls (stays.serves (.inl rfl)) enters parts (fun _ => listeners ▸ id) (fun _ => listeners ▸ .inl)
    (fun _ _ _ never => never.elim) (.leaves fun last => ?_)
  subst last
  exact loop ▸ l.leave_done x inside

omit [Scalar α] in
/-- A task goes on inside its innermost call. -/
theorem goes (calls : s.loop.frames task = frame :: rest) (serves : s.loop.Serves (Frame.Newly Frame.isAide) l)
    {frame' : Frame α} (next : frame.Next s frame')
    (enters : l.Enters (Frame.Newly Frame.isAide) task (frame' :: rest) awaited t.loop) (parts : t.parts = s.parts)
    (listeners : t.listeners = s.listeners) : s.Resumes task frame rest t :=
  of_loop calls serves enters parts (fun _ => listeners ▸ id) (fun _ => listeners ▸ .inl)
    (fun _ part epoch _ listening => absurd listening (next.not_listen part epoch)) (.goes next)

omit [Scalar α] in
/-- A task waits inside its innermost call. -/
theorem waits (calls : s.loop.frames task = frame :: rest) (serves : s.loop.Serves (Frame.Newly Frame.isAide) l)
    {top frame' : Frame α} (base : frame.isBase = true) (next : frame.Next s frame') (inside : top.isBase = false)
    (quiet : top.isQuiet = true)
    (enters : l.Enters (Frame.Newly Frame.isAide) task (top :: frame' :: rest) awaited t.loop)
    (parts : t.parts = s.parts) (listeners : t.listeners = s.listeners) : s.Resumes task frame rest t :=
  of_loop calls serves enters parts (fun _ => listeners ▸ id) (fun _ => listeners ▸ .inl)
    (fun _ part epoch _ listening => absurd listening (next.not_listen part epoch)) (.waits base next inside quiet)

section still

variable (calls : s.loop.frames task = frame :: rest) {frame' : Frame α} (becomes : frame.Next s frame')
include calls becomes

omit [Scalar α] in
theorem proceeds (r : Reply (Value α)) :
    s.Resumes task frame rest (s.onLoop (·.proceed task (frame' :: rest) r)) :=
  .goes calls ((Loop.Stays.refl _).serves (.inl rfl)) becomes (Loop.proceed_enters _ (.inl rfl) task _ r) rfl rfl

omit [Scalar α] in
theorem awaits_cell (cell : Nat) : s.Resumes task frame rest (s.onLoop (·.await task (frame' :: rest) cell)) :=
  .goes calls ((Loop.Stays.refl _).serves (.inl rfl)) becomes (Loop.await_enters _ (.inl rfl) task _ cell) rfl rfl

omit [Scalar α] in
theorem yields : s.Resumes task frame rest (s.onLoop (·.yield task (frame' :: rest))) :=
  .goes calls ((Loop.Stays.refl _).serves (.inl rfl)) becomes (Loop.yield_enters _ (.inl rfl) task _) rfl rfl

end still

end Resumes

section calls

variable (calls : s.loop.frames task = frame :: rest) {frame' : Frame α}
include calls

theorem sleep_resumes (base : frame.isBase = true) (next : frame.Next s frame') (seconds : α) :
    s.Resumes task frame rest (s.sleep task (frame' :: rest) seconds) := by
  have stays := (s.loop.newPlain_stays.trans
    (Loop.callLater_stays _ seconds (.resolve s.loop.cells.size))).serves (P := Frame.Newly Frame.isAide) (.inl rfl)
  unfold sleep
  split
  · exact .yields calls next
  · exact .waits calls stays base next rfl rfl (Loop.await_enters _ (.inl rfl) task _ _) rfl rfl

/-- A task that waits within a time limit for a session to settle has the next change listened to. -/
theorem waitWithin_resumes (base : frame.isBase = true) (next : frame.Next s frame') {part : Nat} {baseline : Int}
    {x : Part α} (watched : frame'.watched? = some (part, baseline)) (found : s.parts[part]? = some x)
    (unsettled : x.performance.session.settled baseline = false) (seconds : α) :
    s.Resumes task frame rest
      (s.waitWithin task (frame' :: rest) (.listen part x.performance.session.changes) seconds) := by
  let limited := ((s.loop.newCell .plain).2.callLater seconds (.resolve s.loop.cells.size)).2
  let listener : Frame α := .listen part x.performance.session.changes
  let listened := (limited.newTask [listener]).2.onDone limited.cells.size (.resolve s.loop.cells.size)
  have stays : s.loop.Stays limited :=
    s.loop.newPlain_stays.trans (Loop.callLater_stays _ seconds (.resolve s.loop.cells.size))
  have made : limited.Serves (Frame.Newly Frame.isAide) (limited.newTask [listener]).2 :=
    limited.newTask_serves (.inl rfl) (.inr ⟨_, rfl, rfl⟩)
  have told := Loop.onDone_stays (limited.newTask [listener]).2 limited.cells.size (.resolve s.loop.cells.size)
  have serves : s.loop.Serves (Frame.Newly Frame.isAide) listened :=
    ((stays.serves (.inl rfl)).trans made).trans (told.serves (.inl rfl))
  have enters := listened.await_enters (P := Frame.Newly Frame.isAide) (.inl rfl) task
    (.within limited.cells.size s.loop.cells.size (s.loop.newCell .plain).2.timerCount :: frame' :: rest)
    s.loop.cells.size
  refine .of_loop calls serves enters rfl (fun _ => id) (fun _ => .inl)
    (fun _ part epoch _ listening => absurd listening (next.not_listen part epoch))
    (.watches base next watched found unsettled ?_)
  have inside : task < limited.cells.size := Nat.lt_of_lt_of_le (Loop.lt_size_of_frames calls) stays.size
  have there : limited.cells.size < listened.cells.size :=
    Nat.lt_of_lt_of_le (by simp [Loop.newTask, Loop.newCell, Loop.callSoon]) told.size
  exact (enters.others _ there (by omega)).trans ((told.frames _).trans (limited.newTask_frames [listener]))

end calls

theorem followRun_resumes {part run : Nat} (calls : s.loop.frames task = .run part run :: rest)
    (unsettled : ∀ x r limit, s.parts[part]? = some x → x.performance.runs[run]? = some r →
      r.status = .settling limit → x.performance.session.settled 1 = false) :
    s.Resumes task (.run part run) rest (s.followRun task rest part run) := by
  unfold followRun
  dsimp only
  split
  · exact .leaves calls (.refl _) _ rfl rfl rfl
  · rename_i x found
    split
    · exact .leaves calls (.refl _) _ rfl rfl rfl
    · rename_i r there
      have next (live : r.isLive = true) : Frame.Next s (.run part run) (.run part run) := .run found there live
      cases status : r.status with
      | ended outcome => cases outcome <;> exact .leaves calls (.refl _) _ rfl rfl rfl
      | created => exact .proceeds calls (next (by simp [Run.isLive, status])) _
      | running => exact .proceeds calls (next (by simp [Run.isLive, status])) _
      | waiting seconds beats =>
        have live : r.isLive = true := by simp [Run.isLive, status]
        dsimp only
        split
        · exact .yields calls (next live)
        · exact sleep_resumes calls rfl (next live) _
      | settling limit =>
        exact waitWithin_resumes calls rfl (next (by simp [Run.isLive, status])) rfl found
          (unsettled x r limit found there status) _
      | playing children =>
        exact .goes calls ((s.loop.newGroup_stays _).serves (.inl rfl)) (next (by simp [Run.isLive, status]))
          (Loop.await_enters _ (.inl rfl) _ _ _) rfl rfl

/-- What a call makes of the performance that it is for. -/
def Affects (frame : Frame α) (s t : Stage α) : Prop := s.Operates frame.part (frame.Effect s.loop.time) t

/-- A signal for a task is taken up in two steps: something is made of a performance, and then
the task moves on. -/
def Receives (task : Nat) (frame : Frame α) (rest : List (Frame α)) (s t : Stage α) : Prop :=
  ∃ m, s.Affects frame m ∧ m.Resumes task frame rest t

theorem Resumes.receives (resumes : s.Resumes task frame rest t) : s.Receives task frame rest t :=
  ⟨s, .idle (.refl s), resumes⟩

theorem Affects.serves (affects : s.Affects frame t) : s.Serves t :=
  Operates.serves affects fun _ _ => Frame.Effect.continues

theorem Affects.frames (affects : s.Affects frame t) (calls : s.loop.frames task = frame :: rest) :
    t.loop.frames task = frame :: rest := by
  rw [affects.serves.loop.old task (Loop.lt_size_of_frames calls), calls]

theorem turn_eq {part run : Nat} {x : Part α} (found : s.parts[part]? = some x) (r : Reply (Value α)) :
    s.turn part run r = s.execPart part (if x.performance.isRunning run
      then Performance.step s.loop.time run else Performance.wake s.loop.time run (wakeOf r)) := by
  rw [turn, found]
  rfl

/-- A run that goes on by itself steps, and any other is woken. -/
theorem mounted_turned (s : Stage α) (x : Part α) (run : Nat) (wake : Wake) :
    (s.mounted x).Turned s.loop.time run (runFrom (if x.performance.isRunning run
      then Performance.step s.loop.time run else Performance.wake s.loop.time run wake) (s.mounted x)).2 := by
  have same : (s.mounted x).isRunning run = x.performance.isRunning run := rfl
  rw [Performance.Turned, same]
  split
  · rfl
  · exact ⟨_, rfl⟩

/-- A signal for a task in a run gives the run its turn, and the task goes on with the run as it
then is. -/
theorem deliverRun_turned {part run : Nat} {x : Part α} (calls : s.loop.frames task = .run part run :: rest)
    (found : s.parts[part]? = some x) (r : Reply (Value α)) :
    ∃ m q, (s.mounted x).Turned s.loop.time run q ∧
      m.parts[part]?.map Part.performance = some { q with engine := {}, journal := #[], outbox := #[] } ∧
      s.Affects (.run part run) m ∧ m.Resumes task (.run part run) rest (s.deliverRun task rest part run r) := by
  rw [deliverRun_eq, turn_eq found]
  generalize chosen : (if x.performance.isRunning run then Performance.step s.loop.time run
    else Performance.wake s.loop.time run (wakeOf r)) = act
  have turned : (s.mounted x).Turned s.loop.time run (runFrom act (s.mounted x)).2 :=
    chosen ▸ s.mounted_turned x run (wakeOf r)
  have affects : s.Affects (.run part run) (s.execPart part act) := by
    refine onPart_operates (.refl s) fun y there => ?_
    obtain rfl := Option.some.inj (found.symm.trans there)
    exact turned
  have performance : (s.execPart part act).parts[part]?.map Part.performance = _ := onPart_performance found act
  refine ⟨s.execPart part act, _, turned, performance, affects,
    followRun_resumes (affects.frames calls) fun y r limit there listed waits => ?_⟩
  rw [there] at performance
  have same := Option.some.inj performance
  rw [same] at listed ⊢
  exact turned.unsettled listed waits

theorem deliverRun_receives {part run : Nat} (calls : s.loop.frames task = .run part run :: rest)
    (r : Reply (Value α)) : s.Receives task (.run part run) rest (s.deliverRun task rest part run r) := by
  cases found : s.parts[part]? with
  | none =>
    have idle (act : PerformM α Unit) : s.execPart part act = s := by
      unfold execPart onPart
      rw [found]
    unfold deliverRun
    dsimp only
    rw [idle]
    refine Resumes.receives (followRun_resumes calls fun x r limit there => ?_)
    cases found.symm.trans there
  | some x =>
    obtain ⟨m, -, -, -, affects, resumes⟩ := deliverRun_turned calls found r
    exact ⟨m, affects, resumes⟩

theorem deliverSettle_resumes {part : Nat} {baseline : Int} {timeout : α} {deadline : Option α}
    (calls : s.loop.frames task = .settle part baseline timeout deadline :: rest) (r : Reply (Value α)) :
    s.Resumes task (.settle part baseline timeout deadline) rest
      (s.deliverSettle task rest part baseline timeout deadline r) := by
  unfold deliverSettle
  dsimp only
  split
  · exact .leaves calls (.refl _) _ rfl rfl rfl
  · exact .leaves calls (.refl _) _ rfl rfl rfl
  · split
    · exact .leaves calls (.refl _) _ rfl rfl rfl
    · rename_i session known
      obtain ⟨x, found, rfl⟩ := Option.map_eq_some_iff.mp known
      split
      · exact .leaves calls (.refl _) _ rfl rfl rfl
      · exact .leaves calls (.refl _) _ rfl rfl rfl
      · rename_i verdict
        refine waitWithin_resumes calls rfl (.settle ..) rfl found ?_ _
        unfold Session.verdict at verdict
        split at verdict
        · cases verdict
        · exact Bool.eq_false_iff.mpr ‹_›

omit [Scalar α] in
theorem deliverListen_resumes {part epoch : Nat} (calls : s.loop.frames task = .listen part epoch :: rest)
    (r : Reply (Value α)) : s.Resumes task (.listen part epoch) rest (s.deliverListen task rest part epoch r) := by
  unfold deliverListen
  split
  · exact .leaves calls (.refl _) _ rfl rfl rfl
  · dsimp only
    split
    · exact .leaves calls (.refl _) _ rfl rfl rfl
    · rename_i current
      have enters := (s.loop.newCell .plain).2.await_enters (P := Frame.Newly Frame.isAide) (.inl rfl) task
        (.listen part epoch :: rest) s.loop.cells.size
      refine .of_loop calls (s.loop.newPlain_stays.serves (.inl rfl)) enters rfl (fun x member => by simp [member])
        (fun x member => ?_) (fun a part' epoch' same listening => ?_) (.listens rfl)
      · rcases List.mem_append.mp member with old | new
        · exact .inl old
        · obtain rfl := List.mem_singleton.mp new
          refine .inr ⟨Nat.lt_of_lt_of_le (by simp [Loop.newCell]) enters.size, fun y found => ?_⟩
          simpa [found] using current
      · cases listening
        subst same
        exact List.mem_append_right _ (List.mem_singleton_self _)

omit [Scalar α] in
theorem deliverWithin_resumes {inner waiter timer : Nat}
    (calls : s.loop.frames task = .within inner waiter timer :: rest) (r : Reply (Value α)) :
    s.Resumes task (.within inner waiter timer) rest (s.deliverWithin task rest inner waiter timer r) := by
  unfold deliverWithin
  split
  · exact .leaves calls (s.loop.cancelTimer_stays timer) _ rfl rfl rfl
  · unfold endInner
    have stays := (((s.loop.forget_stays inner (.resolve waiter)).trans (Loop.newPlain_stays _)).trans
      (Loop.onDone_stays _ inner (.resolve (s.loop.forget inner (.resolve waiter)).cells.size))).trans
      (Loop.cancel_stays _ inner)
    exact .goes calls (stays.serves (.inl rfl)) (.ending ..) (Loop.await_enters _ (.inl rfl) task _ _) rfl rfl

omit [Scalar α] in
theorem deliverEnding_resumes {inner timer : Nat} {timedOut : Bool}
    (calls : s.loop.frames task = .ending inner timer timedOut :: rest) (r : Reply (Value α)) :
    s.Resumes task (.ending inner timer timedOut) rest (s.deliverEnding task rest inner timer timedOut r) :=
  .leaves calls (s.loop.cancelTimer_stays timer) _ rfl rfl rfl

theorem closeMain_receives {part generation : Nat} (calls : s.loop.frames task = .main part generation :: rest)
    (r : Reply (Value α)) : s.Receives task (.main part generation) rest (s.closeMain task rest part generation r) := by
  unfold closeMain
  split
  · have affects : s.Affects (.main part generation)
        (s.onPart part (Performance.conclude s.loop.time generation .cancelled)).2 :=
      onPart_operates (.refl s) fun _ _ => rfl
    split <;> rename_i ran <;> rw [ran] at affects <;>
      exact ⟨_, affects, .leaves (affects.frames calls) (.refl _) _ rfl rfl rfl⟩
  · exact Resumes.receives (.leaves calls (.refl _) _ rfl rfl rfl)

/-- Opening a performance inside the calls `frames` ends in these, or in waiting for its end inside them. -/
theorem openMain_receives (agrees : s.Agrees u) {part : Nat} {replay : Bool} {frames : List (Frame α)}
    (effect : ∀ p, frame.Effect s.loop.time p (runFrom (opening s.loop.time replay) p).2) (same : frame.part = part)
    (calls : s.loop.frames task = frame :: rest)
    (left : ∀ (m : Stage α) (r : Reply (Value α)), m.loop.frames task = frame :: rest →
      m.Resumes task frame rest (m.onLoop (·.leave task frames r)))
    (entered : ∀ (m : Stage α) (generation cell : Nat), m.loop.frames task = frame :: rest →
      m.Resumes task frame rest (m.onLoop (·.await task (.main part generation :: frames) cell))) :
    s.Receives task frame rest (u.openMain task frames part replay) := by
  have affects : s.Affects frame (u.onPart part (opening u.loop.time replay)).2 := by
    rw [Affects, same, agrees.loop]
    exact onPart_operates agrees fun _ _ => effect _
  rw [openMain_eq]
  split
  · rename_i ran
    rw [ran] at affects
    exact ⟨_, affects, left _ _ (affects.frames calls)⟩
  · rename_i ran
    rw [ran] at affects
    exact ⟨_, affects, left _ _ (affects.frames calls)⟩
  · rename_i ran
    rw [ran] at affects
    split
    · exact ⟨_, affects, entered _ _ _ (affects.frames calls)⟩
    · exact ⟨_, affects, left _ _ (affects.frames calls)⟩

theorem finish_receives {β : Type} {cue : Cue α} {cues : List (Cue α)} {busy : Bool} (agrees : s.Agrees u)
    (calls : s.loop.frames task = .conductor (cue :: cues) busy :: rest) (f : β → Value α) {act : PerformM α β}
    (effect : ∀ p, cue.Effect s.loop.time p (runFrom act p).2) :
    s.Receives task (.conductor (cue :: cues) busy) rest (match u.onPart 0 act with
      | (.ok b, s) => s.onLoop (·.proceed task (.conductor cues true :: rest) (.value (f b)))
      | (.error e, s) => s.onLoop (·.proceed task (.conductor cues true :: rest) (.raised (.fault e)))) := by
  have affects : s.Affects (.conductor (cue :: cues) busy) (u.onPart 0 act).2 :=
    onPart_operates agrees fun _ _ => effect _
  split <;> rename_i ran <;> rw [ran] at affects <;>
    exact ⟨_, affects, .proceeds (affects.frames calls) (.conductor ..) _⟩

theorem spawn_receives {name : String} {position : α} {cues : List (Cue α)} {busy : Bool} (agrees : s.Agrees u)
    (calls : s.loop.frames task = .conductor (.spawn name position :: cues) busy :: rest) :
    s.Receives task (.conductor (.spawn name position :: cues) busy) rest
      (u.carryOut task (.conductor cues true :: rest) (.spawn name position)) := by
  have affects : s.Affects (.conductor (.spawn name position :: cues) busy)
      (u.onPart 0 (Performance.spawn name position)).2 := onPart_operates agrees fun _ _ => rfl
  unfold carryOut
  dsimp only
  split
  · rename_i ran
    rw [ran] at affects
    exact ⟨_, affects, .proceeds (affects.frames calls) (.conductor ..) _⟩
  · rename_i ran
    rw [ran] at affects
    exact ⟨_, affects, .proceeds (affects.frames calls) (.conductor ..) _⟩
  · rename_i ran
    rw [ran] at affects
    split
    · exact ⟨_, affects, .awaits_cell (affects.frames calls) (.conductor ..) _⟩
    · exact ⟨_, affects, .proceeds (affects.frames calls) (.conductor ..) _⟩

/-- A conductor carries out a cue. -/
theorem carryOut_receives {cue : Cue α} {cues : List (Cue α)} {busy : Bool} (agrees : s.Agrees u)
    (calls : s.loop.frames task = .conductor (cue :: cues) busy :: rest) :
    s.Receives task (.conductor (cue :: cues) busy) rest (u.carryOut task (.conductor cues true :: rest) cue) := by
  have next (m : Stage α) : Frame.Next m (.conductor (cue :: cues) busy) (.conductor cues true) := .conductor ..
  have calls' : u.loop.frames task = .conductor (cue :: cues) busy :: rest := agrees.loop ▸ calls
  have still (m : Stage α) := (Loop.Stays.refl m.loop).serves (P := Frame.Newly Frame.isAide) (.inl rfl)
  have idle {t : Stage α} (resumes : u.Resumes task (.conductor (cue :: cues) busy) rest t) :
      s.Receives task (.conductor (cue :: cues) busy) rest t := ⟨u, .idle agrees, resumes⟩
  cases cue with
  | perform replay =>
    refine openMain_receives agrees (fun _ => rfl) rfl calls (fun m r calls => ?_) fun m generation cell calls => ?_
    · exact .goes calls (still m) (next m) (Loop.leave_enters _ (.inl rfl) task _ r) rfl rfl
    · exact .waits calls (still m) rfl (next m) rfl rfl (Loop.await_enters _ (.inl rfl) task _ cell) rfl rfl
  | start replay =>
    exact idle (.goes calls' (u.loop.newTask_serves (.inl rfl) (.inr ⟨.open_ 0 replay, rfl, rfl⟩)) (next u)
      (Loop.proceed_enters _ (.inl rfl) task _ _) rfl rfl)
  | spawn name position => exact spawn_receives agrees calls
  | join =>
    unfold carryOut
    dsimp only
    split
    · exact idle (.awaits_cell calls' (next u) _)
    · exact idle (.proceeds calls' (next u) _)
  | cancel =>
    unfold carryOut
    dsimp only
    split
    · exact idle (.goes calls' ((u.loop.cancel_stays _).serves (.inl rfl)) (next u)
        (Loop.proceed_enters _ (.inl rfl) task _ _) rfl rfl)
    · exact idle (.proceeds calls' (next u) _)
  | ticks count =>
    cases count with
    | zero => exact idle (.proceeds calls' (next u) _)
    | succ count =>
      exact idle (.waits calls' (still u) rfl (next u) rfl rfl (Loop.yield_enters _ (.inl rfl) task _) rfl rfl)
  | sleep seconds => exact idle (sleep_resumes calls' rfl (next u) seconds)
  | stop => exact finish_receives agrees calls (fun _ => .nothing) fun _ => rfl
  | forceStop => exact finish_receives agrees calls (fun _ => .nothing) fun _ => rfl
  | normalize => exact finish_receives agrees calls (fun _ => .nothing) fun _ => rfl
  | session cue => exact finish_receives agrees calls id fun _ => rfl
  | changed cue => exact finish_receives agrees calls id fun _ => rfl
  | wait baseline timeout =>
    exact idle (.goes calls'
      (u.loop.newTask_serves (.inl rfl) (.inr ⟨.settle 0 baseline timeout none, rfl, rfl⟩)) (next u)
      (Loop.proceed_enters _ (.inl rfl) task _ _) rfl rfl)
  | joinWaits =>
    exact idle (.waits calls' (still u) rfl (next u) rfl rfl (Loop.proceed_enters _ (.inl rfl) task _ _) rfl rfl)

/-- What a task does when it receives a signal. -/
theorem deliver_receives (calls : s.loop.frames task = frame :: rest) (r : Reply (Value α)) :
    s.Receives task frame rest (s.deliver task r) := by
  unfold deliver
  rw [calls]
  cases frame with
  | run part run => exact deliverRun_receives calls r
  | within inner waiter timer => exact (deliverWithin_resumes calls r).receives
  | ending inner timer timedOut => exact (deliverEnding_resumes calls r).receives
  | sleeping timer => exact Resumes.receives (.leaves calls (s.loop.cancelTimer_stays timer) _ rfl rfl rfl)
  | listen part epoch => exact (deliverListen_resumes calls r).receives
  | settle part baseline timeout deadline => exact (deliverSettle_resumes calls r).receives
  | open_ part replay =>
    cases r with
    | raised x => exact Resumes.receives (.leaves calls (.refl _) _ rfl rfl rfl)
    | value v =>
      refine openMain_receives (.refl s) (fun _ => rfl) rfl calls (fun m r calls => ?_)
        fun m generation cell calls => ?_
      · exact .leaves calls (.refl _) _ rfl rfl rfl
      · exact .awaits_cell calls (.main ..) cell
  | main part generation => exact closeMain_receives calls r
  | ticks count =>
    dsimp only
    split
    · exact Resumes.receives (.yields calls (.ticks _))
    · exact Resumes.receives (.leaves calls (.refl _) _ rfl rfl rfl)
  | joining cells =>
    dsimp only
    split
    · exact Resumes.receives (.awaits_cell calls (.joining ..) _)
    · exact Resumes.receives (.leaves calls (.refl _) _ rfl rfl rfl)
    · exact Resumes.receives (.leaves calls (.refl _) _ rfl rfl rfl)
  | conductor cues busy =>
    have reported : s.Agrees (if busy then s.report r else s) := by
      split
      · exact ⟨rfl, rfl, rfl, rfl⟩
      · exact .refl s
    cases cues with
    | nil => exact ⟨_, .idle reported, .leaves (reported.loop ▸ calls) (.refl _) _ rfl rfl rfl⟩
    | cons cue rest => exact carryOut_receives reported calls
  | studio frame => exact Resumes.receives (.leaves calls (.refl _) _ rfl rfl rfl)

end Stage

end Partita
