import Partita.Proofs.Performance.Course
import Partita.Stage.Conductor

/-! What every small step keeps of the performances on a stage, whoever takes it and
whatever the loop has in store: a part stays on its engine and its performance goes on, and
a part that is new begins with a fresh performance. -/
namespace Partita

variable {α : Type} [Scalar α] {F : Fault → Prop}

namespace Stage

structure Follows (F : Fault → Prop) (s t : Stage α) : Prop where
  size : s.parts.size ≤ t.parts.size
  parts : ∀ (k : Nat) (y : Part α), t.parts[k]? = some y →
    (∃ x, s.parts[k]? = some x ∧ y.engine = x.engine ∧ x.performance.Course F y.performance) ∨
      s.parts.size ≤ k ∧ ∃ p : Performance α, p.Fresh ∧ p.Course F y.performance
  engines : ∀ (i : Nat) (e : Engine α), s.engines[i]? = some e → ∃ f, t.engines[i]? = some f ∧ e.Alike f

namespace Follows

variable {s t u : Stage α}

theorem of_same (parts : t.parts = s.parts) (engines : t.engines = s.engines) : s.Follows F t where
  size := Nat.le_of_eq (by rw [parts])
  parts k y there := .inl ⟨y, parts ▸ there, rfl, .refl _⟩
  engines i e there := ⟨e, engines ▸ there, .refl e⟩

theorem refl (s : Stage α) : s.Follows F s := .of_same rfl rfl

theorem trans (first : s.Follows F t) (second : t.Follows F u) : s.Follows F u where
  size := Nat.le_trans first.size second.size
  parts k z there := by
    rcases second.parts k z there with ⟨y, old, same, later⟩ | ⟨new, p, fresh, later⟩
    · rcases first.parts k y old with ⟨x, older, same', course⟩ | ⟨new, p, fresh, course⟩
      · exact .inl ⟨x, older, same.trans same', course.trans later⟩
      · exact .inr ⟨new, p, fresh, course.trans later⟩
    · exact .inr ⟨Nat.le_trans first.size new, p, fresh, later⟩
  engines i e there := by
    obtain ⟨f, there, alike⟩ := first.engines i e there
    obtain ⟨g, there, alike'⟩ := second.engines i f there
    exact ⟨g, there, alike.trans alike'⟩

end Follows

omit [Scalar α] in
theorem serve_parts (s : Stage α) (part : Nat) {request : Request} (old : ∀ run, request ≠ .spawned run) :
    (s.serve part request).parts = s.parts := by
  cases request with
  | changed => rfl
  | spawned run => exact absurd rfl (old run)
  | cancel run =>
    unfold serve
    dsimp only
    split <;> rfl

omit [Scalar α] in
theorem serveAll_parts (s : Stage α) (part : Nat) (requests : Array Request)
    (old : ∀ request ∈ requests, ∀ run, request ≠ .spawned run) :
    (requests.foldl (fun s r => s.serve part r) s).parts = s.parts := by
  rw [← Array.foldl_toList]
  simp only [← Array.mem_toList_iff] at old
  generalize requests.toList = rest at old
  induction rest generalizing s with
  | nil => rfl
  | cons request rest ih =>
    obtain ⟨here, later⟩ := List.forall_mem_cons.mp old
    rw [List.foldl_cons, ih _ later, serve_parts s part here]

theorem serve_follows (s : Stage α) (part : Nat) (request : Request) : s.Follows F (s.serve part request) := by
  cases request with
  | changed => exact .of_same rfl rfl
  | spawned run =>
    refine ⟨by simp [serve], fun k y there => .inl ?_, fun i e there => ⟨e, there, .refl e⟩⟩
    simp only [serve, Array.getElem?_modify] at there
    split at there
    · obtain ⟨x, old, rfl⟩ := Option.map_eq_some_iff.mp there
      exact ⟨x, old, rfl, .refl _⟩
    · exact ⟨y, there, rfl, .refl _⟩
  | cancel run =>
    unfold serve
    dsimp only
    split <;> exact .of_same rfl rfl

theorem serveAll_follows (s : Stage α) (part : Nat) (requests : Array Request) :
    s.Follows F (requests.foldl (fun s r => s.serve part r) s) := by
  rw [← Array.foldl_toList]
  induction requests.toList generalizing s with
  | nil => exact .refl s
  | cons request rest ih => exact (s.serve_follows part request).trans (ih _)

def mounted (s : Stage α) (x : Part α) : Performance α :=
  { x.performance with engine := s.engines.getD x.engine {}, journal := #[], outbox := #[] }

def stored (s : Stage α) (part : Nat) (x : Part α) (q : Performance α) : Stage α :=
  { s with
    parts := s.parts.set! part { x with performance := { q with engine := {}, journal := #[], outbox := #[] } }
    engines := s.engines.set! x.engine q.engine
    journal := s.journal ++ q.journal }

omit [Scalar α] in
theorem onPart_eq {β : Type} {s : Stage α} {part : Nat} {x : Part α} (found : s.parts[part]? = some x)
    (act : PerformM α β) : s.onPart part act = ((runFrom act (s.mounted x)).1,
      (runFrom act (s.mounted x)).2.outbox.foldl (fun s r => s.serve part r)
        (s.stored part x (runFrom act (s.mounted x)).2)) := by
  unfold onPart
  rw [found]
  rfl

omit [Scalar α] in
theorem stored_part {s : Stage α} {part : Nat} {x : Part α} (found : s.parts[part]? = some x) (q : Performance α) :
    (s.stored part x q).parts[part]? =
      some { x with performance := { q with engine := {}, journal := #[], outbox := #[] } } := by
  have present := (Array.getElem?_eq_some_iff.mp found).1
  simp [stored, present]

omit [Scalar α] in
theorem stored_other (s : Stage α) {part other : Nat} (x : Part α) (q : Performance α) (different : other ≠ part) :
    (s.stored part x q).parts[other]? = s.parts[other]? := by
  simp [stored, Ne.symm different]

theorem stored_follows {s : Stage α} {part : Nat} {x : Part α} {q : Performance α}
    (found : s.parts[part]? = some x) (later : (s.mounted x).Continues F q) : s.Follows F (s.stored part x q) where
  size := by simp [stored]
  parts k y there := by
    refine .inl ?_
    by_cases same : k = part
    · subst same
      rw [stored_part found] at there
      cases there
      exact ⟨x, found, rfl, ⟨later.session, later.size, later.runs⟩⟩
    · rw [stored_other s x q same] at there
      exact ⟨y, there, rfl, .refl _⟩
  engines i e there := by
    simp only [stored, Array.set!_eq_setIfInBounds, Array.getElem?_setIfInBounds]
    split
    · rename_i same
      subst same
      have present := (Array.getElem?_eq_some_iff.mp there).1
      have held : s.engines.getD x.engine {} = e := by simp [Array.getD_eq_getD_getElem?, there]
      rw [if_pos present]
      exact ⟨_, rfl, held ▸ later.engine⟩
    · exact ⟨e, there, .refl e⟩

theorem onPart_follows_of {β : Type} (s : Stage α) (part : Nat) {act : PerformM α β}
    (continues : ∀ x, s.parts[part]? = some x → (s.mounted x).Continues F (runFrom act (s.mounted x)).2) :
    s.Follows F (s.onPart part act).2 := by
  cases found : s.parts[part]? with
  | none =>
    unfold onPart
    rw [found]
    exact .refl s
  | some x =>
    rw [onPart_eq found]
    exact (stored_follows found (continues x found)).trans (serveAll_follows _ part _)

theorem onPart_follows {β : Type} (s : Stage α) (part : Nat) {act : PerformM α β}
    (continues : ∀ p : Performance α, p.Continues F (runFrom act p).2) : s.Follows F (s.onPart part act).2 :=
  s.onPart_follows_of part fun x _ => continues (s.mounted x)

theorem execPart_follows (s : Stage α) (part : Nat) {act : PerformM α Unit}
    (continues : ∀ p : Performance α, p.Continues F (runFrom act p).2) : s.Follows F (s.execPart part act) :=
  s.onPart_follows part continues

/-- An operation after which a performance goes on. -/
abbrev Ongoing {β : Type} (F : Fault → Prop) (act : PerformM α β) : Prop :=
  Within (Performance.Continues F) (fun _ => True) act

omit [Scalar α] in
theorem setSession_ongoing (f : Session α → Session α) (later : ∀ s : Session α, s.Leads (f s))
    (silent : ∀ s, (f s).changes = s.changes) : Ongoing F (Performance.setSession f) :=
  .of_modify fun p => .of_runs rfl (later p.session) (.refl _) (.of_same rfl (silent p.session) rfl)

omit [Scalar α] in
theorem announce_ongoing (f : Session α → Session α) (later : ∀ s : Session α, s.Leads (f s)) :
    Ongoing F (Performance.announce f) :=
  .of_related fun p => .of_runs rfl (later p.session) (.refl _) (.of_changed rfl rfl)

theorem countFinish_ongoing (generation : Nat) (position : α) :
    Ongoing F (Performance.countFinish generation position) := by
  refine .of_related fun p => ?_
  rw [Performance.runFrom_countFinish]
  exact .of_counted p generation position

theorem sessionAct_ongoing (cue : SessionCue α) : Ongoing F (sessionAct cue) := by
  cases cue with
  | start => exact (setSession_ongoing Session.start Session.start_leads fun _ => rfl).bind fun _ => .of_pure _
  | runStarted =>
    exact (announce_ongoing Session.runStarted Session.runStarted_leads).bind fun _ =>
      .of_get_bind fun p => Within.of_pure _ p
  | runFinished generation position =>
    cases generation with
    | ofNat generation => exact (countFinish_ongoing generation position).bind fun _ => .of_pure _
    | negSucc => exact .of_pure Value.nothing
  | stop => exact (announce_ongoing Session.stop Session.stop_leads).bind fun _ => .of_pure _
  | reset => exact (announce_ongoing Session.reset Session.reset_leads).bind fun _ => .of_pure _
  | setBpm bpm =>
    exact (setSession_ongoing (·.setBpm bpm) (·.setBpm_leads bpm) fun _ => rfl).bind fun _ => .of_pure _

theorem changedAct_ongoing (cue : SessionCue α) : Ongoing F (changedAct cue) := by
  have silent : Ongoing F (discard (sessionAct cue)) := by
    have same : discard (sessionAct cue) = (sessionAct cue >>= fun _ => pure () : PerformM α Unit) := by
      exact map_eq_pure_bind (Function.const _ ()) (sessionAct cue)
    rw [same]
    exact (sessionAct_ongoing cue).bind fun _ => .of_pure _
  exact .of_get_bind fun p => silent.bind (fun _ => .of_get_bind fun q => Within.of_pure _ q) p

theorem conclude_within {R : Performance α → Performance α → Prop} [IsPreorder (Performance α) R]
    (logged : ∀ text, Within R (fun _ => True) (Performance.log .info text)) (time : α) (generation : Nat)
    (outcome : Outcome α) : Within R (fun _ => True) (Performance.conclude time generation outcome) := by
  unfold Performance.conclude
  split
  · refine .of_get_bind fun p => ?_
    split
    · exact (logged _).bind (fun _ => .of_pure _) p
    · exact Within.of_pure _ p
  · exact .of_pure _

theorem conclude_ongoing (time : α) (generation : Nat) (outcome : Outcome α) :
    Ongoing F (Performance.conclude time generation outcome) :=
  conclude_within (fun text => .of_related fun p =>
    .of_aside (Performance.log_aside (E := fun _ => True) .info text p).1) time generation outcome

theorem sleep_parts (s : Stage α) (task : Nat) (frames : List (Frame α)) (seconds : α) :
    (s.sleep task frames seconds).parts = s.parts ∧ (s.sleep task frames seconds).engines = s.engines := by
  unfold sleep
  split <;> exact ⟨rfl, rfl⟩

theorem sleep_follows (s : Stage α) (task : Nat) (frames : List (Frame α)) (seconds : α) :
    s.Follows F (s.sleep task frames seconds) :=
  .of_same (s.sleep_parts task frames seconds).1 (s.sleep_parts task frames seconds).2

/-- Going on with a run leaves all performances as they are. -/
theorem followRun_parts (s : Stage α) (task : Nat) (frames : List (Frame α)) (part run : Nat) :
    (s.followRun task frames part run).parts = s.parts ∧ (s.followRun task frames part run).engines = s.engines := by
  unfold followRun
  split
  · exact ⟨rfl, rfl⟩
  · split
    · exact ⟨rfl, rfl⟩
    · split
      case h_6 =>
        split
        · exact ⟨rfl, rfl⟩
        · exact s.sleep_parts _ _ _
      all_goals exact ⟨rfl, rfl⟩

theorem followRun_follows (s : Stage α) (task : Nat) (frames : List (Frame α)) (part run : Nat) :
    s.Follows F (s.followRun task frames part run) :=
  .of_same (s.followRun_parts task frames part run).1 (s.followRun_parts task frames part run).2

def opening (time : α) (replay : Bool) : PerformM α (Option Nat × Nat) := do
  let p ← get
  if replay then
    if p.session.playing then Performance.forceStop
    Performance.normalizeVolumes
  let generation := (← get).session.generation
  let run ← Performance.begin time
  return (run, generation)

theorem opening_within {R : Performance α → Performance α → Prop} [IsPreorder (Performance α) R]
    (stopped : Within R (fun _ => True) Performance.forceStop)
    (normalized : Within R (fun _ => True) Performance.normalizeVolumes) (time : α)
    (begun : Within R (fun _ => True) (Performance.begin time)) (replay : Bool) :
    Within R (fun _ => True) (opening time replay) := by
  have opened : Within R (fun _ => True) (do
      let generation := (← get).session.generation
      let run ← Performance.begin time
      return (run, generation) : PerformM α (Option Nat × Nat)) :=
    .of_get_bind fun p => begun.bind (fun _ => .of_pure _) p
  refine .of_get_bind fun p => ?_
  cases replay with
  | false => exact opened p
  | true =>
    rw [if_pos rfl]
    split
    · exact stopped.bind (fun _ => normalized.bind fun _ => opened) p
    · exact normalized.bind (fun _ => opened) p

theorem opening_ongoing (time : α) (replay : Bool) : Ongoing F (opening time replay) :=
  opening_within (.of_related Performance.forceStop_continues) (.of_related Performance.normalizeVolumes_continues)
    time (.of_related fun p => p.begin_continues time) replay

theorem openMain_eq (s : Stage α) (task : Nat) (frames : List (Frame α)) (part : Nat) (replay : Bool) :
    s.openMain task frames part replay = match s.onPart part (opening s.loop.time replay) with
      | (.error f, s) => s.onLoop (·.leave task frames (.raised (.fault f)))
      | (.ok (none, _), s) => s.onLoop (·.leave task frames (.value (.number 0)))
      | (.ok (some run, generation), s) =>
        match s.parts[part]?.bind (·.cells[run]?) with
        | some cell => s.onLoop (·.await task (.main part generation :: frames) cell)
        | none => s.onLoop (·.leave task frames (.value (.number 0))) := rfl

theorem openMain_follows (s : Stage α) (task : Nat) (frames : List (Frame α)) (part : Nat) (replay : Bool) :
    s.Follows F (s.openMain task frames part replay) := by
  have opened := s.onPart_follows part fun p => (opening_ongoing (F := F) s.loop.time replay p).1
  rw [openMain_eq]
  split
  · rename_i ran
    rw [ran] at opened
    exact opened.trans (.of_same rfl rfl)
  · rename_i ran
    rw [ran] at opened
    exact opened.trans (.of_same rfl rfl)
  · rename_i ran
    rw [ran] at opened
    split <;> exact opened.trans (.of_same rfl rfl)

theorem closeMain_follows (s : Stage α) (task : Nat) (frames : List (Frame α)) (part generation : Nat)
    (signal : Reply (Value α)) : s.Follows F (s.closeMain task frames part generation signal) := by
  unfold closeMain
  split
  · have concluded := s.onPart_follows part fun p =>
      (conclude_ongoing (F := F) s.loop.time generation .cancelled p).1
    split <;> rename_i ran <;> rw [ran] at concluded <;> exact concluded.trans (.of_same rfl rfl)
  · exact .of_same rfl rfl

variable (setup : ∀ f : Fault, f.isSetup = true → F f)

omit [Scalar α] in
theorem wakeOf_fail {r : Reply (Value α)} {f : Fault} (passed : wakeOf r = .fail f) : r = .raised (.fault f) := by
  cases r with
  | value v => cases passed
  | raised x =>
    cases x with
    | fault g =>
      cases passed
      rfl
    | _ => cases passed

/-- What a signal for a run makes of its performance: the run reads its next line, or is taken out
of what it waits for. -/
def turn (s : Stage α) (part run : Nat) (r : Reply (Value α)) : Stage α :=
  s.execPart part (if (s.parts[part]?.map Part.performance).any (·.isRunning run) then Performance.step s.loop.time run
    else Performance.wake s.loop.time run (wakeOf r))

theorem deliverRun_eq (s : Stage α) (task : Nat) (frames : List (Frame α)) (part run : Nat) (r : Reply (Value α)) :
    s.deliverRun task frames part run r = (s.turn part run r).followRun task frames part run := by
  unfold deliverRun turn
  cases s.parts[part]? <;> rfl

include setup in
theorem turn_follows (s : Stage α) (part run : Nat) {r : Reply (Value α)}
    (passed : ∀ f, r = .raised (.fault f) → F f) : s.Follows F (s.turn part run r) := by
  refine s.onPart_follows_of part fun x found => ?_
  rw [found]
  dsimp only [Option.map_some, Option.any_some]
  split
  · rename_i running
    exact (s.mounted x).step_continues setup _ (Performance.abiding_of_isRunning running)
  · exact (s.mounted x).wake_continues _ run fun f failed => passed f (wakeOf_fail failed)

include setup in
theorem deliverRun_follows (s : Stage α) (task : Nat) (frames : List (Frame α)) (part run : Nat)
    {r : Reply (Value α)} (passed : ∀ f, r = .raised (.fault f) → F f) :
    s.Follows F (s.deliverRun task frames part run r) := by
  rw [deliverRun_eq]
  exact (s.turn_follows setup part run passed).trans (followRun_follows _ _ _ _ _)

theorem deliverSettle_follows (s : Stage α) (task : Nat) (frames : List (Frame α)) (part : Nat) (baseline : Int)
    (timeout : α) (deadline : Option α) (r : Reply (Value α)) :
    s.Follows F (s.deliverSettle task frames part baseline timeout deadline r) := by
  unfold deliverSettle
  split
  · exact .of_same rfl rfl
  · exact .of_same rfl rfl
  · dsimp only
    split
    · exact .of_same rfl rfl
    · split <;> exact .of_same rfl rfl

theorem deliverListen_follows (s : Stage α) (task : Nat) (frames : List (Frame α)) (part epoch : Nat)
    (r : Reply (Value α)) : s.Follows F (s.deliverListen task frames part epoch r) := by
  unfold deliverListen
  split
  · exact .of_same rfl rfl
  · dsimp only
    split <;> exact .of_same rfl rfl

theorem deliverWithin_follows (s : Stage α) (task : Nat) (frames : List (Frame α)) (inner waiter timer : Nat)
    (r : Reply (Value α)) : s.Follows F (s.deliverWithin task frames inner waiter timer r) := by
  unfold deliverWithin
  split
  · exact .of_same rfl rfl
  · unfold endInner
    exact .of_same rfl rfl

theorem finish_follows {β : Type} (s : Stage α) (task : Nat) (frames : List (Frame α)) (f : β → Value α)
    {act : PerformM α β} (ongoing : Ongoing F act) : s.Follows F (match s.onPart 0 act with
      | (.ok b, s) => s.onLoop (·.proceed task frames (.value (f b)))
      | (.error e, s) => s.onLoop (·.proceed task frames (.raised (.fault e)))) := by
  have later := s.onPart_follows 0 fun p => (ongoing p).1
  split <;> rename_i ran <;> rw [ran] at later <;> exact later.trans (.of_same rfl rfl)

theorem carryOut_follows (s : Stage α) (task : Nat) (frames : List (Frame α)) (cue : Cue α) :
    s.Follows F (s.carryOut task frames cue) := by
  cases cue with
  | perform replay => exact s.openMain_follows task frames 0 replay
  | start replay => exact .of_same rfl rfl
  | spawn name position =>
    have later := s.onPart_follows (F := F) 0 fun p => p.spawn_continues name position
    unfold carryOut
    dsimp only
    split
    · rename_i ran
      rw [ran] at later
      exact later.trans (.of_same rfl rfl)
    · rename_i ran
      rw [ran] at later
      exact later.trans (.of_same rfl rfl)
    · rename_i ran
      rw [ran] at later
      split <;> exact later.trans (.of_same rfl rfl)
  | join =>
    unfold carryOut
    dsimp only
    split <;> exact .of_same rfl rfl
  | cancel =>
    unfold carryOut
    dsimp only
    split <;> exact .of_same rfl rfl
  | ticks count => cases count <;> exact .of_same rfl rfl
  | sleep seconds => exact s.sleep_follows task frames seconds
  | stop => exact s.finish_follows task frames (fun _ => .nothing) (.of_related Performance.stop_continues)
  | forceStop => exact s.finish_follows task frames (fun _ => .nothing) (.of_related Performance.forceStop_continues)
  | normalize =>
    exact s.finish_follows task frames (fun _ => .nothing) (.of_related Performance.normalizeVolumes_continues)
  | session cue => exact s.finish_follows task frames id (sessionAct_ongoing cue)
  | changed cue => exact s.finish_follows task frames id (changedAct_ongoing cue)
  | wait baseline timeout => exact .of_same rfl rfl
  | joinWaits => exact .of_same rfl rfl

include setup in
theorem deliver_follows (s : Stage α) (task : Nat) {r : Reply (Value α)}
    (passed : ∀ f, r = .raised (.fault f) → F f) : s.Follows F (s.deliver task r) := by
  unfold deliver
  cases s.loop.frames task with
  | nil => exact .of_same rfl rfl
  | cons frame frames =>
    cases frame with
    | run part run => exact s.deliverRun_follows setup task frames part run passed
    | within inner waiter timer => exact s.deliverWithin_follows task frames inner waiter timer r
    | ending inner timer timedOut => exact .of_same rfl rfl
    | sleeping timer => exact .of_same rfl rfl
    | listen part epoch => exact s.deliverListen_follows task frames part epoch r
    | settle part baseline timeout deadline =>
      exact s.deliverSettle_follows task frames part baseline timeout deadline r
    | open_ part replay =>
      cases r with
      | raised x => exact .of_same rfl rfl
      | value v => exact s.openMain_follows task frames part replay
    | main part generation => exact s.closeMain_follows task frames part generation r
    | ticks count =>
      dsimp only
      split <;> exact .of_same rfl rfl
    | joining cells =>
      dsimp only
      split <;> exact .of_same rfl rfl
    | conductor cues busy =>
      have reported : s.Follows F (if busy then s.report r else s) := by
        split
        · exact .of_same rfl rfl
        · exact .refl s
      cases cues with
      | nil => exact reported.trans (.of_same rfl rfl)
      | cons cue rest => exact reported.trans (carryOut_follows _ _ _ _)
    | studio frame => exact .of_same rfl rfl

/-- A small step: a task takes its turn, a callback of the round runs, or another round begins. -/
inductive Stepped (s : Stage α) : Stage α → Prop
  | turn {task : Nat} {r : Reply (Value α)} (active : s.loop.active = some (task, r)) : Stepped s (s.deliver task r)
  | call {cb : Callback} {rest : List Callback} (idle : s.loop.active = none) (next : s.loop.round = cb :: rest) :
      Stepped s (s.onLoop fun l => { l with round := rest }.run .nothing cb)
  | round {l : Loop α (Value α) (Frame α)} (idle : s.loop.active = none) (drained : s.loop.round = [])
      (begun : s.loop.nextRound? = some l) : Stepped s { s with loop := l }

theorem stepped_of_step? {s t : Stage α} (taken : s.step? = some t) : s.Stepped t := by
  unfold step? at taken
  split at taken
  · rename_i task r active
    cases taken
    exact .turn active
  · rename_i idle
    split at taken
    · rename_i cb rest next
      cases taken
      exact .call idle next
    · rename_i drained
      obtain ⟨l, begun, rfl⟩ := Option.map_eq_some_iff.mp taken
      exact .round idle drained begun

end Stage

end Partita
