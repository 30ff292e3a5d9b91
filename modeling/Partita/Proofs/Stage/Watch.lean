import Partita.Proofs.Stage.Following
import Partita.Proofs.Stage.Vigil

/-! A stage on which one task waits for a run. Every small step either leaves it waiting or
lets it hear how the run ended, whatever else is performed meanwhile; and runs fail only
with faults of the kind that their lines can raise. -/
namespace Partita

open Score

variable {α : Type}

namespace Stage

variable {v : Vigil α} {s : Stage α}

/-- A stage on which a task waits for another one. No listener stands for the two. -/
structure Keeps (v : Vigil α) (s : Stage α) : Prop where
  loop : s.loop.Keeps v
  listeners : ∀ x ∈ s.listeners, v.Spares (.resolve x.cell)

/-- A stage on which a task waits for another one while others are at work. -/
structure Rests (v : Vigil α) (s : Stage α) : Prop where
  loop : s.loop.Rests v
  listeners : ∀ x ∈ s.listeners, v.Spares (.resolve x.cell)

/-- A stage on which a task that waited goes on with the end of a run. -/
structure Hears (v : Vigil α) (s : Stage α) : Prop where
  loop : s.loop.Hears v
  listeners : ∀ x ∈ s.listeners, v.Spares (.resolve x.cell)

/-- The runs on a stage that have failed did so with faults of a kind. -/
def FailsWith (F : Fault → Prop) (s : Stage α) : Prop :=
  ∀ (k i : Nat) (x : Part α) (r : Run α) (f : Fault), s.parts[k]? = some x → x.performance.runs[i]? = some r →
    r.fault? = some f → F f

namespace Keeps

theorem serve (keeps : s.Keeps v) (part : Nat) (request : Request) : (s.serve part request).Keeps v := by
  cases request with
  | changed =>
    refine ⟨?_, fun x member => keeps.listeners x (List.mem_filter.mp member).1⟩
    refine List.foldlRecOn _ _ (motive := fun k : Loop α (Value α) (Frame α) => k.Keeps v) keeps.loop ?_
    intro k kept x member
    obtain ⟨away, away'⟩ := keeps.listeners x (List.mem_filter.mp member).1
    exact kept.complete away ⟨.of_value _, fun same => absurd same away'⟩
  | spawned run => exact ⟨keeps.loop.newTask (by simp [Frame.isInner]), keeps.listeners⟩
  | cancel run =>
    unfold Stage.serve
    dsimp only
    split
    · exact ⟨keeps.loop.cancel _, keeps.listeners⟩
    · exact keeps

/-- Whatever is done with a performance. -/
theorem onPart {β : Type} (keeps : s.Keeps v) (part : Nat) (act : PerformM α β) :
    (s.onPart part act).2.Keeps v := by
  cases found : s.parts[part]? with
  | none =>
    unfold Stage.onPart
    rw [found]
    exact keeps
  | some x =>
    rw [onPart_eq found, ← Array.foldl_toList]
    exact List.foldlRecOn _ _ (motive := fun t : Stage α => t.Keeps v) ⟨keeps.loop, keeps.listeners⟩
      fun t kept request _ => kept.serve part request

variable {task : Nat} {frames : List (Frame α)}

theorem deliverListen (keeps : s.Keeps v) (other : task ≠ v.waiter) {part epoch : Nat}
    (suits : v.Suits task (.listen part epoch :: frames)) {r : Reply (Value α)} (mild : r.Mild v.faults) :
    (s.deliverListen task frames part epoch r).Rests v := by
  unfold Stage.deliverListen
  split
  · exact ⟨keeps.loop.leave other suits mild (by simp [Frame.isRun]), keeps.listeners⟩
  · dsimp only
    split
    · exact ⟨keeps.loop.leave other suits (.of_value _) (by simp [Frame.isRun]), keeps.listeners⟩
    · refine ⟨keeps.loop.newPlain.await other suits _, fun x member => ?_⟩
      rcases List.mem_append.mp member with old | new
      · exact keeps.listeners x old
      · obtain rfl := List.mem_singleton.mp new
        exact keeps.loop.spares_resolve

theorem deliverWithin (keeps : s.Keeps v) (other : task ≠ v.waiter) {inner waiter timer : Nat}
    (suits : v.Suits task (.within inner waiter timer :: frames)) (r : Reply (Value α)) :
    (s.deliverWithin task frames inner waiter timer r).Rests v := by
  unfold Stage.deliverWithin
  split
  · rename_i result found
    exact ⟨(keeps.loop.cancelTimer timer).leave other suits (keeps.loop.result found).1 (by simp [Frame.isRun]),
      keeps.listeners⟩
  · have forgotten := keeps.loop.forget inner (.resolve waiter)
    have told : ((((s.loop.forget inner (.resolve waiter)).newCell .plain).2.onDone inner
        (.resolve ((s.loop.forget inner (.resolve waiter)).newCell .plain).1)).cancel inner).Keeps v :=
      (forgotten.newPlain.onDone inner forgotten.spares_resolve fun woken => woken.elim).cancel inner
    dsimp only [Stage.endInner]
    exact ⟨told.await other (suits.replace rfl rfl) _, keeps.listeners⟩

theorem deliverEnding (keeps : s.Keeps v) (other : task ≠ v.waiter) {inner timer : Nat} {timedOut : Bool}
    (suits : v.Suits task (.ending inner timer timedOut :: frames)) {r : Reply (Value α)}
    (mild : r.Mild v.faults) : (s.deliverEnding task frames inner timer timedOut r).Rests v := by
  refine ⟨(keeps.loop.cancelTimer timer).leave other suits ?_ (by simp [Frame.isRun]), keeps.listeners⟩
  split
  · exact mild
  · split
    · split
      · exact .of_value _
      · exact .of_timeout
    · exact .of_cancelled

variable [Scalar α]

theorem sleep (keeps : s.Keeps v) (other : task ≠ v.waiter) (suits : v.Suits task frames) (seconds : α) :
    (s.sleep task frames seconds).Rests v := by
  unfold Stage.sleep
  split
  · exact ⟨keeps.loop.yield other suits, keeps.listeners⟩
  · have made := keeps.loop.newPlain.callLater seconds keeps.loop.spares_resolve id
    exact ⟨made.await other (suits.push rfl) _, keeps.listeners⟩

theorem waitWithin (keeps : s.Keeps v) (other : task ≠ v.waiter) (suits : v.Suits task frames) {inner : Frame α}
    (proper : inner.isInner = true) (seconds : α) : (s.waitWithin task frames inner seconds).Rests v := by
  have made := keeps.loop.newPlain.callLater seconds keeps.loop.spares_resolve id
  have started := made.newTask (List.forall_mem_singleton.mpr proper)
  exact ⟨(started.onDone _ keeps.loop.spares_resolve fun woken => woken.elim).await other (suits.push rfl) _,
    keeps.listeners⟩

theorem followRun (keeps : s.Keeps v) (failing : s.FailsWith v.faults) (other : task ≠ v.waiter) {part run : Nat}
    (suits : v.Suits task (.run part run :: frames)) : (s.followRun task frames part run).Rests v := by
  have leave {r : Reply (Value α)} (ended : r.OfRun v.faults) :
      (s.onLoop (·.leave task frames r)).Rests v :=
    ⟨keeps.loop.leave other suits ended.mild fun _ => ended, keeps.listeners⟩
  unfold Stage.followRun
  split
  · exact leave .cancelled
  · rename_i x found
    split
    · exact leave .cancelled
    · rename_i r there
      split
      · exact leave (.finished _)
      · rename_i f status
        exact leave (.failed (failing part run x r f found there (by simp [Run.fault?, status])))
      · exact leave .cancelled
      · exact ⟨keeps.loop.proceed other suits (.of_value _), keeps.listeners⟩
      · exact ⟨keeps.loop.proceed other suits (.of_value _), keeps.listeners⟩
      · split
        · exact ⟨keeps.loop.yield other suits, keeps.listeners⟩
        · exact keeps.sleep other suits _
      · exact keeps.waitWithin other suits rfl _
      · exact ⟨(keeps.loop.newGroup _).await other suits _, keeps.listeners⟩

end Keeps

theorem FailsWith.follows [Scalar α] {F : Fault → Prop} {t : Stage α} (failing : s.FailsWith F)
    (later : s.Follows F t) : t.FailsWith F := by
  intro k i y r f there ran failed
  rcases later.parts k y there with ⟨x, old, -, course⟩ | ⟨-, p, fresh, course⟩
  · rcases course.runs i r ran with ⟨u, older, stays⟩ | ⟨-, -, kind⟩
    · exact (stays.fault f failed).elim (failing k i x u f old older) id
    · exact kind f failed
  · rcases course.runs i r ran with ⟨u, older, stays⟩ | ⟨-, -, kind⟩
    · obtain ⟨_, _, _, _, rfl⟩ := fresh
      simp [Performance.initial] at older
    · exact kind f failed

namespace Keeps

variable [Scalar α] {task : Nat} {r : Reply (Value α)}

theorem deliver_of_known (keeps : s.Keeps v) (known : s.loop.isDone v.awaited = true → v.gone = true)
    (failing : s.FailsWith v.faults) (setup : ∀ f : Fault, f.isSetup = true → v.faults f) (other : task ≠ v.waiter)
    (mild : r.Mild v.faults) : (s.deliver task r).Rests v := by
  have suits := keeps.loop.suits known other
  unfold Stage.deliver
  split
  · rename_i empty
    rw [empty] at suits
    -- The awaited task is in no call only if it is over.
    have entered := suits.push (rfl : (Frame.sleeping 0).isInner = true)
    exact ⟨keeps.loop.leave other entered mild (by simp [Frame.isRun]), keeps.listeners⟩
  · rename_i frame frames own
    rw [own] at suits
    have inner := suits.inner frame (by simp)
    split
    case h_1 part run =>
      rw [deliverRun_eq]
      exact (keeps.onPart part _).followRun (failing.follows (s.turn_follows setup part run mild)) other suits
    case h_2 => exact keeps.deliverWithin other suits r
    case h_3 => exact keeps.deliverEnding other suits mild
    case h_4 =>
      exact ⟨(keeps.loop.cancelTimer _).leave other suits mild (by simp [Frame.isRun]), keeps.listeners⟩
    case h_5 => exact keeps.deliverListen other suits mild
    all_goals cases inner

/-- A task other than the waiter takes a step. -/
theorem deliver (keeps : s.Keeps v) (failing : s.FailsWith v.faults) (setup : ∀ f : Fault, f.isSetup = true → v.faults f)
    (other : task ≠ v.waiter) (mild : r.Mild v.faults) : (s.deliver task r).Rests v := by
  by_cases done : s.loop.isDone v.awaited = true
  · have known : s.Keeps { v with gone := true } := ⟨keeps.loop.known done, keeps.listeners⟩
    have rests := known.deliver_of_known (fun _ => rfl) failing setup other mild
    exact ⟨⟨rests.loop.toKeeps.unknown, rests.loop.active⟩, rests.listeners⟩
  · exact keeps.deliver_of_known (fun ended => absurd ended done) failing setup other mild

/-- The waiter passes on the end of the awaited task. -/
theorem closeMain (keeps : s.Keeps v) (ended : r.OfRun v.faults) (frame : Frame α) (frames : List (Frame α))
    (part generation : Nat) :
    (s.closeMain v.waiter (frame :: frames) part generation r).Hears { v with frames := frame :: frames } := by
  have left {t : Stage α} (kept : t.Keeps v) {r : Reply (Value α)} (ended : r.OfRun v.faults) :
      (t.onLoop (·.leave v.waiter (frame :: frames) r)).Hears { v with frames := frame :: frames } :=
    ⟨⟨kept.loop.relieve (frame :: frames) (some (v.waiter, r)), r, rfl, ended⟩, kept.listeners⟩
  have concluded := keeps.onPart part (Performance.conclude s.loop.time generation .cancelled)
  unfold Stage.closeMain
  split
  · split
    · rename_i ran
      rw [ran] at concluded
      exact left concluded (.finished _)
    · rename_i ran
      rw [ran] at concluded
      exact left concluded .cancelled
  · exact left keeps ended

end Keeps

/-- One small step: the waiter waits on, or it hears of the end of the awaited task. -/
theorem Rests.step? [Scalar α] {t : Stage α} (rests : s.Rests v) (failing : s.FailsWith v.faults)
    (setup : ∀ f : Fault, f.isSetup = true → v.faults f) (stepped : s.step? = some t) :
    s.Follows v.faults t ∧ (t.Rests v ∨ t.Hears v) := by
  have keeps : s.Keeps v := ⟨rests.loop.toKeeps, rests.listeners⟩
  cases stepped_of_step? stepped with
  | @turn task r active =>
    obtain ⟨other, mild⟩ := rests.loop.active task r active
    exact ⟨s.deliver_follows setup task mild, .inl (keeps.deliver failing setup other mild)⟩
  | @call cb rest idle next =>
    refine ⟨.of_same rfl rfl, ?_⟩
    obtain ⟨spares, wakes⟩ := keeps.loop.pending cb (.inr (by simp [next]))
    have taken : Loop.Keeps v { s.loop with round := rest } :=
      { keeps.loop with
        pending := fun c member => keeps.loop.pending c (member.imp_right fun later => by simp [next, later]) }
    exact (taken.run idle .nothing spares wakes).imp (⟨·, rests.listeners⟩) (⟨·, rests.listeners⟩)
  | round idle drained begun =>
    obtain ⟨kept, same⟩ := keeps.loop.nextRound? begun
    refine ⟨.of_same rfl rfl, .inl ⟨⟨kept, fun task r active => ?_⟩, rests.listeners⟩⟩
    rw [same, idle] at active
    cases active

section

variable [Scalar α]

theorem runFrom_opening (time : α) {p : Performance α} {lines : List String}
    (found : p.blocks.lines? mainName = some lines) :
    ∃ q, runFrom (opening time false) p = (.ok (some p.runs.size, p.session.generation), q) ∧
      q.outbox = (p.outbox.push .changed).push (.spawned p.runs.size) := by
  have main : (p.opened time).blocks.lines? mainName = some lines := found
  rcases Performance.spawn_existing 0 main with ⟨-, -, -, -, -, other⟩ | ⟨q, ran, still, -⟩
  · exact absurd rfl other
  · refine ⟨q, ?_, still.outbox⟩
    have begun : runFrom (Performance.begin time) p = (.ok (some p.runs.size), q) := ran
    simp only [opening, runFrom_get_bind, Bool.false_eq_true, if_false]
    rw [runFrom_bind_ok begun]
    rfl

/-- A performance is opened by a task that is alone on its stage. -/
theorem openMain_alone {s : Stage α} {x : Part α} {lines : List String} (parts : s.parts = #[x])
    (cells : x.cells = #[]) (runs : x.performance.runs = #[])
    (main : x.performance.blocks.lines? mainName = some lines) (listeners : s.listeners = []) (size : s.loop.cells.size = 1) (frames : List (Frame α)) :
    (s.openMain 0 frames 0 false).listeners = [] ∧ (s.openMain 0 frames 0 false).loop =
      (s.loop.newTask [.run 0 0]).2.await 0 (.main 0 x.performance.session.generation :: frames) 1 := by
  obtain ⟨q, ran, outbox⟩ := runFrom_opening s.loop.time (p := s.mounted x) main
  have found : s.parts[0]? = some x := by simp [parts]
  have opened : s.onPart 0 (opening s.loop.time false) = (.ok (some 0, x.performance.session.generation),
      ((s.stored 0 x q).serve 0 .changed).serve 0 (.spawned 0)) := by
    rw [onPart_eq found, ran, outbox]
    simp [mounted, runs]
  have cell :
      (((s.stored 0 x q).serve 0 .changed).serve 0 (.spawned 0)).parts[0]?.bind (·.cells[0]?) = some 1 := by
    simp [serve, stored, parts, cells, Loop.newTask, Loop.newCell, size, listeners]
  rw [openMain_eq, opened]
  dsimp only
  rw [cell]
  refine ⟨by simp [serve, stored, onLoop, listeners], ?_⟩
  simp [serve, stored, onLoop, listeners]

end

end Stage

end Partita
