import Partita.Proofs.Performance.Exact
import Partita.Proofs.Performance.Turn

/-! The count of active runs. It follows the live runs of the current generation
through every execution, with one exception: a run that is cancelled before its
first step is never counted out. Ending everything at once passes the runs it
cancels to an earlier generation, so that the exception only shows where that was
broken off by a fault of the engine. -/
namespace Partita

open Score

variable {α : Type}

namespace Run

/-- Whether a run was cancelled before its first step. -/
def isStillborn (r : Run α) : Bool := match r.status with
  | .ended .cancelled => r.cursor == 0
  | _ => false

def isCounted (r : Run α) : Bool := r.isLive || r.isStillborn

theorem Paced.ended {r : Run α} (paced : r.Paced) (outcome : Outcome α) :
    (r.withStatus (.ended outcome)).Paced :=
  ⟨by simp [withStatus], by simp [withStatus, isSuspended], paced.loops⟩

end Run

namespace Performance

/-- How many runs of the current generation are of a kind. -/
def census (p : Performance α) (kind : Run α → Bool) : Nat :=
  p.runs.countP fun r => kind r && r.generation == p.session.generation

/-- The count is right, and nothing was ever counted out that was not counted. -/
structure Accounted (p : Performance α) : Prop where
  active : p.session.active = p.census Run.isCounted
  generations : ∀ (i : Nat) (r : Run α), p.runs[i]? = some r → r.generation ≤ p.session.generation
  paced : ∀ (i : Nat) (r : Run α), p.runs[i]? = some r → r.Paced
  records : ∀ e ∈ p.journal.toList, e.isOfSession = false

theorem countP_modify {β : Type} {xs : Array β} {i : Nat} {x : β} (found : xs[i]? = some x) (y : β)
    (P : β → Bool) :
    (xs.modify i fun _ => y).countP P + (if P x then 1 else 0) = xs.countP P + (if P y then 1 else 0) := by
  obtain ⟨present, rfl⟩ := Array.getElem?_eq_some_iff.mp found
  have written : xs.modify i (fun _ => y) = xs.set i y present := by
    apply Array.ext_getElem?
    intro j
    rw [Array.getElem?_modify, Array.getElem?_set]
    split
    · subst j
      simp [present]
    · rfl
  have bound : (if P xs[i] then 1 else 0) ≤ xs.countP P := Array.boole_getElem_le_countP present
  rw [written, Array.countP_set]
  omega

theorem Going.accounted {id : Nat} {p q : Performance α} {run place run' : Run α} {started : List (Run α)}
    (going : Going id p q run' started) (books : p.Accounted) (found : p.runs[id]? = some run)
    (live : run.isLive = true) (moves : run.Moves place run') : q.Accounted where
  active := by
    have counted := countP_modify found run' fun r => r.isCounted && r.generation == p.session.generation
    have all : started.toArray.countP (fun r => r.isCounted && r.generation == p.session.generation) =
        started.length := by
      rw [List.countP_toArray, List.countP_eq_length]
      intro r member
      have fresh := going.fresh r member
      simp [Run.isCounted, Run.isLive, fresh.status, fresh.generation]
    have still : run'.isCounted = true := by simp [Run.isCounted, moves.live]
    have before : run.isCounted = true := by simp [Run.isCounted, live]
    rw [going.active, books.active, census, census, going.runs.runs, going.generation, Array.countP_append,
      all]
    simp only [before, still, moves.generation] at counted
    omega
  generations i r there := by
    rw [going.generation]
    rcases going.origin there with ⟨-, rfl⟩ | ⟨-, old⟩ | ⟨-, new⟩
    · rw [moves.generation]
      exact books.generations id run found
    · exact books.generations i r old
    · exact Nat.le_of_eq (going.fresh r new).generation
  paced i r there := by
    rcases going.origin there with ⟨-, rfl⟩ | ⟨-, old⟩ | ⟨-, new⟩
    · exact moves.paced (books.paced id run found)
    · exact books.paced i r old
    · exact (going.fresh r new).paced
  records e member := by
    obtain ⟨_, entries, grown, -, others⟩ := going.journal
    rw [grown] at member
    rcases List.mem_append.mp member with old | new
    · exact books.records e old
    · exact Event.isOfSession_of_own (others e new)

/-- The books after one run has changed within its generation: what the count
loses is what the run had in it. -/
theorem Accounted.replace {p q : Performance α} {id : Nat} {run run' : Run α} (books : p.Accounted)
    (found : p.runs[id]? = some run) (runs : q.runs = p.runs.modify id fun _ => run')
    (same : run'.generation = run.generation) (paced : run'.Paced)
    (generation : q.session.generation = p.session.generation)
    (active : q.session.active + (if run.isCounted && run.generation == p.session.generation then 1 else 0) =
      p.session.active + (if run'.isCounted && run.generation == p.session.generation then 1 else 0))
    (records : q.journal = p.journal) : q.Accounted where
  active := by
    have counted := countP_modify found run' fun r => r.isCounted && r.generation == p.session.generation
    rw [books.active, census] at active
    rw [census, runs, generation]
    rw [same] at counted
    omega
  generations i r there := by
    rw [runs, Array.getElem?_modify] at there
    rw [generation]
    split at there
    · obtain ⟨_, _, rfl⟩ := Option.map_eq_some_iff.mp there
      rw [same]
      exact books.generations id run found
    · exact books.generations i r there
  paced i r there := by
    rw [runs, Array.getElem?_modify] at there
    split at there
    · obtain ⟨_, _, rfl⟩ := Option.map_eq_some_iff.mp there
      exact paced
    · exact books.paced i r there
  records := records ▸ books.records

theorem Accounted.transfer {p q : Performance α} (books : p.Accounted) (runs : q.runs = p.runs)
    (active : q.session.active = p.session.active) (generation : q.session.generation = p.session.generation)
    {sounds : List (Event α)} (journal : Grows sounds p.journal q.journal) : q.Accounted where
  active := by rw [active, books.active, census, census, runs, generation]
  generations i r there := by
    rw [generation]
    exact books.generations i r (runs ▸ there)
  paced i r there := books.paced i r (runs ▸ there)
  records e member := by
    obtain ⟨entries, grown, -, others⟩ := journal
    rw [grown] at member
    rcases List.mem_append.mp member with old | new
    · exact books.records e old
    · exact Event.isOfSession_of_own (others e new)

theorem Accounted.aside {p q : Performance α} {sounds : List (Event α)} (books : p.Accounted)
    (still : p.Aside sounds q) : q.Accounted :=
  books.transfer still.runs (by rw [still.session]) (by rw [still.session]) still.journal

theorem Accounted.addRun {p : Performance α} (books : p.Accounted) (position : α)
    (block : String × List String) : (p.addRun position block).Accounted where
  active := by
    have counted := books.active
    simp only [census] at counted
    simp [census, Performance.addRun, Session.runStarted, Session.notify, counted, newRun, Run.isCounted,
      Run.isLive]
  generations i r there := by
    simp only [Performance.addRun, Array.getElem?_push] at there
    split at there
    · obtain rfl := Option.some.inj there
      exact Nat.le_refl _
    · exact books.generations i r there
  paced i r there := by
    simp only [Performance.addRun, Array.getElem?_push] at there
    split at there
    · obtain rfl := Option.some.inj there
      exact ⟨fun _ => rfl, by simp [newRun, Run.isSuspended], by simp [newRun]⟩
    · exact books.paced i r there
  records := books.records

theorem Accounted.cleared {p : Performance α} (books : p.Accounted) : p.cleared.Accounted where
  active := by
    symm
    simp only [census, Performance.cleared, dismissed, Session.reset, Session.notify, Array.countP_eq_zero]
    intro r member
    obtain ⟨i, present, rfl⟩ := Array.mem_iff_getElem.mp member
    have earlier := books.generations i _ (Array.getElem?_eq_getElem present)
    simp
    omega
  generations i r there := Nat.le_succ_of_le (books.generations i r there)
  paced := books.paced
  records := books.records

theorem modify_found {p : Performance α} {id : Nat} {run : Run α} (found : p.runs[id]? = some run)
    (f : Run α → Run α) : p.runs.modify id f = p.runs.modify id fun _ => f run :=
  congrArg Performance.runs (onRun_congr found (g := fun _ => f run) rfl)

theorem Accounted.vanish {p : Performance α} {id : Nat} {run : Run α} (books : p.Accounted)
    (found : p.runs[id]? = some run) (created : run.status = .created) :
    (p.onRun id (·.withStatus (.ended .cancelled))).Accounted := by
  have paced := books.paced id run found
  have counted : (run.withStatus (.ended .cancelled)).isCounted = run.isCounted := by
    simp [Run.isCounted, Run.isLive, Run.isStillborn, Run.withStatus, created, paced.unborn created]
  have runs := modify_found found (·.withStatus (.ended .cancelled))
  exact books.replace found runs rfl (paced.ended _) rfl (by rw [counted]; rfl) rfl

/-- The runs that were asked to end, and those that did before their first step,
belong to earlier generations. -/
structure Orphaned (p : Performance α) : Prop where
  asked : ∀ i, p.isAsked i = true → ∃ r : Run α, p.runs[i]? = some r ∧ r.generation < p.session.generation
  stillborn : ∀ (i : Nat) (r : Run α), p.runs[i]? = some r → r.isStillborn = true →
    r.generation < p.session.generation

theorem Orphaned.transfer {p q : Performance α} (orphans : p.Orphaned) (runs : q.runs = p.runs)
    (generation : q.session.generation = p.session.generation) (asked : ∀ j, q.isAsked j = p.isAsked j) :
    q.Orphaned where
  asked i request := by
    rw [runs, generation]
    exact orphans.asked i (asked i ▸ request)
  stillborn i r there := by
    rw [generation]
    exact orphans.stillborn i r (runs ▸ there)

theorem Orphaned.aside {p q : Performance α} {sounds : List (Event α)} (orphans : p.Orphaned)
    (still : p.Aside sounds q) : q.Orphaned :=
  orphans.transfer still.runs (by rw [still.session]) fun _ => by rw [isAsked, still.outbox, isAsked]

theorem Orphaned.addRun {p : Performance α} (orphans : p.Orphaned) (position : α)
    (block : String × List String) : (p.addRun position block).Orphaned where
  asked i request := by
    obtain ⟨r, found, earlier⟩ := orphans.asked i (by simpa [isAsked, Performance.addRun] using request)
    have present := (Array.getElem?_eq_some_iff.mp found).1
    refine ⟨r, ?_, earlier⟩
    simpa only [Performance.addRun, Array.getElem?_push, Nat.ne_of_lt present, if_false] using found
  stillborn i r there dead := by
    simp only [Performance.addRun, Array.getElem?_push] at there
    split at there
    · obtain rfl := Option.some.inj there
      simp [newRun, Run.isStillborn] at dead
    · exact orphans.stillborn i r there dead

theorem Orphaned.cleared {p : Performance α} (books : p.Accounted) (orphans : p.Orphaned) :
    p.cleared.Orphaned where
  asked i request := by
    have listed : p.isAsked i = true ∨ i < p.runs.size := by
      simp only [isAsked, Performance.cleared, dismissed, Array.contains_eq_mem, Array.mem_push,
        Array.mem_append, List.mem_toArray, List.mem_map, List.mem_filter, List.mem_range,
        decide_eq_true_eq, reduceCtorEq, or_false] at request
      rcases request with old | ⟨j, ⟨present, -⟩, same⟩
      · exact .inl (by simpa [isAsked] using old)
      · cases same
        exact .inr present
    have present : i < p.runs.size := by
      rcases listed with old | present
      · obtain ⟨r, found, -⟩ := orphans.asked i old
        exact (Array.getElem?_eq_some_iff.mp found).1
      · exact present
    have found := Array.getElem?_eq_getElem present
    exact ⟨p.runs[i], found, Nat.lt_succ_of_le (books.generations i _ found)⟩
  stillborn i r there _ := Nat.lt_succ_of_le (books.generations i r there)

theorem Orphaned.replace {p q : Performance α} {id : Nat} {run run' : Run α} (orphans : p.Orphaned)
    (found : p.runs[id]? = some run) (runs : q.runs = p.runs.modify id fun _ => run')
    (same : run'.generation = run.generation) (generation : q.session.generation = p.session.generation)
    (asked : ∀ j, q.isAsked j = p.isAsked j)
    (dead : run'.isStillborn = true → run.generation < p.session.generation) : q.Orphaned where
  asked i request := by
    obtain ⟨r, there, earlier⟩ := orphans.asked i (asked i ▸ request)
    rw [runs, generation, Array.getElem?_modify]
    by_cases own : id = i
    · subst i
      obtain rfl := Option.some.inj (found.symm.trans there)
      exact ⟨run', by simp [found], same ▸ earlier⟩
    · exact ⟨r, by simpa [own] using there, earlier⟩
  stillborn i r there gone := by
    rw [runs, Array.getElem?_modify] at there
    rw [generation]
    split at there
    · obtain ⟨_, _, rfl⟩ := Option.map_eq_some_iff.mp there
      rw [same]
      exact dead gone
    · exact orphans.stillborn i r there gone

theorem Going.orphaned {id : Nat} {p q : Performance α} {run place run' : Run α} {started : List (Run α)}
    (going : Going id p q run' started) (orphans : p.Orphaned) (found : p.runs[id]? = some run)
    (moves : run.Moves place run') : q.Orphaned where
  asked i request := by
    obtain ⟨r, there, earlier⟩ := orphans.asked i (going.asked i ▸ request)
    rw [going.generation]
    by_cases own : i = id
    · subst i
      obtain rfl := Option.some.inj (found.symm.trans there)
      exact ⟨run', going.runs.found, moves.generation ▸ earlier⟩
    · exact ⟨r, (going.runs.other own there), earlier⟩
  stillborn i r there dead := by
    rw [going.generation]
    rcases going.origin there with ⟨-, rfl⟩ | ⟨-, old⟩ | ⟨-, new⟩
    · have live := moves.live
      simp only [Run.isLive, Run.isStillborn] at live dead
      split at dead <;> simp_all
    · exact orphans.stillborn i r old dead
    · simp [Run.isStillborn, (going.fresh r new).status] at dead

theorem census_isCounted (p : Performance α) :
    p.census Run.isCounted = p.census Run.isLive + p.census Run.isStillborn := by
  have apart (r : Run α) (live : r.isLive = true) : r.isStillborn = false := by
    unfold Run.isStillborn
    split
    · simp [Run.isLive, *] at live
    · rfl
  simp only [census, ← Array.countP_toList]
  induction p.runs.toList with
  | nil => rfl
  | cons r rest ih =>
    simp only [List.countP_cons, ih]
    cases live : r.isLive with
    | false =>
      simp only [Run.isCounted, live, Bool.false_or, Bool.false_and, Bool.false_eq_true, if_false]
      omega
    | true =>
      simp only [Run.isCounted, live, apart r live, Bool.or_false, Bool.false_and, Bool.false_eq_true, if_false]
      omega

theorem Orphaned.no_stillborn {p : Performance α} (orphans : p.Orphaned) : p.census Run.isStillborn = 0 := by
  rw [census, Array.countP_eq_zero]
  intro r member
  obtain ⟨i, present, rfl⟩ := Array.mem_iff_getElem.mp member
  have earlier := orphans.stillborn i _ (Array.getElem?_eq_getElem present)
  simp only [Bool.and_eq_true, beq_iff_eq, not_and]
  intro dead
  exact Nat.ne_of_lt (earlier dead)

/-- A live run of the current generation is counted besides the others. -/
theorem Accounted.active_eq {p : Performance α} (books : p.Accounted) {i : Nat} {r : Run α}
    (found : p.runs[i]? = some r) (live : r.isLive = true) (current : r.generation = p.session.generation) :
    p.session.active = (p.runs.modify i fun _ => r.withStatus (.ended (.finished r.position))).countP
      (fun r => r.isCounted && r.generation == p.session.generation) + 1 := by
  have without := countP_modify found (r.withStatus (.ended (.finished r.position)))
    fun r => r.isCounted && r.generation == p.session.generation
  have out : (r.withStatus (.ended (.finished r.position))).isCounted = false := rfl
  have counted : r.isCounted = true := by simp [Run.isCounted, live]
  simp only [counted, current, out, beq_self_eq_true, Bool.and_true, Bool.false_and, Bool.false_eq_true, if_true,
    if_false] at without
  rw [books.active, census]
  omega

/-- Live runs of the current generation are counted. -/
theorem Accounted.two_le {p : Performance α} (books : p.Accounted) {i j : Nat} {r s : Run α}
    (first : p.runs[i]? = some r) (second : p.runs[j]? = some s) (apart : i ≠ j) (live : r.isLive = true)
    (live' : s.isLive = true) (current : r.generation = p.session.generation)
    (current' : s.generation = p.session.generation) : 2 ≤ p.session.active := by
  -- Without one of the two the other one is still counted.
  have left : 0 < (p.runs.modify i fun _ => r.withStatus (.ended (.finished r.position))).countP
      fun r => r.isCounted && r.generation == p.session.generation := by
    refine Array.countP_pos_iff.mpr ⟨s, Array.mem_of_getElem? (i := j) ?_, by simp [Run.isCounted, live', current']⟩
    rw [Array.getElem?_modify, if_neg apart, second]
  rw [books.active_eq first live current]
  omega

/-- Where no other run is counted, a live one is the only one. -/
theorem Accounted.eq_one {p : Performance α} (books : p.Accounted) {i : Nat} {r : Run α}
    (found : p.runs[i]? = some r) (live : r.isLive = true) (current : r.generation = p.session.generation)
    (others : ∀ (j : Nat) (s : Run α), p.runs[j]? = some s → j ≠ i → s.isCounted = false) : p.session.active = 1 := by
  have out : (r.withStatus (.ended (.finished r.position))).isCounted = false := rfl
  have left : (p.runs.modify i fun _ => r.withStatus (.ended (.finished r.position))).countP
      (fun r => r.isCounted && r.generation == p.session.generation) = 0 := by
    refine Array.countP_eq_zero.mpr fun s member => ?_
    obtain ⟨j, there⟩ := Array.mem_iff_getElem?.mp member
    rw [Array.getElem?_modify] at there
    split at there
    · obtain ⟨_, -, rfl⟩ := Option.map_eq_some_iff.mp there
      simp [out]
    · simp [others j s there (Ne.symm ‹_›)]
  rw [books.active_eq found live current, left]

variable [Scalar α]

theorem Accounted.closed {p : Performance α} {id : Nat} {run : Run α} (books : p.Accounted)
    (found : p.runs[id]? = some run) (live : run.isLive = true) {outcome : Outcome α}
    (begun : outcome = .cancelled → 0 < run.cursor) : (p.closed id run outcome).Accounted := by
  have paced := books.paced id run found
  have counted : run.isCounted = true := by simp [Run.isCounted, live]
  have out : (run.withStatus (.ended outcome)).isCounted = false := by
    cases outcome with
    | cancelled =>
      have := begun rfl
      simp [Run.isCounted, Run.isLive, Run.isStillborn, Run.withStatus]
      omega
    | _ => simp [Run.isCounted, Run.isLive, Run.isStillborn, Run.withStatus]
  have runs := modify_found found (·.withStatus (.ended outcome))
  by_cases current : run.generation = p.session.generation
  · have positive : 0 < p.session.active := by
      rw [books.active, census, Array.countP_pos_iff]
      obtain ⟨_, member⟩ := Array.getElem?_eq_some_iff.mp found
      exact ⟨run, member ▸ Array.getElem_mem _, by simp [counted, current]⟩
    refine books.replace found runs rfl (paced.ended outcome) ?_ ?_ ?_
    · simp [Performance.closed, Performance.onRun, Performance.counted, Session.runFinished, Session.notify, current]
    · simp [Performance.closed, Performance.onRun, Performance.counted, Session.runFinished, Session.notify,
        current, counted, out]
      omega
    · simp [Performance.closed, Performance.onRun, Performance.counted, Session.strayFinish?, current,
        Nat.pos_iff_ne_zero.mp positive]
  · refine books.replace found runs rfl (paced.ended outcome) ?_ ?_ ?_
    · simp [Performance.closed, Performance.onRun, Performance.counted, Session.runFinished, current]
    · simp [Performance.closed, Performance.onRun, Performance.counted, Session.runFinished, current]
    · simp [Performance.closed, Performance.onRun, Performance.counted, Session.strayFinish?, current]

theorem Turn.accounted {id : Nat} {run place : Run α} {p q : Performance α} (turn : Turn id run place p q)
    (books : p.Accounted) (found : p.runs[id]? = some run) (live : run.isLive = true) : q.Accounted := by
  cases turn with
  | goes going moves _ => exact going.accounted books found live moves
  | ends outcome going moves _ begun _ _ =>
    have kept := going.accounted books found live moves
    refine kept.closed going.runs.found moves.live fun cancelled => ?_
    exact (kept.paced id _ going.runs.found).begun (begun cancelled)
  | vanishes created _ _ => exact books.vanish found created

theorem accounted_stable : Stable (Accounted (α := α)) where
  aside books still := books.aside still
  addRun position _ _ books _ := books.addRun position _
  opened _ books := books.transfer rfl rfl rfl (.refl _)
  stopped books := books.transfer rfl rfl rfl (.refl _)
  cleared books := books.cleared

theorem Accounted.take {p : Performance α} (books : p.Accounted) {m : Moment α}
    (ready : p.enabled m.act = true) : (p.take m).Accounted :=
  accounted_stable.take books ready (fun _ found live turn => turn.accounted books found live)
    (.inr (books.transfer rfl rfl rfl (.refl _)))

theorem Turn.orphaned {id : Nat} {run place : Run α} {p q : Performance α} (turn : Turn id run place p q)
    (books : p.Accounted) (orphans : p.Orphaned) (found : p.runs[id]? = some run)
    (live : run.isLive = true) : q.Orphaned := by
  cases turn with
  | goes going moves _ => exact going.orphaned orphans found moves
  | ends outcome going moves _ begun _ _ =>
    have kept := going.accounted books found live moves
    have runs := modify_found going.runs.found (·.withStatus (.ended outcome))
    refine (going.orphaned orphans found moves).replace going.runs.found runs rfl (closed_generation ..)
      (closed_isAsked _ _ _ _) fun dead => ?_
    cases outcome with
    | cancelled =>
      have begun := (kept.paced id _ going.runs.found).begun (begun rfl)
      simp only [Run.isStillborn, Run.withStatus, beq_iff_eq] at dead
      omega
    | _ => simp [Run.isStillborn, Run.withStatus] at dead
  | vanishes created asked _ =>
    obtain ⟨r, there, earlier⟩ := orphans.asked id asked
    obtain rfl := Option.some.inj (found.symm.trans there)
    have runs := modify_found found (·.withStatus (.ended .cancelled))
    exact orphans.replace found runs rfl rfl (fun _ => rfl) fun _ => earlier

theorem orphaned_stable : Stable fun p : Performance α => p.Accounted ∧ p.Orphaned where
  aside holds still := ⟨holds.1.aside still, holds.2.aside still⟩
  addRun position _ _ holds _ := ⟨holds.1.addRun position _, holds.2.addRun position _⟩
  opened _ holds := ⟨accounted_stable.opened _ holds.1, holds.2.transfer rfl rfl fun _ => rfl⟩
  stopped holds := ⟨accounted_stable.stopped holds.1, holds.2.transfer rfl rfl fun _ => by simp [isAsked, stopped]⟩
  cleared holds := ⟨holds.1.cleared, holds.2.cleared holds.1⟩

/-- While nothing is broken off, every act leaves the orphans in earlier generations. -/
theorem Orphaned.take {p : Performance α} {m : Moment α} (holds : p.Accounted ∧ p.Orphaned)
    (ready : p.enabled m.act = true) (whole : p.unbroken m = true) :
    (p.take m).Accounted ∧ (p.take m).Orphaned :=
  orphaned_stable.take holds ready
    (fun _ found live turn => ⟨turn.accounted holds.1 found live, turn.orphaned holds.1 holds.2 found live⟩)
    (.inl whole)

theorem Fresh.accounted {p : Performance α} (fresh : p.Fresh) : p.Accounted := by
  obtain ⟨blocks, config, clock, engine, rfl⟩ := fresh
  exact ⟨rfl, by simp [initial], by simp [initial], by simp [initial]⟩

theorem Fresh.orphaned {p : Performance α} (fresh : p.Fresh) : p.Orphaned := by
  obtain ⟨blocks, config, clock, engine, rfl⟩ := fresh
  exact ⟨by simp [initial, isAsked], by simp [initial]⟩

theorem Execution.accounted {p : Performance α} {ms : List (Moment α)} (ran : Execution p ms)
    (books : p.Accounted) : (p.after ms).Accounted :=
  ran.invariant (fun _ _ books ready => books.take ready) books

theorem Execution.orphaned {p : Performance α} {ms : List (Moment α)} (ran : Execution p ms)
    (whole : Along (fun p m => p.unbroken m = true) p ms) (holds : p.Accounted ∧ p.Orphaned) :
    (p.after ms).Orphaned := by
  induction ms generalizing p with
  | nil => exact holds.2
  | cons m rest ih => exact ih ran.2 whole.2 (Orphaned.take holds ran.1 whole.1)

/-- In every execution the count of active runs is that of the live runs of the
current generation and of those that were cancelled before their first step, of
which there are none unless ending everything at once was broken off; and no run
is ever counted out that was not counted. -/
theorem active_counts_live_runs {p : Performance α} {ms : List (Moment α)} (fresh : p.Fresh)
    (ran : Execution p ms) :
    (p.after ms).session.active = (p.after ms).census Run.isLive + (p.after ms).census Run.isStillborn ∧
      (∀ e ∈ (p.after ms).journal.toList, e.isOfSession = false) ∧
      (Along (fun p m => p.unbroken m = true) p ms →
        (p.after ms).session.active = (p.after ms).census Run.isLive) := by
  have books : (p.after ms).Accounted := ran.accounted fresh.accounted
  have count := books.active.trans (p.after ms).census_isCounted
  refine ⟨count, books.records, fun whole => ?_⟩
  have orphans := ran.orphaned whole ⟨fresh.accounted, fresh.orphaned⟩
  rw [count, orphans.no_stillborn, Nat.add_zero]

def unsilenced : Performance ℚ :=
  initial [("main", ["play a"]), ("a", ["waitsec 1"])] default (.virtual 0)
    { recorder := true, refused := ["silence"] }

def brokenOff : List (Moment ℚ) :=
  [⟨0, .begin⟩, ⟨0, .wake 0 .go⟩, ⟨0, .step 0⟩, ⟨0, .forceStop⟩, ⟨0, .wake 1 .cancel⟩, ⟨0, .wake 0 .cancel⟩]

theorem active_counts_live_runs_unsilenced :
    unsilenced.Fresh ∧ Execution unsilenced brokenOff ∧
      (unsilenced.after brokenOff).session.active =
        (unsilenced.after brokenOff).census Run.isLive + (unsilenced.after brokenOff).census Run.isStillborn := by
  have fresh : unsilenced.Fresh := ⟨_, _, _, _, rfl⟩
  have ran : Execution unsilenced brokenOff := by decide +kernel
  exact ⟨fresh, ran, (active_counts_live_runs fresh ran).1⟩

/-- No run is live and one is counted. -/
theorem broken_off_miscounts :
    Execution unsilenced brokenOff ∧ (unsilenced.after brokenOff).session.active = 1 ∧
      (unsilenced.after brokenOff).census Run.isLive = 0 := by
  decide +kernel

end Performance

end Partita
