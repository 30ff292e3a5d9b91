import Partita.Proofs.Performance.Accounting
import Partita.Proofs.Performance.Course

/-! The books are kept whatever is asked of a performance and whenever, so long as no run that
has ended gets another turn. In particular they are kept when runs are cancelled from outside,
of which those that have not taken their first step are never counted out. -/
namespace Partita

open Score

variable {α : Type}

namespace Performance

/-- A later state of a performance with the books in order, in which the runs of a kind may have
changed and those that are new are live. -/
structure Balances (turned : Nat → Prop) (p q : Performance α) : Prop where
  accounted : q.Accounted
  others : ∀ j < p.runs.size, ¬ turned j → q.runs[j]? = p.runs[j]?
  new : ∀ (j : Nat) (r : Run α), p.runs.size ≤ j → q.runs[j]? = some r → r.isLive = true

theorem Balances.mono {turned turned' : Nat → Prop} {p q : Performance α} (balances : p.Balances turned q)
    (wider : ∀ i, turned i → turned' i) : p.Balances turned' q :=
  ⟨balances.accounted, fun j inside other => balances.others j inside fun here => other (wider j here), balances.new⟩

theorem Balances.of_modify {p q : Performance α} {id : Nat} (books : q.Accounted) (f : Run α → Run α)
    (runs : q.runs = p.runs.modify id f) : p.Balances (· = id) q := by
  refine ⟨books, fun j _ other => ?_, fun j r missing there => ?_⟩
  · rw [runs, Array.getElem?_modify, if_neg (Ne.symm other)]
  · have inside := (Array.getElem?_eq_some_iff.mp there).1
    rw [runs, Array.size_modify] at inside
    omega

theorem Going.others {id : Nat} {p q : Performance α} {run : Run α} {started : List (Run α)}
    (going : Going id p q run started) (j : Nat) (inside : j < p.runs.size) (other : j ≠ id) :
    q.runs[j]? = p.runs[j]? := by
  have there := Array.getElem?_eq_getElem inside
  rw [there, going.runs.other other there]

theorem Going.new {id : Nat} {p q : Performance α} {run : Run α} {started : List (Run α)}
    (going : Going id p q run started) (j : Nat) {r : Run α} (missing : p.runs.size ≤ j)
    (there : q.runs[j]? = some r) : r.isLive = true := by
  rcases going.origin there with ⟨rfl, -⟩ | ⟨-, old⟩ | ⟨-, listed⟩
  · exact absurd going.runs.present (Nat.not_lt_of_le missing)
  · exact absurd (Array.getElem?_eq_some_iff.mp old).1 (Nat.not_lt_of_le missing)
  · simp [Run.isLive, (going.fresh r listed).status]

variable [Scalar α]

theorem Turn.balances {id : Nat} {run place : Run α} {p q : Performance α} (turn : Turn id run place p q)
    (books : p.Accounted) (found : p.runs[id]? = some run) (live : run.isLive = true) :
    p.Balances (· = id) q := by
  have kept := turn.accounted books found live
  cases turn with
  | goes going moves _ => exact ⟨kept, going.others, fun j r => going.new j⟩
  | @ends q run' started outcome going moves _ _ _ _ =>
    have elsewhere (j : Nat) (other : j ≠ id) : (q.closed id run' outcome).runs[j]? = q.runs[j]? := by
      simp only [closed, onRun, Array.getElem?_modify, if_neg (Ne.symm other)]
      rfl
    refine ⟨kept, fun j inside other => ?_, fun j r missing there => ?_⟩
    · rw [elsewhere j other]
      exact going.others j inside other
    · have present := going.runs.present
      rw [elsewhere j (by omega)] at there
      exact going.new j missing there
  | vanishes _ _ _ => exact .of_modify kept (·.withStatus (.ended .cancelled)) rfl

theorem Woken.balances {time : α} {id : Nat} {w : Wake} {run : Run α} {p q : Performance α}
    (woken : Woken time id w run p q) (books : p.Accounted) (found : p.runs[id]? = some run) (live : run.isLive = true)
    (idle : run.status ≠ .running) : p.Balances (· = id) q := by
  have paced := books.paced id run found
  cases woken with
  | vanishes created why => exact .of_modify (books.vanish found created) (·.withStatus (.ended .cancelled)) rfl
  | @closes outcome begun why =>
    refine .of_modify (books.closed found live fun _ => paced.begun ?_) (·.withStatus (.ended outcome)) rfl
    cases status : run.status with
    | created => exact absurd status begun
    | running => exact absurd status idle
    | ended outcome => simp [Run.isLive, status] at live
    | _ => simp [Run.isSuspended, status]
  | ignores spent =>
    rcases spent with running | ⟨outcome, ended⟩
    · exact absurd running idle
    · simp [Run.isLive, ended] at live
  | resumes clock position still =>
    have moves : run.Moves run { run with position := position run, status := .running } :=
      ⟨rfl, rfl, rfl, rfl, rfl, rfl, fun paced => ⟨by simp, by simp [Run.isSuspended], paced.loops⟩⟩
    have turn : Turn id run run p q :=
      .goes ((((Going.refl found).setClock clock).onRun _).aside still) moves (.inl rfl)
    exact turn.balances books found live
  | settles waits settled =>
    have suspended : run.isSuspended = true := by simp [Run.isSuspended, waits]
    have turn := settled.turn (Going.refl found) fun _ position ongoing => .of_resumed suspended position ongoing
    exact turn.balances books found live

/-- The turn of a live run keeps the books, whatever takes the run out of what it waits for. -/
theorem Turned.balances {time : α} {id : Nat} {run : Run α} {p q : Performance α} (turned : p.Turned time id q)
    (books : p.Accounted) (found : p.runs[id]? = some run) (live : run.isLive = true) :
    p.Balances (· = id) q := by
  rcases turned.cases with ⟨missing, -⟩ | ⟨run', found', here⟩
  · cases missing.symm.trans found
  · obtain rfl := Option.some.inj (found.symm.trans found')
    rcases here with ⟨running, rfl⟩ | ⟨idle, w, woken⟩
    · exact (step_turn time found running).balances books found live
    · exact woken.balances books found live idle

/-- A later state of a performance in which runs were added, each of them counted. -/
structure Augments (p q : Performance α) : Prop where
  accounted : p.Accounted → q.Accounted
  runs : ∃ started : Array (Run α), q.runs = p.runs ++ started ∧ ∀ r ∈ started, r.isLive = true

namespace Augments

variable {p q r : Performance α}

omit [Scalar α] in
theorem of_runs (accounted : p.Accounted → q.Accounted) (runs : q.runs = p.runs) : p.Augments q :=
  ⟨accounted, #[], by simp [runs], by simp⟩

omit [Scalar α] in
theorem refl (p : Performance α) : p.Augments p := .of_runs id rfl

omit [Scalar α] in
theorem trans (first : p.Augments q) (second : q.Augments r) : p.Augments r := by
  obtain ⟨started, runs, live⟩ := first.runs
  obtain ⟨started', runs', live'⟩ := second.runs
  refine ⟨fun books => second.accounted (first.accounted books), started ++ started', ?_, fun s member => ?_⟩
  · rw [runs', runs, Array.append_assoc]
  · exact (Array.mem_append.mp member).elim (live s) (live' s)

instance : IsPreorder (Performance α) Augments where
  refl := refl
  trans _ _ _ := trans

omit [Scalar α] in
theorem of_aside {sounds : List (Event α)} (still : p.Aside sounds q) : p.Augments q :=
  .of_runs (·.aside still) still.runs

omit [Scalar α] in
theorem of_addRun (p : Performance α) (position : α) (block : String × List String) :
    p.Augments (p.addRun position block) :=
  ⟨(·.addRun position block), #[newRun p.session.generation position block], rfl, by simp [newRun, Run.isLive]⟩

omit [Scalar α] in
theorem balances (augments : p.Augments q) (books : p.Accounted) : p.Balances (fun _ => False) q := by
  obtain ⟨started, runs, live⟩ := augments.runs
  refine ⟨augments.accounted books, fun j inside _ => ?_, fun j r missing there => ?_⟩
  · rw [runs, Array.getElem?_append_left inside]
  · rw [runs, Array.getElem?_append_right missing] at there
    exact live r (Array.mem_of_getElem? there)

end Augments

theorem augments_stable (p : Performance α) : Stable p.Augments where
  aside later still := later.trans (.of_aside still)
  addRun position _ _ later _ := later.trans (.of_addRun _ position _)
  opened _ later := later.trans (.of_runs (accounted_stable.opened _) rfl)
  stopped later := later.trans (.of_runs accounted_stable.stopped rfl)
  cleared later := later.trans (.of_runs Accounted.cleared rfl)

section operations

variable (p : Performance α)

theorem spawn_augments (name : String) (position : α) : p.Augments (runFrom (spawn name position) p).2 :=
  p.augments_stable.spawn (.refl p) name position

theorem begin_augments (time : α) : p.Augments (runFrom (begin time) p).2 :=
  p.augments_stable.begin (.refl p) time

theorem stop_augments : p.Augments (runFrom stop p).2 :=
  p.augments_stable.aside (p.augments_stable.stopped (.refl p)) (stop_aside p)

theorem forceStop_augments : p.Augments (runFrom forceStop p).2 :=
  p.augments_stable.forceStop (.refl p) (.inr (.of_runs (fun books => books.transfer rfl rfl rfl (.refl _)) rfl))

theorem normalizeVolumes_augments : p.Augments (runFrom normalizeVolumes p).2 :=
  .of_aside (normalizeVolumes_aside p).1

end operations

end Performance

end Partita
