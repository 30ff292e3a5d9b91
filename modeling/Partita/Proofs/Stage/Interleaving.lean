import Mathlib.Logic.Relation
import Partita.Proofs.Stage.Resumption

/-! Everything that may happen on a stage, in any order: the loop takes its small steps, with
what is queued for a round in any order, and between them sessions are operated on, tasks are
cancelled and more tasks wait for a session to settle. -/
namespace Partita

variable {α : Type} [Scalar α]

namespace Frame

/-- The calls of a task: at most one call inside its outermost one. -/
inductive Stacked : List (Frame α) → Prop
  | none : Stacked []
  | one (frame : Frame α) : Stacked [frame]
  | two {top base : Frame α} (inside : top.isBase = false) (outermost : base.isBase = true) : Stacked [top, base]

omit [Scalar α] in
theorem Stacked.rest {frame : Frame α} {rest : List (Frame α)} (stacked : Stacked (frame :: rest)) :
    rest = [] ∨ frame.isBase = false ∧ ∃ base, rest = [base] ∧ base.isBase = true := by
  cases stacked with
  | one => exact .inl rfl
  | two inside outermost => exact .inr ⟨inside, _, rfl, outermost⟩

omit [Scalar α] in
theorem Stacked.alone {frame : Frame α} {rest : List (Frame α)} (stacked : Stacked (frame :: rest))
    (base : frame.isBase = true) : rest = [] := by
  rcases stacked.rest with alone | ⟨inside, -⟩
  · exact alone
  · rw [base] at inside
    cases inside

omit [Scalar α] in
theorem Newly.first {frames : List (Frame α)} (newly : Newly isAide frames) : Newly isFirst frames := by
  refine newly.imp_right fun ⟨frame, one, aide⟩ => ⟨frame, one, ?_⟩
  cases frame with
  | run => rfl
  | _ => exact aide

omit [Scalar α] in
theorem Newly.stacked {kind : Frame α → Bool} {frames : List (Frame α)} (newly : Newly kind frames) :
    Stacked frames := by
  rcases newly with rfl | ⟨frame, rfl, -⟩
  · exact .none
  · exact .one frame

omit [Scalar α] in
theorem Newly.mem {kind : Frame α → Bool} {frames : List (Frame α)} (newly : Newly kind frames) {frame : Frame α}
    (member : frame ∈ frames) : kind frame = true := by
  rcases newly with rfl | ⟨only, rfl, first⟩
  · cases member
  · exact List.mem_singleton.mp member ▸ first

end Frame

namespace Loop

variable {ν φ : Type} {P : List φ → Prop} {l k : Loop α ν φ} {task : Nat}

omit [Scalar α] in
/-- A task that is in no call stays out of any. -/
theorem Enters.serves (enters : l.Enters P task [] (fun _ => False) k) (empty : P [])
    (bare : l.frames task = []) : l.Serves P k := by
  have own : k.frames task = [] := enters.own.elim id (·.2)
  refine ⟨enters.size, fun c inside => ?_, fun c missing => ?_, fun c a waits => ?_, enters.done⟩
  · by_cases same : c = task
    · rw [same, own, bare]
    · exact enters.others c inside same
  · by_cases same : c = task
    · rwa [same, own]
    · exact enters.new c missing same
  · exact (enters.awaits c a waits).resolve_right (·.2)

omit [Scalar α] in
theorem Serves.stacked {kind : Frame α → Bool} {l k : Loop α ν (Frame α)} (serves : l.Serves (Frame.Newly kind) k)
    (stacked : ∀ c, Frame.Stacked (l.frames c)) (c : Nat) : Frame.Stacked (k.frames c) := by
  rcases serves.frames c with same | newly
  · rw [same]
    exact stacked c
  · exact newly.stacked

end Loop

namespace Stage

variable {s t : Stage α} {l : Loop α (Value α) (Frame α)} {allowed : SessionCue α → Prop}

/-- What may happen next on a stage. -/
inductive Happens (allowed : SessionCue α → Prop) (s : Stage α) : Stage α → Prop
  | step {t : Stage α} (taken : s.step? = some t) : Happens allowed s t
  | session (part : Nat) {cue : SessionCue α} (permitted : allowed cue) :
      Happens allowed s (s.onPart part (sessionAct cue)).2
  | wait (part : Nat) (baseline : Int) (timeout : α) :
      Happens allowed s (s.onLoop fun l => (l.newTask [.settle part baseline timeout none]).2)
  | cancel (cell : Nat) : Happens allowed s (s.onLoop (·.cancel cell))
  | reorder {round : List Callback} (same : round.Perm s.loop.round) :
      Happens allowed s (s.onLoop ({ · with round }))

structure Idles (s t : Stage α) : Prop where
  parts : t.parts = s.parts
  engines : t.engines = s.engines
  listeners : t.listeners = s.listeners
  loop : s.loop.Serves (Frame.Newly Frame.isAide) t.loop

theorem Idles.serves (idles : s.Idles t) : s.Serves t :=
  .of_loop idles.parts idles.engines idles.listeners (idles.loop.mono fun _ newly => newly.first)

omit [Scalar α] in
theorem Idles.of_stays (stays : s.loop.Stays l) : s.Idles { s with loop := l } :=
  ⟨rfl, rfl, rfl, stays.serves (.inl rfl)⟩

/-- A small step is that of a task that has received a signal, or only the loop goes on. -/
theorem step?_cases (taken : s.step? = some t) :
    s.Idles t ∨ ∃ task frame rest, s.loop.frames task = frame :: rest ∧ s.Receives task frame rest t := by
  cases stepped_of_step? taken with
  | @turn task r active =>
    cases calls : s.loop.frames task with
    | nil =>
      unfold deliver
      rw [calls]
      exact .inl ⟨rfl, rfl, rfl, (s.loop.leave_enters (.inl rfl) task [] r).serves (.inl rfl) calls⟩
    | cons frame rest => exact .inr ⟨task, frame, rest, calls, deliver_receives calls r⟩
  | @call cb rest idle next =>
    have began : s.loop.Stays { s.loop with round := rest } := .of_cells rfl
    exact .inl (.of_stays (began.trans (Loop.run_stays _ Value.nothing cb)))
  | round idle drained begun => exact .inl (.of_stays (Loop.nextRound?_stays begun))

/-- Whatever happens is a step of a task that has received a signal or an operation on a session,
or only the loop goes on. -/
theorem Happens.cases (happens : s.Happens allowed t) : s.Idles t ∨
    (∃ part cue, allowed cue ∧ s.Operates part (fun p q => q = (runFrom (sessionAct cue) p).2) t) ∨
    ∃ task frame rest, s.loop.frames task = frame :: rest ∧ s.Receives task frame rest t := by
  cases happens with
  | step taken => exact (step?_cases taken).imp_right .inr
  | @session part cue permitted =>
    exact .inr (.inl ⟨part, cue, permitted, onPart_operates (.refl s) fun _ _ => rfl⟩)
  | wait part baseline timeout =>
    exact .inl ⟨rfl, rfl, rfl, s.loop.newTask_serves (.inl rfl) (.inr ⟨_, rfl, rfl⟩)⟩
  | cancel cell => exact .inl (.of_stays (s.loop.cancel_stays cell))
  | reorder same => exact .inl (.of_stays (.of_cells rfl))

omit [Scalar α] in
theorem Becomes.stacked {task : Nat} {frame : Frame α} {rest next : List (Frame α)}
    (becomes : Becomes s t task frame rest next) (stacked : Frame.Stacked (frame :: rest)) : Frame.Stacked next := by
  cases becomes with
  | leaves last =>
    rcases stacked.rest with rfl | ⟨-, base, rfl, -⟩
    · exact .none
    · exact .one base
  | goes next =>
    rcases stacked.rest with rfl | ⟨inside, base, rfl, outermost⟩
    · exact .one _
    · exact .two (next.isBase.trans inside) outermost
  | waits base next inside quiet =>
    obtain rfl := stacked.alone base
    exact .two inside (next.isBase.trans base)
  | watches base next watched found unsettled listens =>
    obtain rfl := stacked.alone base
    exact .two rfl (next.isBase.trans base)
  | listens same => exact stacked

omit [Scalar α] in
theorem Resumes.frames {task c : Nat} {frame : Frame α} {rest : List (Frame α)}
    (resumes : s.Resumes task frame rest t) (other : c ≠ task) :
    t.loop.frames c = s.loop.frames c ∨ Frame.Newly Frame.isAide (t.loop.frames c) := by
  by_cases inside : c < s.loop.cells.size
  · exact .inl (resumes.others c inside other)
  · exact .inr (resumes.new c (Nat.le_of_not_lt inside))

omit [Scalar α] in
theorem Resumes.stacked {task : Nat} {frame : Frame α} {rest : List (Frame α)}
    (resumes : s.Resumes task frame rest t) (calls : s.loop.frames task = frame :: rest)
    (stacked : ∀ c, Frame.Stacked (s.loop.frames c)) (c : Nat) : Frame.Stacked (t.loop.frames c) := by
  by_cases own : c = task
  · subst own
    exact resumes.becomes.stacked (calls ▸ stacked c)
  · rcases resumes.frames own with same | newly
    · rw [same]
      exact stacked c
    · exact newly.stacked

omit [Scalar α] in
/-- An outermost call of a task is one that it was in, or the one in which it goes on. -/
theorem Becomes.origin {task : Nat} {frame : Frame α} {rest next : List (Frame α)}
    (becomes : Becomes s t task frame rest next) {f : Frame α} (member : f ∈ next) (outermost : f.isBase = true) :
    f ∈ rest ∨ frame.Next s f := by
  have inner {frame' : Frame α} (next : frame.Next s frame') (member : f ∈ frame' :: rest) :
      f ∈ rest ∨ frame.Next s f := by
    rcases List.mem_cons.mp member with rfl | member
    · exact .inr next
    · exact .inl member
  cases becomes with
  | leaves last => exact .inl member
  | goes next => exact inner next member
  | waits base next inside quiet =>
    rcases List.mem_cons.mp member with rfl | member
    · cases inside.symm.trans outermost
    · exact inner next member
  | watches base next watched found unsettled listens =>
    rcases List.mem_cons.mp member with rfl | member
    · cases outermost
    · exact inner next member
  | listens same =>
    subst same
    rcases List.mem_cons.mp member with rfl | member
    · cases outermost
    · exact .inl member

def conducted (p : Performance α) (engine : Engine α) (cues : List (Cue α)) : Stage α :=
  let (_, s) := ({ initial with engines := #[engine] } : Stage α).addPart p 0
  s.onLoop fun l => (l.newTask [.conductor cues false]).2

theorem runUntil_reaches (s : Stage α) (cell fuel : Nat) :
    Relation.ReflTransGen (Happens allowed) s (s.runUntil cell fuel) := by
  induction fuel generalizing s with
  | zero => exact .refl
  | succ fuel ih =>
    unfold runUntil
    split
    · exact .refl
    · split
      · rename_i t taken
        exact .head (.step taken) (ih t)
      · exact .refl

/-- Conducting a performance to its end is one of the things that may happen. -/
theorem conduct_reached (p : Performance α) (engine : Engine α) (cues : List (Cue α)) :
    Relation.ReflTransGen (Happens allowed) (conducted p engine cues) (conduct p engine cues) :=
  runUntil_reaches (conducted p engine cues) 0 patience

/-- At first the conductor is the only task, and has not begun. -/
theorem conducted_frames (p : Performance α) (engine : Engine α) (cues : List (Cue α)) (c : Nat) :
    (conducted p engine cues).loop.frames c = [] ∨
      (conducted p engine cues).loop.frames c = [.conductor cues false] := by
  have made := Loop.newTask_serves (P := fun frames => frames = [] ∨ frames = [Frame.conductor cues false])
    (Loop.initial (α := α) (ν := Value α)) (.inl rfl) (.inr rfl)
  exact made.new c (Nat.zero_le c)

end Stage

end Partita
