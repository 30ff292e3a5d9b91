import Partita.Proofs.Stage.Calls
import Partita.Proofs.Stage.Following

/-! What a performance asks for is carried out without taking any task out of its calls: the
runs it tells of become new tasks, and whoever waits for a change that it announces is told.
So nobody is left waiting for a change that has come. -/
namespace Partita

variable {α : Type}

namespace Frame

/-- Whether a task may begin in a call at another task's wish. -/
def isAide : Frame α → Bool
  | .listen .. | .settle .. | .open_ .. => true
  | _ => false

def isFirst : Frame α → Bool
  | .run .. => true
  | frame => frame.isAide

def Newly (kind : Frame α → Bool) (frames : List (Frame α)) : Prop :=
  frames = [] ∨ ∃ frame, frames = [frame] ∧ kind frame = true

end Frame

variable [Scalar α]

namespace Stage

variable {s t u : Stage α}

/-- Stages that differ only in what was reported. -/
structure Agrees (s t : Stage α) : Prop where
  loop : t.loop = s.loop
  parts : t.parts = s.parts
  engines : t.engines = s.engines
  listeners : t.listeners = s.listeners

omit [Scalar α] in
theorem Agrees.refl (s : Stage α) : s.Agrees s := ⟨rfl, rfl, rfl, rfl⟩

/-- Operates on a performance and carries out what it asks for. -/
inductive Operates (part : Nat) (R : Performance α → Performance α → Prop) (s : Stage α) : Stage α → Prop
  | idle {t : Stage α} (agrees : s.Agrees t) : Operates part R s t
  | acts {u : Stage α} {x : Part α} {q : Performance α} (agrees : s.Agrees u) (found : s.parts[part]? = some x)
      (effect : R (s.mounted x) q) :
      Operates part R s (q.outbox.foldl (fun s r => s.serve part r) (u.stored part x q))

omit [Scalar α] in
theorem onPart_operates {β : Type} {part : Nat} {R : Performance α → Performance α → Prop} (agrees : s.Agrees u)
    {act : PerformM α β}
    (effect : ∀ x, s.parts[part]? = some x → R (s.mounted x) (runFrom act (s.mounted x)).2) :
    s.Operates part R (u.onPart part act).2 := by
  cases found : u.parts[part]? with
  | none =>
    unfold onPart
    rw [found]
    exact .idle agrees
  | some x =>
    rw [onPart_eq found]
    have mounted : u.mounted x = s.mounted x := by simp only [Stage.mounted, agrees.engines]
    rw [mounted]
    have there : s.parts[part]? = some x := agrees.parts ▸ found
    exact .acts agrees there (effect x there)

/-- The listeners wait for a change that has not come. -/
def Heard (s : Stage α) : Prop :=
  ∀ x ∈ s.listeners, ∀ y, s.parts[x.part]? = some y → y.performance.session.changes ≤ x.epoch

structure Serves (s t : Stage α) : Prop where
  follows : s.Follows (fun _ => True) t
  loop : s.loop.Serves (Frame.Newly Frame.isFirst) t.loop
  fewer : ∀ x ∈ t.listeners, x ∈ s.listeners
  kept : ∀ x ∈ s.listeners, x.cell < s.loop.cells.size → x ∈ t.listeners ∨ t.loop.isDone x.cell = true
  heard : s.Heard → t.Heard

namespace Serves

theorem of_loop (parts : t.parts = s.parts) (engines : t.engines = s.engines) (listeners : t.listeners = s.listeners)
    (loop : s.loop.Serves (Frame.Newly Frame.isFirst) t.loop) : s.Serves t where
  follows := .of_same parts engines
  loop := loop
  fewer _ member := listeners ▸ member
  kept _ member _ := .inl (listeners ▸ member)
  heard heard x member y found := heard x (listeners ▸ member) y (parts ▸ found)

theorem of_stays (parts : t.parts = s.parts) (engines : t.engines = s.engines)
    (listeners : t.listeners = s.listeners) (loop : s.loop.Stays t.loop) : s.Serves t :=
  .of_loop parts engines listeners (loop.serves (.inl rfl))

theorem of_agrees (agrees : s.Agrees t) : s.Serves t :=
  .of_stays agrees.parts agrees.engines agrees.listeners (.of_cells (by rw [agrees.loop]))

theorem refl (s : Stage α) : s.Serves s := of_agrees (.refl s)

theorem trans (first : s.Serves t) (second : t.Serves u) : s.Serves u where
  follows := first.follows.trans second.follows
  loop := first.loop.trans second.loop
  fewer x member := first.fewer x (second.fewer x member)
  kept x member inside := by
    rcases first.kept x member inside with still | ended
    · exact second.kept x still (Nat.lt_of_lt_of_le inside first.loop.size)
    · exact .inr (second.loop.done x.cell ended)
  heard heard := second.heard (first.heard heard)

end Serves

omit [Scalar α] in
/-- Carrying out a request leaves the performances as they are. -/
theorem serve_performance (s : Stage α) (part : Nat) (request : Request) (k : Nat) :
    (s.serve part request).parts[k]?.map Part.performance = s.parts[k]?.map Part.performance := by
  cases request with
  | changed => rfl
  | spawned run =>
    simp only [serve, Array.getElem?_modify]
    split
    · cases s.parts[k]? <;> rfl
    · rfl
  | cancel run =>
    unfold serve
    dsimp only
    split <;> rfl

omit [Scalar α] in
theorem serveAll_performance (s : Stage α) (part : Nat) (requests : List Request) (k : Nat) :
    (requests.foldl (fun s r => s.serve part r) s).parts[k]?.map Part.performance =
      s.parts[k]?.map Part.performance := by
  induction requests generalizing s with
  | nil => rfl
  | cons request rest ih => exact (ih _).trans (s.serve_performance part request k)

omit [Scalar α] in
theorem onPart_performance {β : Type} {part : Nat} {x : Part α} (found : s.parts[part]? = some x)
    (act : PerformM α β) : (s.onPart part act).2.parts[part]?.map Part.performance =
      some { (runFrom act (s.mounted x)).2 with engine := {}, journal := #[], outbox := #[] } := by
  rw [onPart_eq found, ← Array.foldl_toList, serveAll_performance, stored_part found]
  rfl

omit [Scalar α] in
theorem Heard.of_performances (heard : s.Heard) (fewer : ∀ x ∈ t.listeners, x ∈ s.listeners)
    (same : ∀ k : Nat, t.parts[k]?.map Part.performance = s.parts[k]?.map Part.performance) : t.Heard := by
  intro x member y found
  have there := same x.part
  rw [found] at there
  obtain ⟨z, old, performance⟩ := Option.map_eq_some_iff.mp there.symm
  exact performance ▸ heard x (fewer x member) z old

omit [Scalar α] in
theorem foldl_complete_stays {ν φ : Type} (l : Loop α ν φ) (cells : List Listener) (r : Reply ν) :
    l.Stays (cells.foldl (fun l x => l.complete x.cell r) l) :=
  List.foldlRecOn cells _ (motive := fun k : Loop α ν φ => l.Stays k) (.refl l)
    fun k kept x _ => kept.trans (k.complete_stays x.cell r)

omit [Scalar α] in
theorem foldl_complete_done {ν φ : Type} (l : Loop α ν φ) (cells : List Listener) (r : Reply ν) {x : Listener}
    (member : x ∈ cells) (inside : x.cell < l.cells.size) :
    (cells.foldl (fun l x => l.complete x.cell r) l).isDone x.cell = true := by
  induction cells generalizing l with
  | nil => cases member
  | cons y cells ih =>
    rcases List.mem_cons.mp member with rfl | later
    · exact (foldl_complete_stays _ cells r).done _ (l.complete_done r inside)
    · exact ih _ later (Nat.lt_of_lt_of_le inside (l.complete_stays y.cell r).size)

theorem serve_serves (s : Stage α) (part : Nat) (request : Request) : s.Serves (s.serve part request) := by
  have same := s.serve_performance part request
  cases request with
  | changed =>
    have fewer : ∀ x ∈ (s.serve part .changed).listeners, x ∈ s.listeners :=
      fun x member => (List.mem_filter.mp member).1
    refine ⟨s.serve_follows part .changed, (foldl_complete_stays _ _ _).serves (.inl rfl), fewer, ?_,
      fun heard => Heard.of_performances heard fewer same⟩
    intro x member inside
    cases hears : x.part == part && decide (x.epoch < (s.parts[part]?.map (·.performance.session.changes)).getD 0) with
    | true => exact .inr (foldl_complete_done _ _ _ (List.mem_filter.mpr ⟨member, hears⟩) inside)
    | false => exact .inl (List.mem_filter.mpr ⟨member, congrArg Bool.not hears⟩)
  | spawned run =>
    exact ⟨s.serve_follows part (.spawned run), s.loop.newTask_serves (.inl rfl) (.inr ⟨_, rfl, rfl⟩), fun _ => id,
      fun _ member _ => .inl member, fun heard => Heard.of_performances heard (fun _ => id) same⟩
  | cancel run =>
    unfold serve
    dsimp only
    split
    · exact .of_stays rfl rfl rfl (s.loop.cancel_stays _)
    · exact .refl s

theorem serveAll_serves (s : Stage α) (part : Nat) (requests : List Request) :
    s.Serves (requests.foldl (fun s r => s.serve part r) s) := by
  induction requests generalizing s with
  | nil => exact .refl s
  | cons request rest ih => exact (s.serve_serves part request).trans (ih _)

/-- Once a change was announced, nobody waits any more for one that has come. -/
theorem serveAll_heard (s : Stage α) (part : Nat) {requests : List Request} (announced : .changed ∈ requests)
    {x : Listener} (waits : x ∈ (requests.foldl (fun s r => s.serve part r) s).listeners) (here : x.part = part)
    {y : Part α} (found : s.parts[part]? = some y) : y.performance.session.changes ≤ x.epoch := by
  induction requests generalizing s y with
  | nil => cases announced
  | cons request requests ih =>
    rcases List.mem_cons.mp announced with rfl | later
    · have kept := (List.mem_filter.mp ((serveAll_serves _ part requests).fewer x waits)).2
      simpa [here, found] using kept
    · have same := s.serve_performance part request part
      rw [found] at same
      obtain ⟨z, there, performance⟩ := Option.map_eq_some_iff.mp same
      have heard := ih (s.serve part request) later waits there
      rwa [performance] at heard

theorem Operates.serves {part : Nat} {R : Performance α → Performance α → Prop} (operates : s.Operates part R t)
    (continues : ∀ p q, R p q → p.Continues (fun _ => True) q) : s.Serves t := by
  cases operates with
  | idle agrees => exact .of_agrees agrees
  | @acts u x q agrees found effect =>
    have later := continues _ _ effect
    obtain ⟨requests, outbox, announced, -⟩ := later.tells
    have asked : q.outbox.toList = requests := by rw [outbox]; simp [mounted]
    have there : u.parts[part]? = some x := agrees.parts ▸ found
    have mounted : u.mounted x = s.mounted x := by simp only [Stage.mounted, agrees.engines]
    have served := (u.stored part x q).serveAll_serves part requests
    rw [← Array.foldl_toList, asked]
    refine ⟨((Serves.of_agrees agrees).follows.trans (stored_follows there (mounted ▸ later))).trans served.follows,
      agrees.loop ▸ served.loop, fun y member => agrees.listeners ▸ served.fewer y member,
      fun y member inside => served.kept y (agrees.listeners.symm ▸ member) (by rwa [← agrees.loop] at inside), ?_⟩
    intro heard y member z now
    have old : y ∈ s.listeners := agrees.listeners ▸ served.fewer y member
    have same := (u.stored part x q).serveAll_performance part requests y.part
    rw [now] at same
    by_cases here : y.part = part
    · rw [here, stored_part there] at same
      have performance := Option.some.inj same
      rw [performance]
      by_cases changed : (s.mounted x).session.changes < q.session.changes
      · exact serveAll_heard _ part (announced changed) member here (stored_part there q)
      · have before : (s.mounted x).session.changes ≤ y.epoch := heard y old x (here ▸ found)
        exact Nat.le_trans (Nat.le_of_not_lt changed) before
    · rw [stored_other u x q here, agrees.parts] at same
      obtain ⟨w, before, performance⟩ := Option.map_eq_some_iff.mp same.symm
      exact performance ▸ heard y old w before

end Stage

end Partita
