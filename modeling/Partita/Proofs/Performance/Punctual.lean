import Partita.Proofs.Performance.Confluence

/-! Real time. On an ideal loop a run goes on exactly when its pause is over, and turns take
no time. Where numbers are exact, a realtime clock then takes every run to where a virtual
clock takes it, so that a performance comes to the same on both. -/
namespace Partita

open Score

variable {α : Type}

/-- What is relied on of exact numbers: a linear order, and sums and differences that
respect it. -/
structure Scalar.Ordered (α : Type) [Scalar α] : Prop where
  le_refl : ∀ a : α, a ≤ a
  le_trans : ∀ a b c : α, a ≤ b → b ≤ c → a ≤ c
  le_antisymm : ∀ a b : α, a ≤ b → b ≤ a → a = b
  le_total : ∀ a b : α, a ≤ b ∨ b ≤ a
  lt_iff : ∀ a b : α, a < b ↔ ¬ b ≤ a
  add_zero : ∀ a : α, a + 0 = a
  sub_self : ∀ a : α, a - a = 0
  add_sub : ∀ a b c : α, a + b - c = a - c + b
  le_add : ∀ a b : α, 0 ≤ b → a ≤ a + b
  sub_le_sub : ∀ a b c : α, a ≤ b → a - c ≤ b - c

theorem Exact.ordered : Scalar.Ordered ℚ where
  le_refl _ := le_rfl
  le_trans _ _ _ := le_trans
  le_antisymm _ _ := le_antisymm
  le_total := le_total
  lt_iff _ _ := not_le.symm
  add_zero := add_zero
  sub_self := sub_self
  add_sub := add_sub_right_comm
  le_add _ _ := le_add_of_nonneg_right
  sub_le_sub _ _ c least := sub_le_sub_right least c

variable [Scalar α]

namespace Scalar.Ordered

variable (laws : Scalar.Ordered α) {a b c : α} {xs : List α}
include laws

theorem le_of_lt (less : a < b) : a ≤ b := (laws.le_total a b).resolve_right ((laws.lt_iff a b).mp less)

theorem le_of_not_lt (least : ¬ a < b) : b ≤ a := by
  by_contra other
  exact least ((laws.lt_iff a b).mpr other)

theorem zero_le_max (a : α) : 0 ≤ Scalar.max 0 a := by
  unfold Scalar.max
  split
  · exact laws.le_of_lt ‹_›
  · exact laws.le_refl 0

omit laws in
theorem max_le (first : a ≤ c) (second : b ≤ c) : Scalar.max a b ≤ c := by
  unfold Scalar.max
  split
  · exact second
  · exact first

theorem max_eq_left (least : b ≤ a) : Scalar.max a b = a :=
  if_neg fun less => (laws.lt_iff a b).mp less least

theorem max_eq_right (least : a ≤ b) : Scalar.max a b = b := by
  unfold Scalar.max
  split
  · rfl
  · exact laws.le_antisymm a b least (laws.le_of_not_lt ‹_›)

theorem maximum_eq_first (bound : ∀ x ∈ xs, x ≤ b) : Scalar.maximum b xs = b := by
  induction xs with
  | nil => rfl
  | cons x rest ih =>
    obtain ⟨first, others⟩ := List.forall_mem_cons.mp bound
    change Scalar.maximum (Scalar.max b x) rest = b
    rw [laws.max_eq_left first, ih others]

/-- The largest of some numbers is one of them that none exceeds. -/
theorem maximum_eq (least : a ≤ b) (bound : ∀ x ∈ xs, x ≤ b) (member : b ∈ xs) : Scalar.maximum a xs = b := by
  induction xs generalizing a with
  | nil => contradiction
  | cons x rest ih =>
    obtain ⟨first, others⟩ := List.forall_mem_cons.mp bound
    change Scalar.maximum (Scalar.max a x) rest = b
    rcases List.mem_cons.mp member with rfl | later
    · rw [laws.max_eq_right least, laws.maximum_eq_first others]
    · exact ih (max_le least first) others later

/-- Of finitely many candidates one comes first. -/
theorem exists_least (P : Nat → Prop) (f : Nat → α) {n : Nat} (some : ∃ i < n, P i) :
    ∃ i < n, P i ∧ ∀ j < n, P j → f i ≤ f j := by
  induction n with
  | zero => simp at some
  | succ n ih =>
    by_cases earlier : ∃ i < n, P i
    · obtain ⟨i, bound, holds, least⟩ := ih earlier
      by_cases last : P n ∧ f n ≤ f i
      · refine ⟨n, by omega, last.1, fun j below candidate => ?_⟩
        rcases Nat.lt_succ_iff_lt_or_eq.mp below with lower | rfl
        · exact laws.le_trans _ _ _ last.2 (least j lower candidate)
        · exact laws.le_refl _
      · refine ⟨i, by omega, holds, fun j below candidate => ?_⟩
        rcases Nat.lt_succ_iff_lt_or_eq.mp below with lower | rfl
        · exact least j lower candidate
        · exact (laws.le_total _ _).resolve_right fun lower => last ⟨candidate, lower⟩
    · obtain ⟨i, below, holds⟩ := some
      have only (j : Nat) (below : j < n + 1) (candidate : P j) : j = n := by
        by_contra other
        exact earlier ⟨j, by omega, candidate⟩
      obtain rfl := only i below holds
      exact ⟨i, below, holds, fun j below candidate => only j below candidate ▸ laws.le_refl _⟩

end Scalar.Ordered

def Clock.expiry (time seconds : α) (clock : Clock α) : α := match clock.pause seconds with
  | .yield => time
  | .sleep length => time + length

/-- A pause in real time lasts as long as it moves a run on a virtual clock. -/
theorem Clock.expiry_realtime (laws : Scalar.Ordered α) (origin : Option α) (time seconds : α) :
    (Clock.realtime origin).expiry time seconds = time + Scalar.max 0 seconds := by
  by_cases short : Scalar.max 0 seconds ≤ 0
  · have none := laws.le_antisymm _ _ short (laws.zero_le_max seconds)
    simp only [expiry, pause, if_pos short]
    rw [none, laws.add_zero]
  · simp only [expiry, pause, if_neg short]

namespace Performance

/-- When a run that is ready goes on: at once, or when its pause is over. -/
def dueAt (p : Performance α) (now : α) (due : Nat → α) (id : Nat) : α :=
  match p.runs[id]?.map Run.status with
  | some (.waiting ..) => due id
  | _ => now

omit [Scalar α] in
theorem dueAt_dueAt (p : Performance α) (now : α) (due : Nat → α) (id : Nat) :
    p.dueAt (p.dueAt now due id) due id = p.dueAt now due id := by
  unfold dueAt
  cases p.runs[id]?.map Run.status with
  | none => rfl
  | some status => cases status <;> rfl

/-- When the pauses are over, once a run has taken a turn that leaves the performance as it
is. -/
def rescheduled (p : Performance α) (time : α) (due : Nat → α) (id i : Nat) : α :=
  if i = id then match p.runs[id]?.map Run.status with
    | some (.waiting seconds _) => p.clock.expiry time seconds
    | _ => time
  else due i

/-- Turns on an ideal loop. Each is taken exactly when it is due, and none while another run
is due earlier; those that are due together come in any order. -/
def Punctual : Performance α → α → (Nat → α) → List (Moment α) → Prop
  | _, _, _, [] => True
  | p, now, due, m :: rest => match m.act.actor? with
    | none => False
    | some id => p.enabled m.act = true ∧ m.time = p.dueAt now due id ∧
      (∀ j < p.runs.size, p.isReady j = true → m.time ≤ p.dueAt now due j) ∧
      Punctual (p.take m) m.time ((p.take m).rescheduled m.time due id) rest

instance Punctual.decidable [DecidableEq α] : ∀ (p : Performance α) (now : α) (due : Nat → α)
    (ms : List (Moment α)), Decidable (Punctual p now due ms)
  | _, _, _, [] => .isTrue trivial
  | p, now, due, m :: rest => match turn : m.act.actor? with
    | none => .isFalse (by simp [Punctual, turn])
    | some id =>
      have := Punctual.decidable (p.take m) m.time ((p.take m).rescheduled m.time due id) rest
      decidable_of_iff (p.enabled m.act = true ∧ m.time = p.dueAt now due id ∧
        (∀ j < p.runs.size, p.isReady j = true → m.time ≤ p.dueAt now due j) ∧
        Punctual (p.take m) m.time ((p.take m).rescheduled m.time due id) rest) (by simp [Punctual, turn])

/-- Where the runs stand at a time in a performance that started at `origin`: those that are
about to go on are up to date, those that pause will be when their pause is over, and those
that wait for others will be when the last of them is. -/
structure Timely (origin now : α) (due : Nat → α) (p : Performance α) : Prop where
  clock : p.clock = .realtime (some origin)
  active : ∀ (i : Nat) (r : Run α), p.runs[i]? = some r → r.status = .created ∨ r.status = .running →
    r.position = now - origin
  pausing : ∀ (i : Nat) (r : Run α) (seconds : α) (beats : Option α), p.runs[i]? = some r →
    r.status = .waiting seconds beats → r.position + Scalar.max 0 seconds = due i - origin ∧ now ≤ due i
  playing : ∀ (i : Nat) (r : Run α) (children : List Nat), p.runs[i]? = some r → r.status = .playing children →
    r.position ≤ now - origin ∧ (children.all p.hasFinished = true →
      Scalar.maximum r.position (p.finishedAt children) = now - origin)
  ended : ∀ (i : Nat) (position : α), p.outcome? i = some (.finished position) → position ≤ now - origin

namespace Timely

variable {origin now time : α} {due : Nat → α} {p q : Performance α} {id : Nat} {run run' : Run α}
  {started : List (Run α)} {events : List (Event α)}

theorem le_dueAt (laws : Scalar.Ordered α) (timely : Timely origin now due p) (i : Nat) :
    now ≤ p.dueAt now due i := by
  unfold dueAt
  split
  · rename_i waiting
    obtain ⟨r, there, status⟩ := Option.map_eq_some_iff.mp waiting
    exact (timely.pausing i r _ _ there status).2
  · exact laws.le_refl now

/-- Until the next turn is due nothing changes but the time. -/
theorem elapse (laws : Scalar.Ordered α) (timely : Timely origin now due p) (later : now ≤ time)
    (first : ∀ j < p.runs.size, p.isReady j = true → time ≤ p.dueAt now due j) : Timely origin time due p := by
  -- A run that is not pausing and is ready is due at once, so that no time passes.
  have still {i : Nat} {r : Run α} (there : p.runs[i]? = some r) (ready : p.isReady i = true)
      (awake : ∀ seconds beats, r.status ≠ .waiting seconds beats) : time = now := by
    have least := first i (Array.getElem?_eq_some_iff.mp there).1 ready
    have at_once : p.dueAt now due i = now := by
      simp only [dueAt, there, Option.map_some]
      split
      · exact absurd (Option.some.inj ‹_›) (awake _ _)
      · rfl
    exact laws.le_antisymm _ _ (at_once ▸ least) later
  have passed := laws.sub_le_sub now time origin later
  refine ⟨timely.clock, fun i r there status => ?_, fun i r seconds beats there status => ?_,
    fun i r children there status => ⟨?_, fun all => ?_⟩, fun i position ended => ?_⟩
  · have ready : p.isReady i = true := by
      rcases status with status | status <;> simp [isReady, enabled, there, wakes, status]
    have awake : ∀ seconds beats, r.status ≠ .waiting seconds beats := by
      rcases status with status | status <;> simp [status]
    rw [still there ready awake]
    exact timely.active i r there status
  · refine ⟨(timely.pausing i r seconds beats there status).1, ?_⟩
    have ready : p.isReady i = true := by simp [isReady, enabled, there, wakes, status]
    have least := first i (Array.getElem?_eq_some_iff.mp there).1 ready
    simpa [dueAt, there, status] using least
  · exact laws.le_trans _ _ _ (timely.playing i r children there status).1 passed
  · have ready : p.isReady i = true := by simp [isReady, enabled, there, wakes, status, all]
    rw [still there ready (by simp [status])]
    exact (timely.playing i r children there status).2 all
  · exact laws.le_trans _ _ _ (timely.ended i position ended) passed

/-- A run whose turn is due is taken to where a virtual clock would take it. -/
theorem inTime (timely : Timely origin now due p) (found : p.runs[id]? = some run)
    (prompt : p.dueAt now due id = now) : p.InTime run now := by
  constructor
  · intro seconds beats waiting
    have past : due id = now := by simpa [dueAt, found, waiting] using prompt
    rw [timely.clock, (timely.pausing id run seconds beats found waiting).1, past]
    rfl
  · intro children playing all
    rw [timely.clock, (timely.playing id run children found playing).2 all]
    rfl

/-- After its turn a run is where the time is. -/
theorem arrived (timely : Timely origin now due p) (found : p.runs[id]? = some run)
    (prompt : p.dueAt now due id = now) (advances : Advances p run run' started events) :
    run'.position = now - origin := by
  cases advances with
  | starts created => exact timely.active id run found (.inl created)
  | resumes waiting =>
    have past : due id = now := by simpa [dueAt, found, waiting] using prompt
    exact past ▸ (timely.pausing id run _ _ found waiting).1
  | rejoins playing all => exact (timely.playing id run _ found playing).2 all
  | reads running next deed => exact (run.read_position _).trans (timely.active id run found (.inr running))
  | ends running spent => exact timely.active id run found (.inr running)

end Timely

section turn

variable {p q : Performance α} {id : Nat} {run run' : Run α} {started : List (Run α)} {events : List (Event α)}

theorem Advances.started_at (advances : Advances p run run' started events) {r : Run α} (member : r ∈ started) :
    r.status = .created ∧ r.position = run'.position := by
  cases advances with
  | @reads line d running next deed =>
    cases d with
    | play names =>
      obtain ⟨block, -, rfl⟩ := List.mem_map.mp member
      exact ⟨rfl, (run.read_position line).symm⟩
    | _ => cases member
  | _ => cases member

theorem Advances.ended_at (advances : Advances p run run' started events) {position : α}
    (ended : run'.status = .ended (.finished position)) : position = run'.position := by
  cases advances with
  | ends running spent =>
    cases ended
    rfl
  | @reads line d running next deed =>
    cases d with
    | play names =>
      simp only [Run.withStatus, Deed.status] at ended
      split at ended <;> cases ended
    | _ => cases ended
  | _ => cases ended

/-- A run that has finished after a turn had finished before, unless it was its last turn. -/
theorem Advances.finished (advances : Advances p run run' started events)
    (runs : Succeeds id run' started p.runs q.runs) {i : Nat} {position : α}
    (ended : q.outcome? i = some (.finished position)) :
    p.outcome? i = some (.finished position) ∨ position = run'.position := by
  obtain ⟨r, there, status⟩ := outcome?_eq_some.mp ended
  rcases runs.origin there with ⟨rfl, rfl⟩ | ⟨-, there⟩ | ⟨-, listed⟩
  · exact .inr (advances.ended_at status)
  · exact .inl (outcome?_eq_some.mpr ⟨r, there, status⟩)
  · rw [(advances.started_at (List.mem_of_getElem? listed)).1] at status
    contradiction

omit [Scalar α] in
/-- A turn of a live run leaves those alone that have finished. -/
theorem Succeeds.finishedAt (runs : Succeeds id run' started p.runs q.runs) (found : p.runs[id]? = some run)
    (live : run.isLive = true) {children : List Nat} (all : children.all p.hasFinished = true) :
    q.finishedAt children = p.finishedAt children := by
  refine List.filterMap_congr fun c member => ?_
  obtain ⟨position, ended⟩ := exists_of_hasFinished (List.all_eq_true.mp all c member)
  obtain ⟨r, there, -⟩ := outcome?_eq_some.mp ended
  have other : c ≠ id := by
    rintro rfl
    obtain rfl := Option.some.inj (found.symm.trans there)
    have past := isLive_of_hasFinished found (List.all_eq_true.mp all c member)
    rw [live] at past
    contradiction
  rw [runs.other other there, there]

theorem Timely.turn {origin time : α} {due : Nat → α} (laws : Scalar.Ordered α) (timely : Timely origin time due p)
    (found : p.runs[id]? = some run) (prompt : p.dueAt time due id = time)
    (live : run.isLive = true) (advances : Advances p run run' started events)
    (runs : Succeeds id run' started p.runs q.runs) (clock : q.clock = .realtime (some origin)) :
    Timely origin time (q.rescheduled time due id) q := by
  have here := timely.arrived found prompt advances
  have unhurried {i : Nat} (other : i ≠ id) : q.rescheduled time due id i = due i := if_neg other
  have ended (i : Nat) (position : α) (past : q.outcome? i = some (.finished position)) :
      position ≤ time - origin := by
    rcases advances.finished runs past with before | last
    · exact timely.ended i position before
    · rw [last, here]
      exact laws.le_refl _
  have bound (children : List Nat) (x : α) (listed : x ∈ q.finishedAt children) : x ≤ time - origin := by
    obtain ⟨c, -, past⟩ := mem_finishedAt.mp listed
    exact ended c x past
  refine ⟨clock, fun i r there status => ?_, fun i r seconds beats there status => ?_,
    fun i r children there status => ?_, ended⟩
  · rcases runs.origin there with ⟨rfl, rfl⟩ | ⟨-, there⟩ | ⟨-, listed⟩
    · exact here
    · exact timely.active i r there status
    · exact (advances.started_at (List.mem_of_getElem? listed)).2.trans here
  · rcases runs.origin there with ⟨rfl, rfl⟩ | ⟨other, there⟩ | ⟨-, listed⟩
    · have past : q.rescheduled time due i i = time + Scalar.max 0 seconds := by
        simp only [rescheduled, if_true, runs.found, Option.map_some, status, clock]
        exact Clock.expiry_realtime laws _ _ _
      rw [past, here, laws.add_sub]
      exact ⟨rfl, laws.le_add _ _ (laws.zero_le_max seconds)⟩
    · rw [unhurried other]
      exact timely.pausing i r seconds beats there status
    · rw [(advances.started_at (List.mem_of_getElem? listed)).1] at status
      contradiction
  · rcases runs.origin there with ⟨rfl, rfl⟩ | ⟨other, there⟩ | ⟨-, listed⟩
    · rw [here]
      exact ⟨laws.le_refl _, fun _ => laws.maximum_eq_first (bound children)⟩
    · obtain ⟨least, joined⟩ := timely.playing i r children there status
      refine ⟨least, fun all => ?_⟩
      by_cases before : children.all p.hasFinished = true
      · rw [runs.finishedAt found live before]
        exact joined before
      · obtain ⟨c, member, unfinished⟩ := List.all_eq_false.mp (Bool.eq_false_iff.mpr before)
        obtain ⟨position, past⟩ := exists_of_hasFinished (List.all_eq_true.mp all c member)
        have last : position = time - origin := by
          rcases advances.finished runs past with old | last
          · simp [hasFinished, old] at unfinished
          · exact last.trans here
        exact laws.maximum_eq least (bound children) (mem_finishedAt.mpr ⟨c, member, last ▸ past⟩)
    · rw [(advances.started_at (List.mem_of_getElem? listed)).1] at status
      contradiction

theorem Advances.virtually (advances : Advances p run run' started events) :
    Advances p.virtually run run' started events := by
  cases advances with
  | starts created => exact .starts created
  | resumes waiting => exact .resumes waiting
  | rejoins playing all => exact .rejoins playing all
  | reads running next deed => exact .reads running next deed
  | ends running spent => exact .ends running spent

theorem Advance.virtually {sounds : List (Event α)} (advance : Advance id run' started sounds p q) :
    Advance id run' started sounds p.virtually q.virtually :=
  { advance with origin := rfl }

end turn

section punctual

variable {piece : Piece α} {ends : Nat → α} {p : Performance α} {origin now : α} {due : Nat → α}
  (laws : Scalar.Ordered α) (acyclic : piece.blocks.Acyclic)
include laws acyclic

/-- A turn that is taken when it is due comes to what it comes to on a virtual clock. -/
theorem Timely.take {m : Moment α} {id : Nat} (timely : Timely origin now due p)
    (foretold : Foretold piece ends p.virtually) (turn : m.act.actor? = some id) (ready : p.enabled m.act = true)
    (prompt : m.time = p.dueAt now due id)
    (first : ∀ j < p.runs.size, p.isReady j = true → m.time ≤ p.dueAt now due j) :
    Timely origin m.time ((p.take m).rescheduled m.time due id) (p.take m) ∧
      ∃ later, Tally piece ends later p.virtually (p.take m).virtually (p.heard [m]) 1 := by
  have passed : now ≤ m.time := prompt ▸ timely.le_dueAt laws id
  have current := timely.elapse laws passed first
  have at_once : p.dueAt m.time due id = m.time := by rw [prompt, dueAt_dueAt]
  obtain ⟨run, run', started, events, found, advances, taken⟩ :=
    take_advances foretold.calm (fun _ found => current.inTime found at_once) turn ready
  have advance : Advance id run' started (p.engine.recorded events) p (p.take m) :=
    taken p.engine.recorder p.journal
  have clock : (p.take m).clock = .realtime (some origin) := by
    have origin := advance.origin
    rw [timely.clock] at origin
    cases clock : (p.take m).clock <;> simp_all [Clock.origin?]
  refine ⟨current.turn laws found at_once (foretold.kept found advances.virtually).live advances advance.runs clock, ?_⟩
  rw [heard_turn turn found (taken true #[])]
  exact ⟨_, advance.virtually.tally acyclic foretold found advances.virtually⟩

/-- So do all turns of a punctual performance, which can be told on from where they lead. -/
theorem Timely.after {ms : List (Moment α)} (timely : Timely origin now due p)
    (foretold : Foretold piece ends p.virtually) (punctual : Punctual p now due ms) :
    (∃ later, Tally piece ends later p.virtually (p.after ms).virtually (p.heard ms) ms.length) ∧
      ∃ time due', Timely origin time due' (p.after ms) ∧
        ∀ ns, Punctual (p.after ms) time due' ns → Punctual p now due (ms ++ ns) := by
  induction ms generalizing p now due ends with
  | nil => exact ⟨⟨ends, .refl foretold⟩, now, due, timely, fun _ goes => goes⟩
  | cons m rest ih =>
    unfold Punctual at punctual
    split at punctual
    · contradiction
    · rename_i id turn
      obtain ⟨ready, prompt, first, others⟩ := punctual
      obtain ⟨current, later, now⟩ := timely.take laws acyclic foretold turn ready prompt first
      obtain ⟨⟨last, then_⟩, time, due', end_, goes⟩ := ih current now.foretold others
      have heard : p.heard (m :: rest) = p.heard [m] ++ (p.take m).heard rest := by
        simp [Performance.heard]
      refine ⟨⟨last, ?_⟩, time, due', end_, fun ns more => ?_⟩
      · rw [heard, List.length_cons, Nat.add_comm]
        exact now.trans then_
      · rw [List.cons_append, Punctual, turn]
        exact ⟨ready, prompt, first, goes ns more⟩

omit acyclic in
/-- While a run is live, someone takes the next turn. -/
theorem Timely.proceeds (foretold : Foretold piece ends p.virtually) {i : Nat} {r : Run α}
    (there : p.runs[i]? = some r) (live : r.isLive = true) : ∃ m, Punctual p now due [m] := by
  have some : ∃ j < p.runs.size, p.isReady j = true := by
    obtain ⟨j, ready⟩ := foretold.ready there live
    refine ⟨j, ?_, ready⟩
    by_contra missing
    have none : p.runs[j]? = none := Array.getElem?_eq_none (Nat.le_of_not_lt missing)
    have ready : p.isReady j = true := ready
    simp [isReady, enabled, none] at ready
  obtain ⟨j, -, ready, least⟩ := laws.exists_least (fun j => p.isReady j = true) (p.dueAt now due) some
  rcases Bool.or_eq_true_iff.mp ready with step | woken
  · exact ⟨⟨p.dueAt now due j, .step j⟩, step, rfl, least, trivial⟩
  · exact ⟨⟨p.dueAt now due j, .wake j .go⟩, woken, rfl, least, trivial⟩

end punctual

/-- When the main block has returned, it has done so where the piece ends, and what was heard
is the piece. Before that some run is live. -/
theorem Tally.concludes {p q r : Performance α} {later : Nat → α} {heard : List (String × Event α)} {turns : Nat}
    {returned : Option (Outcome α)}
    (tally : Tally p.piece (fun _ => p.piece.rendition.finish) later q r heard turns) (acyclic : p.blocks.Acyclic)
    (listed : q.runs.toList = (p.blocks.cast [mainName]).map (newRun p.session.generation 0))
    (result : returned = match p.blocks.lines? mainName with
      | none => some (.finished 0)
      | some _ => r.outcome? 0) :
    turns ≤ p.piece.rendition.turns ∧
      (returned = none → ∃ main, r.runs[0]? = some main ∧ main.isLive = true) ∧
      ∀ outcome, returned = some outcome →
        outcome = .finished p.piece.rendition.finish ∧ heard.Perm p.piece.rendition.sounds := by
  obtain ⟨sounds, count⟩ := main_outlook acyclic listed fun _ => p.piece.rendition.finish
  have played : p.piece.rendition.sounds.Perm _ := sounds ▸ tally.sounds
  have taken : p.piece.rendition.turns = turns + _ := count ▸ tally.turns
  refine ⟨by omega, ?_⟩
  subst result
  cases found : p.blocks.lines? mainName with
  | none =>
    have empty := rendition_of_missing p.piece found
    rw [empty] at played ⊢
    refine ⟨by simp, fun outcome ended => ⟨(Option.some.inj ended).symm, ?_⟩⟩
    rw [(List.append_eq_nil_iff.mp played.nil_eq.symm).1]
  | some lines =>
    have started : 0 < q.runs.size := by
      rw [← Array.length_toList, listed]
      simp [Blocks.cast, found]
    have there := Array.getElem?_eq_getElem (Nat.lt_of_lt_of_le started tally.size)
    refine ⟨fun waiting => ⟨_, there, ?_⟩, fun outcome ended => ?_⟩
    · simp only [outcome?, there, Option.bind_some] at waiting
      unfold Run.isLive
      split at waiting <;> simp_all
    · obtain ⟨finished, main, there, spent⟩ := tally.foretold.ended ended
      rw [(outlook_over p.piece later (tally.foretold.attended.past there spent)).1, List.append_nil] at played
      rw [finished, tally.main started]
      exact ⟨rfl, played.symm⟩

/-- Starting leaves a performance in real time where it is at that time. -/
theorem Fresh.timely {p : Performance α} (laws : Scalar.Ordered α) (fresh : p.Fresh)
    (faultless : p.engine.Faultless) (real : p.clock.isVirtual = false) (time : α) (due : Nat → α) :
    Timely time time due (p.take ⟨time, .begin⟩) := by
  obtain ⟨-, -, -, -, -, clock⟩ := fresh.begin faultless time
  have only {i : Nat} {r : Run α} (there : (p.take ⟨time, .begin⟩).runs[i]? = some r) :
      r.status = .created ∧ r.position = 0 := by
    obtain ⟨-, block, -, rfl⟩ := fresh.only time there
    exact ⟨rfl, rfl⟩
  refine ⟨?_, fun i r there _ => ?_, fun i r seconds beats there status => ?_,
    fun i r children there status => ?_, fun i position ended => ?_⟩
  · rw [clock]
    cases at_ : p.clock <;> simp_all [Clock.isVirtual, Clock.start]
  · rw [(only there).2, laws.sub_self]
  · rw [(only there).1] at status
    contradiction
  · rw [(only there).1] at status
    contradiction
  · obtain ⟨r, there, spent⟩ := outcome?_eq_some.mp ended
    rw [(only there).1] at spent
    contradiction

/-- The two clocks agree. A steady piece that is performed punctually in real time takes no
more turns than on a virtual clock in any order, and on both it can go on until the main
block returns. Then it returns the same position on both, and the notes and samples that were
played, each with its block, are the same. -/
theorem clocks_agree {blocks : Blocks} {config : Config α} {engine : Engine α} {horizon start time : α}
    {origin : Option α} {ms ns : List (Moment α)} (laws : Scalar.Ordered α) (faultless : engine.Faultless)
    (steady : blocks.isSteady = true) (acyclic : blocks.Acyclic) :
    let real := initial blocks config (.realtime origin) engine
    let virtual := initial blocks config (.virtual horizon) engine
    let whole := virtual.piece.rendition
    Punctual (real.take ⟨time, .begin⟩) time (fun _ => time) ms → Execution (virtual.take ⟨start, .begin⟩) ns →
      (∀ m ∈ ns, m.act.actor?.isSome = true) →
    (ms.length ≤ whole.turns ∧ ns.length ≤ whole.turns) ∧
      (real.returned? time ms = none →
        ∃ m, Punctual (real.take ⟨time, .begin⟩) time (fun _ => time) (ms ++ [m])) ∧
      (virtual.returned? start ns = none →
        ∃ act : Act α, act.actor?.isSome = true ∧ ((virtual.take ⟨start, .begin⟩).after ns).enabled act = true) ∧
      ∀ a b, real.returned? time ms = some a → virtual.returned? start ns = some b →
        a = b ∧ (∃ position, a = .finished position) ∧
          ((real.take ⟨time, .begin⟩).heard ms).Perm ((virtual.take ⟨start, .begin⟩).heard ns) := by
  intro real virtual whole punctual ran turns
  have fresh : real.Fresh := ⟨_, _, _, _, rfl⟩
  have clear : virtual.Clear := ⟨⟨_, _, _, _, rfl⟩, rfl, faultless, steady⟩
  obtain ⟨-, -, -, -, real_listed, -⟩ := fresh.begin faultless time
  obtain ⟨-, -, -, -, virtual_listed⟩ := clear.prepared.begin start
  obtain ⟨⟨_, real_tally⟩, _, _, -, goes⟩ :=
    (fresh.timely laws faultless rfl time fun _ => time).after laws acyclic
      (fresh.foretold faultless steady acyclic time) punctual
  obtain ⟨_, virtual_tally⟩ := ran.tally acyclic (clear.foretold acyclic start) turns
  obtain ⟨real_turns, real_goes, real_ends⟩ :=
    real_tally.concludes acyclic real_listed (fresh.returned time ms)
  obtain ⟨virtual_turns, virtual_goes, virtual_ends⟩ :=
    virtual_tally.concludes acyclic virtual_listed (clear.fresh.returned start ns)
  refine ⟨⟨real_turns, virtual_turns⟩, fun waiting => ?_, fun waiting => ?_, fun a b first second => ?_⟩
  · obtain ⟨main, there, live⟩ := real_goes waiting
    obtain ⟨m, next⟩ := Timely.proceeds laws real_tally.foretold there live
    exact ⟨m, goes [m] next⟩
  · obtain ⟨main, there, live⟩ := virtual_goes waiting
    exact virtual_tally.foretold.proceeds there live
  · obtain ⟨rfl, real_heard⟩ := real_ends a first
    obtain ⟨rfl, virtual_heard⟩ := virtual_ends b second
    exact ⟨rfl, ⟨_, rfl⟩, real_heard.trans virtual_heard.symm⟩

def inRealTime : List (Moment ℚ) :=
  ([.wake 0 .go, .step 0, .wake 1 .go, .wake 2 .go, .step 1, .step 1, .step 2, .step 2, .wake 3 .go, .step 3,
    .step 3] : List (Act ℚ)).map (⟨10, ·⟩) ++
  ([.wake 1 .go, .step 1, .wake 3 .go, .step 3, .wake 2 .go, .step 2, .step 2, .wake 4 .go, .step 4,
    .step 4] : List (Act ℚ)).map (⟨13, ·⟩) ++
  ([.wake 4 .go, .step 4, .wake 2 .go, .step 2, .step 2, .wake 0 .go, .step 0, .step 0] : List (Act ℚ)).map (⟨16, ·⟩)

theorem clocks_agree_duet :
    let real : Performance ℚ := initial duet.blocks duet.config (.realtime none) duet.engine
    duet.engine.Faultless ∧ duet.blocks.isSteady = true ∧ duet.blocks.Acyclic ∧
      Punctual (real.take ⟨10, .begin⟩) 10 (fun _ => 10) inRealTime ∧
      Execution (duet.take ⟨0, .begin⟩) alternating ∧
      ∃ a b, real.returned? 10 inRealTime = some a ∧ duet.returned? 0 alternating = some b ∧ a = b ∧
        ((real.take ⟨10, .begin⟩).heard inRealTime).Perm ((duet.take ⟨0, .begin⟩).heard alternating) := by
  intro real
  have faultless : duet.engine.Faultless := .of_settings rfl rfl rfl
  have steady : duet.blocks.isSteady = true := by decide +kernel
  have acyclic : duet.blocks.Acyclic :=
    .of_rank (fun name => if name = "main" then 2 else if name = "low" then 1 else 0) (by decide +kernel)
  obtain ⟨punctual, real_ends⟩ : Punctual (real.take ⟨10, .begin⟩) 10 (fun _ => 10) inRealTime ∧
      (real.returned? 10 inRealTime).isSome = true := by decide +kernel
  obtain ⟨ran, virtual_ends⟩ : Execution (duet.take ⟨0, .begin⟩) alternating ∧
      (duet.returned? 0 alternating).isSome = true := by decide +kernel
  obtain ⟨a, first⟩ := Option.isSome_iff_exists.mp real_ends
  obtain ⟨b, second⟩ := Option.isSome_iff_exists.mp virtual_ends
  obtain ⟨same, -, heard⟩ := (clocks_agree Exact.ordered faultless steady acyclic punctual ran
    (by decide +kernel)).2.2.2 a b first second
  exact ⟨faultless, steady, acyclic, punctual, ran, a, b, first, second, same, heard⟩

end Performance

end Partita
