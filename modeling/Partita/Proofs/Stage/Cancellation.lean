import Mathlib.Algebra.Order.Ring.Rat
import Partita.Proofs.Performance.Balance
import Partita.Proofs.Performance.Exact
import Partita.Proofs.Stage.Interleaving

/-! Cancelling tasks from outside. Whatever is cancelled and whenever, each live run has the turns
of one task only and gets none once it has ended, so the books of its performance are kept. What
they do not tell is that a run has ended which was cancelled before its first step: once all runs
have ended, these are what the count is made of. -/
namespace Partita

variable {α : Type}

/-- Whether a cue leaves it to the performance to operate on its session. -/
def Cue.isPlain : Cue α → Bool
  | .session _ | .changed _ => false
  | _ => true

variable [Scalar α]

theorem Stage.opening_augments (time : α) (replay : Bool) :
    Within Performance.Augments (fun _ => True) (Stage.opening time replay) :=
  opening_within (.of_related Performance.forceStop_augments) (.of_related Performance.normalizeVolumes_augments) time
    (.of_related fun p => p.begin_augments time) replay

theorem Stage.conclude_augments (time : α) (generation : Nat) (outcome : Outcome α) :
    Within Performance.Augments (fun _ => True) (Performance.conclude time generation outcome) :=
  conclude_within (fun text => .of_related fun p =>
    .of_aside (Performance.log_aside (E := fun _ => True) .info text p).1) time generation outcome

theorem Cue.Effect.augments {time : α} {p q : Performance α} {cue : Cue α} (effect : cue.Effect time p q)
    (plain : cue.isPlain = true) : p.Augments q := by
  cases cue with
  | perform replay => exact effect ▸ (Stage.opening_augments time replay p).1
  | spawn name position => exact effect ▸ p.spawn_augments name position
  | stop => exact effect ▸ p.stop_augments
  | forceStop => exact effect ▸ p.forceStop_augments
  | normalize => exact effect ▸ p.normalizeVolumes_augments
  | session cue => cases plain
  | changed cue => cases plain
  | _ => exact effect.elim

/-- What a call makes of a performance keeps its books, if its run is live. -/
theorem Frame.Effect.balances {time : α} {p q : Performance α} {frame : Frame α} (effect : frame.Effect time p q)
    (books : p.Accounted)
    (live : ∀ k i, frame = .run k i → ∃ r, p.runs[i]? = some r ∧ r.isLive = true)
    (plain : ∀ cues busy, frame = .conductor cues busy → ∀ cue ∈ cues, Cue.isPlain cue = true) :
    p.Balances (fun i => ∃ k, frame = .run k i) q := by
  have augmented (augments : p.Augments q) : p.Balances (fun i => ∃ k, frame = .run k i) q :=
    (augments.balances books).mono fun _ => False.elim
  cases frame with
  | run k i =>
    obtain ⟨r, found, live⟩ := live k i rfl
    have turned : p.Turned time i q := effect
    exact (turned.balances books found live).mono fun j same => ⟨k, same ▸ rfl⟩
  | open_ part replay => exact augmented (effect ▸ (Stage.opening_augments time replay p).1)
  | main part generation => exact augmented (effect ▸ (Stage.conclude_augments time generation .cancelled p).1)
  | conductor cues busy =>
    cases cues with
    | nil => exact effect.elim
    | cons cue cues =>
      have made : cue.Effect time p q := effect
      exact augmented (made.augments (plain _ _ rfl cue List.mem_cons_self))
  | _ => exact effect.elim

namespace Stage

variable {s t m : Stage α} {task : Nat} {frame : Frame α} {rest : List (Frame α)}

/-- New tasks are those of the runs that a performance tells of, in their order. -/
def Enlists (part : Nat) (x : Part α) (runs : List Nat) (s t : Stage α) : Prop :=
  ∃ cells : List Nat, t.parts[part]? = some { x with cells := x.cells ++ cells.toArray } ∧
    cells.length = runs.length ∧ ∀ c, s.loop.cells.size ≤ c → t.loop.frames c = [] ∨
      ∃ n i : Nat, cells[n]? = some c ∧ runs[n]? = some i ∧ t.loop.frames c = [.run part i]

theorem Enlists.after {part : Nat} {x : Part α} {runs : List Nat} (still : s.loop.Stays m.loop) (serves : m.Serves t)
    (enlists : m.Enlists part x runs t) : s.Enlists part x runs t := by
  obtain ⟨cells, there, length, enlisted⟩ := enlists
  refine ⟨cells, there, length, fun c missing => ?_⟩
  by_cases inside : c < m.loop.cells.size
  · rw [serves.loop.old c inside, still.frames, Loop.frames_of_missing missing]
    exact .inl rfl
  · exact enlisted c (Nat.le_of_not_lt inside)

theorem Enlists.spawned {part run : Nat} {x : Part α} {runs : List Nat}
    (serves : (s.serve part (.spawned run)).Serves t) (enlists : (s.serve part (.spawned run)).Enlists part
      { x with cells := x.cells.push s.loop.cells.size } runs t) : s.Enlists part x (run :: runs) t := by
  have size : (s.serve part (.spawned run)).loop.cells.size = s.loop.cells.size + 1 := by
    simp [serve, Loop.newTask, Loop.newCell, Loop.callSoon]
  obtain ⟨cells, there, length, enlisted⟩ := enlists
  refine ⟨s.loop.cells.size :: cells, by simp [there], by simp [length], fun c missing => ?_⟩
  by_cases first : c = s.loop.cells.size
  · subst first
    refine .inr ⟨0, run, rfl, rfl, ?_⟩
    exact (serves.loop.old _ (by omega)).trans (s.loop.newTask_frames _)
  · rcases enlisted c (by omega) with none | ⟨n, i, listed, told, calls⟩
    · exact .inl none
    · exact .inr ⟨n + 1, i, listed, told, calls⟩

theorem serveAll_enlists {part : Nat} {x : Part α} (found : s.parts[part]? = some x) (requests : List Request) :
    s.Enlists part x (requests.filterMap Request.spawned?) (requests.foldl (fun s r => s.serve part r) s) := by
  induction requests generalizing s x with
  | nil => exact ⟨[], by simpa using found, rfl, fun c missing => .inl (Loop.frames_of_missing missing)⟩
  | cons request requests ih =>
    have serves := serveAll_serves (s.serve part request) part requests
    cases request with
    | changed => exact .after (foldl_complete_stays _ _ _) serves (ih found)
    | spawned run =>
      refine .spawned serves (ih ?_)
      simp only [serve, Array.getElem?_modify, if_true, found]
      rfl
    | cancel run =>
      have kept : (s.serve part (.cancel run)).parts = s.parts ∧ s.loop.Stays (s.serve part (.cancel run)).loop := by
        unfold serve
        dsimp only
        split
        · exact ⟨rfl, s.loop.cancel_stays _⟩
        · exact ⟨rfl, .refl _⟩
      exact .after kept.2 serves (ih (kept.1 ▸ found))

omit [Scalar α] in
/-- A part keeps the tasks of its runs, and those of new ones behind them. -/
theorem Enlists.kept {part : Nat} {x : Part α} {runs : List Nat} (enlists : s.Enlists part x runs t) :
    ∃ y, t.parts[part]? = some y ∧ y.performance = x.performance ∧ y.cells.size = x.cells.size + runs.length ∧
      ∀ i c : Nat, x.cells[i]? = some c → y.cells[i]? = some c := by
  obtain ⟨cells, there, length, -⟩ := enlists
  refine ⟨_, there, rfl, by simp [length], fun i c listed => ?_⟩
  rw [Array.getElem?_append_left (Array.getElem?_eq_some_iff.mp listed).1, listed]

omit [Scalar α] in
/-- The task of a run that is new is the one that the part keeps for it. -/
theorem Enlists.made {part size count : Nat} {x : Part α} (enlists : s.Enlists part x (List.range' size count) t)
    (full : x.cells.size = size) {c : Nat} (new : s.loop.cells.size ≤ c) {f : Frame α} (calls : f ∈ t.loop.frames c) :
    ∃ (i : Nat) (y : Part α), f = .run part i ∧ size ≤ i ∧ i < size + count ∧
      t.parts[part]? = some y ∧ y.cells[i]? = some c := by
  obtain ⟨cells, there, -, enlisted⟩ := enlists
  rcases enlisted c new with none | ⟨n, i, listed, told, one⟩
  · rw [none] at calls
    cases calls
  · rw [one] at calls
    obtain ⟨few, rfl⟩ := List.getElem?_eq_some_iff.mp told
    simp only [List.length_range', List.getElem_range', Nat.one_mul] at few calls
    refine ⟨size + n, _, List.mem_singleton.mp calls, by omega, by omega, there, ?_⟩
    rw [Array.getElem?_append_right (by omega), full, Nat.add_sub_cancel_left, List.getElem?_toArray]
    exact listed

omit [Scalar α] in
theorem serveAll_other (s : Stage α) {part k : Nat} (requests : List Request) (other : k ≠ part) :
    (requests.foldl (fun s r => s.serve part r) s).parts[k]? = s.parts[k]? := by
  induction requests generalizing s with
  | nil => rfl
  | cons request requests ih =>
    refine (ih _).trans ?_
    cases request with
    | changed => rfl
    | spawned run => simp only [serve, Array.getElem?_modify, if_neg (Ne.symm other)]
    | cancel run =>
      unfold serve
      dsimp only
      split <;> rfl

/-- The performance of a part has become another one, with the tasks of its new runs kept behind
those it had; these tasks are all that is new on the loop. -/
structure Registers (part : Nat) (x y : Part α) (q : Performance α) (s t : Stage α) : Prop where
  found : t.parts[part]? = some y
  performance : y.performance = { q with engine := {}, journal := #[], outbox := #[] }
  size : y.cells.size = q.runs.size
  kept : ∀ i c : Nat, x.cells[i]? = some c → y.cells[i]? = some c
  elsewhere : ∀ k, k ≠ part → t.parts[k]? = s.parts[k]?
  made : ∀ c, s.loop.cells.size ≤ c → ∀ f ∈ t.loop.frames c,
    ∃ i : Nat, f = .run part i ∧ x.performance.runs.size ≤ i ∧ i < q.runs.size ∧ y.cells[i]? = some c

theorem stored_registers {F : Fault → Prop} {u : Stage α} {part : Nat} {x : Part α} {q : Performance α}
    (agrees : s.Agrees u) (found : s.parts[part]? = some x) (full : x.cells.size = x.performance.runs.size)
    (later : (s.mounted x).Continues F q) :
    ∃ y, s.Registers part x y q (q.outbox.foldl (fun s r => s.serve part r) (u.stored part x q)) := by
  obtain ⟨requests, outbox, -, spawned⟩ := later.tells
  have asked : q.outbox.toList = requests := by rw [outbox]; simp [mounted]
  have there : u.parts[part]? = some x := agrees.parts ▸ found
  have enlists := serveAll_enlists (stored_part there q) requests
  rw [spawned] at enlists
  rw [← Array.foldl_toList, asked]
  obtain ⟨y, entered, performance, size, kept⟩ := enlists.kept
  have before : (s.mounted x).runs.size = x.performance.runs.size := rfl
  have grown : x.performance.runs.size ≤ q.runs.size := later.size
  refine ⟨y, entered, performance, ?_, kept, fun k other => ?_, fun c missing f member => ?_⟩
  · rw [size, List.length_range']
    dsimp only
    omega
  · rw [serveAll_other _ requests other, stored_other u x q other, agrees.parts]
  · obtain ⟨i, z, call, least, most, there, cell⟩ := enlists.made full (agrees.loop ▸ missing) member
    obtain rfl := Option.some.inj (entered.symm.trans there)
    exact ⟨i, call, least, by omega, cell⟩

/-- A stage with all books in order: each run that is live, but for those of exempt calls, has its
turns from the task that was made for it, and the conductor leaves the sessions alone. -/
structure Booked (exempt : Frame α → Prop) (s : Stage α) : Prop where
  stacked : ∀ c, Frame.Stacked (s.loop.frames c)
  parts : ∀ (k : Nat) (x : Part α), s.parts[k]? = some x →
    x.performance.Accounted ∧ x.cells.size = x.performance.runs.size
  runs : ∀ (c k i : Nat), .run k i ∈ s.loop.frames c → ∃ x, s.parts[k]? = some x ∧ x.cells[i]? = some c ∧
    (¬ exempt (.run k i) → ∃ r, x.performance.runs[i]? = some r ∧ r.isLive = true)
  cues : ∀ c cues busy, .conductor cues busy ∈ s.loop.frames c → ∀ cue ∈ cues, Cue.isPlain cue = true

omit [Scalar α] in
theorem Booked.idles (booked : s.Booked fun _ => False) (idles : s.Idles t) : t.Booked fun _ => False := by
  have old {c : Nat} {f : Frame α} (member : f ∈ t.loop.frames c) (aide : f.isAide = false) : f ∈ s.loop.frames c := by
    rcases idles.loop.frames c with same | newly
    · rwa [same] at member
    · cases (newly.mem member).symm.trans aide
  refine ⟨idles.loop.stacked booked.stacked, fun k x found => booked.parts k x (idles.parts ▸ found),
    fun c k i member => ?_, fun c cues busy member => booked.cues c cues busy (old member rfl)⟩
  rw [idles.parts]
  exact booked.runs c k i (old member rfl)

omit [Scalar α] in
theorem mounted_accounted (s : Stage α) {x : Part α} (books : x.performance.Accounted) : (s.mounted x).Accounted :=
  ⟨books.active, books.generations, books.paced, by simp [mounted]⟩

/-- What a call makes of a performance is entered in the books, but for the run of that call. -/
theorem Booked.affects (booked : s.Booked fun _ => False) (calls : s.loop.frames task = frame :: rest)
    (affects : s.Affects frame m) : m.Booked (· = frame) := by
  have serves := affects.serves
  have here : frame ∈ s.loop.frames task := calls ▸ List.mem_cons_self
  have stacked := serves.loop.stacked booked.stacked
  cases affects with
  | idle agrees =>
    refine ⟨stacked, agrees.parts ▸ booked.parts, fun c k i member => ?_, fun c => agrees.loop ▸ booked.cues c⟩
    rw [agrees.loop] at member
    obtain ⟨x, found, cell, live⟩ := booked.runs c k i member
    exact ⟨x, agrees.parts ▸ found, cell, fun _ => live id⟩
  | @acts u x q agrees found effect =>
    obtain ⟨books, full⟩ := booked.parts frame.part x found
    have balances := effect.balances (s.mounted_accounted books)
      (fun k i same => by
        subst same
        obtain ⟨x', found', -, live⟩ := booked.runs task k i here
        obtain rfl := Option.some.inj (found.symm.trans found')
        exact live id)
      fun cues busy same => booked.cues task cues busy (same ▸ here)
    obtain ⟨y, registers⟩ := stored_registers agrees found full effect.continues
    have runs : y.performance.runs = q.runs := by rw [registers.performance]
    refine ⟨stacked, fun k z there => ?_, fun c k i member => ?_, fun c cues busy member => ?_⟩
    · by_cases same : k = frame.part
      · subst same
        obtain rfl := Option.some.inj (registers.found.symm.trans there)
        refine ⟨registers.performance ▸ ?_, runs ▸ registers.size⟩
        exact ⟨balances.accounted.active, balances.accounted.generations, balances.accounted.paced, by simp⟩
      · exact booked.parts k z (registers.elsewhere k same ▸ there)
    · by_cases inside : c < s.loop.cells.size
      · rw [serves.loop.old c inside] at member
        obtain ⟨z, found', cell, live⟩ := booked.runs c k i member
        by_cases same : k = frame.part
        · subst same
          obtain rfl := Option.some.inj (found.symm.trans found')
          refine ⟨y, registers.found, registers.kept i c cell, fun other => ?_⟩
          have few : i < (s.mounted x).runs.size := full ▸ (Array.getElem?_eq_some_iff.mp cell).1
          have another : ¬ ∃ k, frame = .run k i := by
            rintro ⟨k, same⟩
            exact other (by rw [same]; rfl)
          rw [runs, balances.others i few another]
          exact live id
        · exact ⟨z, registers.elsewhere k same ▸ found', cell, fun _ => live id⟩
      · obtain ⟨_, same, least, most, cell⟩ := registers.made c (Nat.le_of_not_lt inside) _ member
        cases same
        refine ⟨y, registers.found, cell, fun _ => ?_⟩
        have there : q.runs[i]? = some _ := Array.getElem?_eq_getElem most
        rw [runs]
        exact ⟨_, there, balances.new i _ least there⟩
    · by_cases inside : c < s.loop.cells.size
      · rw [serves.loop.old c inside] at member
        exact booked.cues c cues busy member
      · obtain ⟨_, same, -⟩ := registers.made c (Nat.le_of_not_lt inside) _ member
        cases same

omit [Scalar α] in
/-- A task is in the call of a run only where it was before, and then the run is live. -/
theorem Becomes.run {next : List (Frame α)} (stacked : Frame.Stacked (frame :: rest))
    (becomes : Becomes s t task frame rest next) {k i : Nat} (member : .run k i ∈ next) :
    .run k i ∈ frame :: rest ∧ (frame = .run k i → ∃ x r, s.parts[k]? = some x ∧
      x.performance.runs[i]? = some r ∧ r.isLive = true) := by
  rcases becomes.origin member rfl with outer | next
  · -- A call that is outermost is the only one, so that a run further out is not that of `frame`.
    refine ⟨List.mem_cons_of_mem _ outer, fun same => ?_⟩
    rw [stacked.alone (same ▸ rfl)] at outer
    cases outer
  · cases next with
    | run found there live => exact ⟨List.mem_cons_self, fun _ => ⟨_, _, found, there, live⟩⟩

omit [Scalar α] in
/-- A conductor has no cues left but those it had. -/
theorem Becomes.cues {next : List (Frame α)} (becomes : Becomes s t task frame rest next) {cues : List (Cue α)}
    {busy : Bool} (member : .conductor cues busy ∈ next) :
    ∃ cues' busy', .conductor cues' busy' ∈ frame :: rest ∧ ∀ cue ∈ cues, cue ∈ cues' := by
  rcases becomes.origin member rfl with outer | next
  · exact ⟨cues, busy, List.mem_cons_of_mem _ outer, fun _ => id⟩
  · cases next with
    | conductor cue cues busy => exact ⟨_, _, List.mem_cons_self, fun _ => List.mem_cons_of_mem cue⟩

omit [Scalar α] in
/-- A task that has made something of a performance stays in the call of its run only while that
run is live. -/
theorem Booked.resumes (booked : s.Booked (· = frame)) (calls : s.loop.frames task = frame :: rest)
    (resumes : s.Resumes task frame rest t) : t.Booked fun _ => False := by
  have stacked : Frame.Stacked (frame :: rest) := calls ▸ booked.stacked task
  have old {c : Nat} (other : c ≠ task) {f : Frame α} (member : f ∈ t.loop.frames c) (aide : f.isAide = false) :
      f ∈ s.loop.frames c := by
    rcases resumes.frames other with same | newly
    · rwa [same] at member
    · cases (newly.mem member).symm.trans aide
  refine ⟨resumes.stacked calls booked.stacked, resumes.parts ▸ booked.parts, fun c k i member => ?_,
    fun c cues busy member => ?_⟩
  · rw [resumes.parts]
    by_cases own : c = task
    · subst own
      obtain ⟨before, live⟩ := resumes.becomes.run stacked member
      obtain ⟨x, found, cell, still⟩ := booked.runs c k i (calls ▸ before)
      refine ⟨x, found, cell, fun _ => ?_⟩
      by_cases here : frame = .run k i
      · obtain ⟨y, r, found', there, alive⟩ := live here
        obtain rfl := Option.some.inj (found.symm.trans found')
        exact ⟨r, there, alive⟩
      · exact still (Ne.symm here)
    · obtain ⟨x, found, cell, still⟩ := booked.runs c k i (old own member rfl)
      refine ⟨x, found, cell, fun _ => still fun here => own ?_⟩
      -- The run of `frame` has its turns from the task that receives the signal.
      obtain ⟨y, found', cell', -⟩ := booked.runs task k i (by rw [calls, here]; exact List.mem_cons_self)
      obtain rfl := Option.some.inj (found.symm.trans found')
      exact Option.some.inj (cell.symm.trans cell')
  · by_cases own : c = task
    · subst own
      obtain ⟨cues', busy', before, fewer⟩ := resumes.becomes.cues member
      exact fun cue listed => booked.cues c cues' busy' (calls ▸ before) cue (fewer cue listed)
    · exact booked.cues c cues busy (old own member rfl)

/-- Whatever happens, the books are kept, so long as nobody operates on the sessions. -/
theorem Booked.happens (booked : s.Booked fun _ => False) (happens : s.Happens (fun _ => False) t) :
    t.Booked fun _ => False := by
  rcases happens.cases with idles | ⟨_, _, never, -⟩ | ⟨task, frame, rest, calls, m, affects, resumes⟩
  · exact booked.idles idles
  · exact never.elim
  · exact (booked.affects calls affects).resumes (affects.frames calls) resumes

theorem conducted_booked {p : Performance α} (fresh : p.Fresh) (engine : Engine α) {cues : List (Cue α)}
    (plain : ∀ cue ∈ cues, Cue.isPlain cue = true) : (conducted p engine cues).Booked fun _ => False where
  stacked c := by
    rcases conducted_frames p engine cues c with none | one
    · rw [none]
      exact .none
    · rw [one]
      exact .one _
  parts k x found := by
    have only : (conducted p engine cues).parts = #[⟨{ p with engine := {} }, 0, #[]⟩] := rfl
    have books := fresh.accounted
    obtain rfl := Array.mem_singleton.mp (only ▸ Array.mem_of_getElem? found)
    obtain ⟨blocks, config, clock, engine', rfl⟩ := fresh
    exact ⟨⟨books.active, books.generations, books.paced, books.records⟩, rfl⟩
  runs c k i member := by
    rcases conducted_frames p engine cues c with none | one
    · rw [none] at member
      cases member
    · rw [one] at member
      cases List.mem_singleton.mp member
  cues c cues' busy member := by
    rcases conducted_frames p engine cues c with none | one
    · rw [none] at member
      cases member
    · rw [one] at member
      cases List.mem_singleton.mp member
      exact plain

theorem reached_booked {p : Performance α} (fresh : p.Fresh) {engine : Engine α} {cues : List (Cue α)}
    (plain : ∀ cue ∈ cues, Cue.isPlain cue = true)
    (reached : Relation.ReflTransGen (Happens fun _ => False) (conducted p engine cues) s) :
    s.Booked fun _ => False := by
  induction reached with
  | refl => exact conducted_booked fresh engine plain
  | tail _ happens ih => exact ih.happens happens

/-- Whatever is cancelled and whenever, the count of active runs is that of the live runs of the
current generation and of those that were cancelled before their first step; so once all runs
have ended, it is zero again if, and only if, none of the current generation was. -/
theorem cancellation_leaks_unborn_runs {p : Performance α} (fresh : p.Fresh) {engine : Engine α} {cues : List (Cue α)}
    (plain : ∀ cue ∈ cues, Cue.isPlain cue = true)
    (reached : Relation.ReflTransGen (Happens fun _ => False) (conducted p engine cues) s) {x : Part α}
    (found : s.parts[0]? = some x) :
    x.performance.session.active = x.performance.census Run.isLive + x.performance.census Run.isStillborn ∧
      ((∀ r ∈ x.performance.runs, r.isLive = false) → (x.performance.session.active = 0 ↔
        ∀ r ∈ x.performance.runs, r.isStillborn = true → r.generation ≠ x.performance.session.generation)) := by
  have books := ((reached_booked fresh plain reached).parts 0 x found).1
  have count := books.active.trans x.performance.census_isCounted
  refine ⟨count, fun ended => ?_⟩
  have none : x.performance.census Run.isLive = 0 :=
    Array.countP_eq_zero.mpr fun r member => by simp [ended r member]
  rw [count, none, Nat.zero_add, Performance.census, Array.countP_eq_zero]
  simp

def impatient : Performance ℚ := Performance.initial [("main", ["waitsec 1"])] default (.virtual 0) {}

def premature : Stage ℚ := conduct impatient {} [.start false, .ticks 1, .cancel, .ticks 6]

theorem premature_ended : premature.parts[0]?.map (fun x => (x.performance.runs.map (·.isLive),
    x.performance.session.active, x.performance.census Run.isStillborn)) = some (#[false], 1, 1) := by decide +kernel

theorem cancellation_leaks_unborn_runs_premature :
    impatient.Fresh ∧ ∃ x, premature.parts[0]? = some x ∧
      x.performance.session.active = x.performance.census Run.isLive + x.performance.census Run.isStillborn := by
  have fresh : impatient.Fresh := ⟨_, _, _, _, rfl⟩
  obtain ⟨x, found, -⟩ := Option.map_eq_some_iff.mp premature_ended
  exact ⟨fresh, x, found, (cancellation_leaks_unborn_runs fresh (by decide) (conduct_reached ..) found).1⟩

/-- The only run has ended and is counted. -/
theorem premature_cancellation_leaks :
    ∃ x, premature.parts[0]? = some x ∧ (∀ r ∈ x.performance.runs, r.isLive = false) ∧
      x.performance.session.active ≠ 0 := by
  obtain ⟨x, found, same⟩ := Option.map_eq_some_iff.mp premature_ended
  obtain ⟨ended, rest⟩ := Prod.mk.inj same
  refine ⟨x, found, fun r member => ?_, by rw [(Prod.mk.inj rest).1]; decide⟩
  have listed : r.isLive ∈ x.performance.runs.map (·.isLive) := Array.mem_map_of_mem member
  simpa [ended] using listed

end Stage

end Partita
