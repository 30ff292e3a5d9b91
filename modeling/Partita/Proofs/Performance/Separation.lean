import Partita.Proofs.Performance.Step
import Partita.Proofs.Voice.Custody

/-! Whose instrument is whose. Every block has a voice of its own and oscillators of its own,
and no act changes that. What a run does to an instrument therefore stays with its block, and
a run of the main block, which has none, does nothing to any. -/
namespace Partita

open Score

variable {α : Type}

theorem lookup_assign {β : Type} (key c : String) (value : β) (entries : List (String × β)) :
    (assign key value entries).lookup c = if c = key then some value else entries.lookup c := by
  have apart {x y : String} (other : x ≠ y) : (x == y) = false := beq_eq_false_iff_ne.mpr other
  induction entries with
  | nil =>
    by_cases same : c = key
    · simp [assign, same]
    · simp [assign, List.lookup_cons, same, apart same]
  | cons entry rest ih =>
    obtain ⟨k, v⟩ := entry
    simp only [assign]
    by_cases here : k = key
    · subst k
      by_cases same : c = key
      · simp [same]
      · simp [List.lookup_cons, same, apart same]
    · simp only [apart here, Bool.false_eq_true, if_false]
      by_cases there : c = k
      · subst k
        simp [here]
      · simp only [List.lookup_cons, apart there, ih]

namespace Performance

def Holds (p : Performance α) (c : String) (i : Nat) : Prop :=
  (∃ s, p.params.lookup c = some s ∧ s.lfo = some i) ∨
    ∃ id v, p.voices.lookup c = some id ∧ p.engine.voices[id]? = some v ∧ v.Has i

/-- No two blocks share a voice or an oscillator, and the main block has no instrument. -/
structure Separate (p : Performance α) : Prop where
  listed : ∀ entry ∈ p.voices, p.voices.lookup entry.1 = some entry.2
  seated : ∀ c id, p.voices.lookup c = some id → id < p.engine.voices.size
  apart : ∀ b c id, p.voices.lookup b = some id → p.voices.lookup c = some id → b = c
  known : ∀ c i, p.Holds c i → i < p.engine.lfos.size
  disjoint : ∀ b c i, p.Holds b i → p.Holds c i → b = c
  main : p.voices.lookup mainName = none

/-- Two states in which the instrument of a block is the same: its parameters and snapshots,
whether it is in use, its voice with its notes, and the oscillators that they have. -/
structure Untouched (c : String) (p q : Performance α) : Prop where
  params : q.params.lookup c = p.params.lookup c
  held : q.voices.lookup c = p.voices.lookup c
  voice : ∀ id, p.voices.lookup c = some id → q.engine.voices[id]? = p.engine.voices[id]?
  lfos : ∀ i, p.Holds c i → q.engine.lfos[i]? = p.engine.lfos[i]?

namespace Untouched

variable {c : String} {p q r : Performance α}

theorem refl (c : String) (p : Performance α) : p.Untouched c p := ⟨rfl, rfl, fun _ _ => rfl, fun _ _ => rfl⟩

theorem holds (same : p.Untouched c q) (i : Nat) : q.Holds c i ↔ p.Holds c i := by
  simp only [Holds, same.params, same.held]
  refine or_congr_right ?_
  constructor
  · rintro ⟨id, v, there, found, has⟩
    exact ⟨id, v, there, same.voice id there ▸ found, has⟩
  · rintro ⟨id, v, there, found, has⟩
    exact ⟨id, v, there, (same.voice id there).trans found, has⟩

theorem trans (first : p.Untouched c q) (second : q.Untouched c r) : p.Untouched c r where
  params := second.params.trans first.params
  held := second.held.trans first.held
  voice id there := (second.voice id (first.held.trans there)).trans (first.voice id there)
  lfos i holds := (second.lfos i ((first.holds i).mpr holds)).trans (first.lfos i holds)

end Untouched

/-- Steps that no instrument is part of. -/
structure Offstage (p q : Performance α) : Prop where
  params : q.params = p.params
  held : q.voices = p.voices
  voices : q.engine.voices = p.engine.voices
  lfos : q.engine.lfos = p.engine.lfos

namespace Offstage

variable {p q : Performance α}

theorem untouched (off : p.Offstage q) (c : String) : p.Untouched c q where
  params := by rw [off.params]
  held := by rw [off.held]
  voice _ _ := by rw [off.voices]
  lfos _ _ := by rw [off.lfos]

theorem separate (off : p.Offstage q) (apart : p.Separate) : q.Separate where
  listed := off.held ▸ apart.listed
  seated c id there := by
    rw [off.held] at there
    rw [off.voices]
    exact apart.seated c id there
  apart := off.held ▸ apart.apart
  known c i holds := by
    rw [off.lfos]
    exact apart.known c i (((off.untouched c).holds i).mp holds)
  disjoint b c i left right :=
    apart.disjoint b c i (((off.untouched b).holds i).mp left) (((off.untouched c).holds i).mp right)
  main := off.held ▸ apart.main

end Offstage

instance : IsPreorder (Performance α) Offstage where
  refl _ := ⟨rfl, rfl, rfl, rfl⟩
  trans _ _ _ first second := ⟨second.params.trans first.params, second.held.trans first.held,
    second.voices.trans first.voices, second.lfos.trans first.lfos⟩

/-- Instruments stay apart, and only those of blocks in a scope change. -/
def Confined (scope : String → Prop) (p q : Performance α) : Prop :=
  p.Separate → q.Separate ∧ ∀ c, ¬ scope c → p.Untouched c q

instance (scope : String → Prop) : IsPreorder (Performance α) (Confined scope) where
  refl p apart := ⟨apart, fun c _ => .refl c p⟩
  trans _ _ _ first second apart := by
    obtain ⟨between, kept⟩ := first apart
    obtain ⟨after, kept'⟩ := second between
    exact ⟨after, fun c out => (kept c out).trans (kept' c out)⟩

namespace Confined

variable {scope : String → Prop} {p q : Performance α}

theorem of_offstage (off : p.Offstage q) : p.Confined scope q :=
  fun apart => ⟨off.separate apart, fun c _ => off.untouched c⟩

theorem mono {wider : String → Prop} (confined : p.Confined scope q) (within : ∀ c, scope c → wider c) :
    p.Confined wider q := by
  intro apart
  obtain ⟨after, kept⟩ := confined apart
  exact ⟨after, fun c out => kept c fun inside => out (within c inside)⟩

end Confined

abbrev Aloof {β : Type} (act : PerformM α β) : Prop := Within Offstage (fun _ => True) act

theorem modify_aloof {f : Performance α → Performance α} (off : ∀ p : Performance α, p.Offstage (f p)) :
    Aloof (modify f) := .of_modify off

theorem log_aloof (severity : Severity) (text : String) : Aloof (log (α := α) severity text) :=
  modify_aloof fun _ => ⟨rfl, rfl, rfl, rfl⟩

theorem setRun_aloof (id : Nat) (f : Run α → Run α) : Aloof (setRun id f) :=
  modify_aloof fun _ => ⟨rfl, rfl, rfl, rfl⟩

theorem announce_aloof (f : Session α → Session α) : Aloof (announce f) := by
  have changed : Aloof (setSession f) := modify_aloof fun _ => ⟨rfl, rfl, rfl, rfl⟩
  have asked : Aloof (ask (α := α) .changed) := modify_aloof fun _ => ⟨rfl, rfl, rfl, rfl⟩
  exact changed.bind fun _ => asked

theorem stopSamples_aloof : Aloof (stopSamples (α := α)) := by
  have forgotten : Aloof (modify fun p : Performance α => { p with engine := p.engine.stopSamples }) :=
    modify_aloof fun _ => ⟨rfl, rfl, rfl, rfl⟩
  have recorded : Aloof (record (α := α) .stopSamples) := modify_aloof fun _ => ⟨rfl, rfl, rfl, rfl⟩
  refine forgotten.bind fun _ => .of_get_bind fun p => ?_
  split
  · exact recorded p
  · exact Within.of_pure () p

theorem aloof_confined {β : Type} {act : PerformM α β} {scope : String → Prop} (aloof : Aloof act) :
    Within (Confined scope) (fun _ => True) act :=
  fun p => ⟨.of_offstage (aloof p).1, fun _ _ => trivial⟩

/-- What keeps instruments apart. -/
abbrev Keeping {β : Type} (act : PerformM α β) : Prop := Within (Confined fun _ => True) (fun _ => True) act

theorem Keeping.of_separate {β : Type} {act : PerformM α β}
    (kept : ∀ p : Performance α, p.Separate → (runFrom act p).2.Separate) : Keeping act :=
  .of_related fun p apart => ⟨kept p apart, fun _ out => absurd trivial out⟩

def operated (p : Performance α) (name : String) (d : Desk α) : Performance α :=
  { p with params := assign name d.instrument.params p.params, engine := d.engine, journal := d.journal }

section operated

variable [Scalar α] {p : Performance α} {name : String} {voice : Nat} (held : p.voices.lookup name = some voice)
include held

/-- What the instrument of a block reaches is held by the block. -/
theorem holds_of_reaches {i : Nat} (reached : (p.deskOf name voice).Reaches i) : p.Holds name i := by
  obtain params | ⟨v, found, has⟩ := reached
  · cases there : p.params.lookup name with
    | some s =>
      simp only [deskOf, there, Option.getD_some] at params
      exact .inl ⟨s, there, params⟩
    | none =>
      simp only [deskOf, there, Option.getD_none] at params
      cases params
  · exact .inr ⟨voice, v, held, found, has⟩

variable {d : Desk α} (kept : (p.deskOf name voice).Keeps d)
include kept

/-- What a block holds once its instrument was operated it held before, or it is new. -/
theorem holds_of_operated {i : Nat} (holds : (p.operated name d).Holds name i) :
    p.Holds name i ∨ p.engine.lfos.size ≤ i ∧ i < d.engine.lfos.size := by
  refine (kept.reaches i ?_).imp_left (holds_of_reaches held)
  obtain ⟨s, found, lfo⟩ | ⟨id, v, there, found, has⟩ := holds
  · simp only [Performance.operated, lookup_assign, if_true, Option.some.injEq] at found
    exact .inl (found ▸ lfo)
  · obtain rfl : id = voice := Option.some.inj (there.symm.trans held)
    exact .inr ⟨v, kept.seat ▸ found, has⟩

variable (apart : p.Separate)
include apart

theorem Separate.untouched {c : String} (other : c ≠ name) : p.Untouched c (p.operated name d) := by
  refine ⟨by simp [Performance.operated, lookup_assign, other], rfl, fun id there => ?_, fun i holds => ?_⟩
  · have foreign : id ≠ voice := by
      rintro rfl
      exact other (apart.apart c name id there held)
    exact kept.others id foreign
  · exact kept.aloof i (apart.known c i holds) fun reached =>
      other (apart.disjoint c name i holds (holds_of_reaches held reached))

/-- Operations on the instrument of a block leave those of all others as they are. -/
theorem Separate.operated : (p.operated name d).Separate ∧ ∀ c, c ≠ name → p.Untouched c (p.operated name d) := by
  have others {c : String} (other : c ≠ name) : p.Untouched c (p.operated name d) := apart.untouched held kept other
  have known {c : String} (other : c ≠ name) {i : Nat} (holds : (p.operated name d).Holds c i) : p.Holds c i :=
    ((others other).holds i).mp holds
  refine ⟨⟨apart.listed, fun c id there => ?_, apart.apart, fun c i holds => ?_, fun b c i left right => ?_,
    apart.main⟩, fun c => others⟩
  · exact Nat.lt_of_lt_of_eq (apart.seated c id there) kept.voices.symm
  · by_cases same : c = name
    · subst c
      obtain old | new := holds_of_operated held kept holds
      · exact Nat.lt_of_lt_of_le (apart.known _ i old) kept.grows
      · exact new.2
    · exact Nat.lt_of_lt_of_le (apart.known c i (known same holds)) kept.grows
  · -- an oscillator that is new is held by no other block, since theirs are old
    have alone {c : String} (other : c ≠ name) (left : (p.operated name d).Holds name i)
        (right : (p.operated name d).Holds c i) : False := by
      have old := known other right
      obtain before | new := holds_of_operated held kept left
      · exact other (apart.disjoint c name i old before)
      · exact absurd (apart.known c i old) (Nat.not_lt.mpr new.1)
    by_cases first : b = name
    · subst b
      exact Classical.byContradiction fun other => alone (Ne.symm other) left right
    · by_cases second : c = name
      · subst c
        exact (alone first right left).elim
      · exact apart.disjoint b c i (known first left) (known second right)

end operated

variable [Scalar α]

theorem entered_offstage (p : Performance α) (id : Nat) (outcome : Except Fault (Status α)) :
    p.Offstage (p.entered id outcome) := by
  unfold entered
  split
  · exact ⟨rfl, rfl, rfl, rfl⟩
  · split <;> exact ⟨rfl, rfl, rfl, rfl⟩

theorem settle_aloof (time deadline : α) (id : Nat) : Aloof (settle time deadline id) := by
  refine .of_get_bind fun p => ?_
  split
  · exact Within.of_pure _ p
  · exact ((log_aloof _ _).bind fun _ => .of_pure _) p
  · split
    · exact Within.of_pure _ p
    · exact ((setRun_aloof _ _).bind fun _ => .of_pure _) p

theorem close_aloof (id : Nat) (outcome : Outcome α) : Aloof (close id outcome) := by
  refine .of_related fun p => ?_
  cases found : p.runs[id]? with
  | none =>
    simp only [close, runFrom_get_bind, found]
    exact refl_of Offstage p
  | some run =>
    rw [runFrom_close found]
    exact ⟨rfl, rfl, rfl, rfl⟩

theorem wake_aloof (time : α) (id : Nat) (w : Wake) : Aloof (wake time id w) := by
  refine .of_get_bind fun p => ?_
  split
  · exact Within.of_pure () p
  · split
    · exact setRun_aloof _ _ p
    · exact close_aloof _ _ p
    · exact setRun_aloof _ _ p
    · refine Within.set_bind_at ⟨rfl, rfl, rfl, rfl⟩ (((setRun_aloof _ _).bind fun _ => ?_) _)
      split
      · exact log_aloof _ _
      · exact .of_pure ()
    · exact ((log_aloof _ _).bind fun _ => setRun_aloof _ _) p
    · refine ⟨?_, fun _ _ => trivial⟩
      rw [runFrom_settleStatus]
      exact trans_of Offstage (settle_aloof time _ id p).1 (entered_offstage _ _ _)
    · exact close_aloof _ _ p
    · exact setRun_aloof _ _ p
    · exact Within.of_pure () p
    · exact Within.of_pure () p

theorem runFrom_onDesk_eq {β : Type} (name : String) (voice : Nat) (act : DeskM α β) (p : Performance α) :
    runFrom (onDesk name voice act) p = ((runFrom act (p.deskOf name voice)).1,
      p.operated name (runFrom act (p.deskOf name voice)).2) := runFrom_onDesk name voice act p

theorem onInstrument_confined (name : String) {act : DeskM α Unit} (stays : Desk.Inside Desk.Tends act) :
    Within (Confined (· = name)) (fun _ => True) (onInstrument name act) := by
  refine .of_related fun p apart => ?_
  simp only [onInstrument, runFrom_get_bind]
  cases held : p.voices.lookup name with
  | none => exact ⟨apart, fun c _ => .refl c p⟩
  | some voice =>
    dsimp only
    rw [runFrom_onDesk_eq]
    exact apart.operated held ((stays _).1 (apart.seated name voice held))

/-- An operation on each of some instruments leaves all of them apart. -/
theorem each_separate {act : DeskM α Unit} (stays : Desk.Inside Desk.Tends act) (entries : List (String × Nat))
    {p : Performance α} (apart : p.Separate) (listed : ∀ entry ∈ entries, p.voices.lookup entry.1 = some entry.2) :
    (runFrom (forIn entries PUnit.unit fun entry _ => do
      onDesk entry.1 entry.2 act
      pure (ForInStep.yield PUnit.unit) : PerformM α PUnit) p).2.Separate := by
  induction entries generalizing p with
  | nil => exact apart
  | cons entry rest ih =>
    obtain ⟨here, later⟩ := List.forall_mem_cons.mp listed
    have after := (apart.operated here ((stays _).1 (apart.seated _ _ here))).1
    rw [List.forIn_cons, bind_assoc]
    rcases ran : runFrom act (p.deskOf entry.1 entry.2) with ⟨result, d⟩
    have operated := runFrom_onDesk_eq entry.1 entry.2 act p
    rw [ran] at after operated
    cases result with
    | error f =>
      rw [runFrom_bind_error operated]
      exact after
    | ok =>
      rw [runFrom_bind_ok operated, pure_bind]
      exact ih after later

theorem onInstruments_keeping {act : DeskM α Unit} (stays : Desk.Inside Desk.Tends act) :
    Keeping (onInstruments act) := by
  refine .of_get_bind fun p => ?_
  have each : WithinAt (Confined fun _ => True) (fun _ => True) (forIn p.voices PUnit.unit fun entry _ => do
      onDesk entry.1 entry.2 act
      pure (ForInStep.yield PUnit.unit) : PerformM α PUnit) p :=
    ⟨fun apart => ⟨each_separate stays p.voices apart apart.listed, fun _ out => absurd trivial out⟩, fun _ _ => trivial⟩
  exact Within.bind_at each fun _ q _ => Within.of_pure () q

section build

/-- What is looked up in a list with one more entry was there before, or is that. -/
theorem lookup_concat {β : Type} {l : List (String × β)} {name c : String} {x y : β}
    (found : (l ++ [(name, x)]).lookup c = some y) : l.lookup c = some y ∨ c = name ∧ y = x := by
  rw [List.lookup_append, Option.or_eq_some_iff, List.lookup_cons] at found
  refine found.imp_right fun ⟨_, new⟩ => ?_
  split at new
  · rename_i same
    exact ⟨by simpa using same, (Option.some.inj new).symm⟩
  · contradiction

/-- A voice that is built is new. -/
theorem createVoice_outcome (name : String) (modes : List Mode) (p : Performance α) :
    (∃ f q, runFrom (createVoice name modes) p = (.error f, q) ∧ p.Offstage q) ∨
      ∃ mode q, runFrom (createVoice name modes) p = (.ok p.engine.voices.size, q) ∧
        ({ p with engine.voices := p.engine.voices.push (Voice.initial name mode) } : Performance α).Offstage q := by
  induction modes generalizing p with
  | nil => exact .inl ⟨_, p, rfl, rfl, rfl, rfl, rfl⟩
  | cons mode rest ih =>
    simp only [createVoice, runFrom_get_bind]
    cases built : p.engine.createVoice name mode with
    | error f =>
      let report := s!"Error connecting {mode.name} audio for {name}: {f.message}"
      obtain ⟨g, q, failed, off⟩ | ⟨other, q, made, off⟩ :=
        ih { p with journal := p.journal.push (.log ⟨.error, "scheduler", report⟩) }
      · exact .inl ⟨g, q, failed, { off with }⟩
      · exact .inr ⟨other, q, made, { off with }⟩
    | ok made =>
      obtain ⟨id, engine⟩ := made
      have new : id = p.engine.voices.size ∧ engine.voices = p.engine.voices.push (Voice.initial name mode) ∧
          engine.lfos = p.engine.lfos := by
        simp only [Engine.createVoice] at built
        repeat' split at built
        all_goals cases built
        exact ⟨rfl, rfl, rfl⟩
      obtain ⟨rfl, voices, lfos⟩ := new
      refine .inr ⟨mode, ?_⟩
      dsimp only
      rw [runFrom_set_bind]
      split <;> split <;> exact ⟨_, rfl, rfl, rfl, voices, lfos⟩

variable {p : Performance α} {name : String}

/-- An instrument that has not been in use gets a voice that is new. -/
theorem Separate.equip (apart : p.Separate) (other : name ≠ mainName) (unused : p.voices.lookup name = none)
    (mode : Mode) : ({ p with
      engine.voices := p.engine.voices.push (Voice.initial name mode)
      voices := p.voices ++ [(name, p.engine.voices.size)] } : Performance α).Separate := by
  generalize added : ({ p with
      engine.voices := p.engine.voices.push (Voice.initial name mode)
      voices := p.voices ++ [(name, p.engine.voices.size)] } : Performance α) = q
  have voices : q.voices = p.voices ++ [(name, p.engine.voices.size)] := by rw [← added]
  have size : q.engine.voices.size = p.engine.voices.size + 1 := by simp [← added]
  have holds {c : String} {i : Nat} (has : q.Holds c i) : p.Holds c i := by
    obtain kept | ⟨id, v, there, found, has⟩ := has
    · rw [← added] at kept
      exact .inl kept
    · rw [voices] at there
      rw [← added, Array.getElem?_push] at found
      obtain old | ⟨-, rfl⟩ := lookup_concat there
      · rw [if_neg (Nat.ne_of_lt (apart.seated c id old))] at found
        exact .inr ⟨id, v, old, found, has⟩
      · -- a new voice has no oscillator and no notes
        rw [if_pos rfl] at found
        cases found
        obtain started | ⟨note, member, -⟩ := has
        · cases started
        · simp [Voice.initial] at member
  have fresh {c : String} {id : Nat} (there : p.voices.lookup c = some id) : id ≠ p.engine.voices.size :=
    Nat.ne_of_lt (apart.seated c id there)
  constructor
  · intro entry member
    rw [voices, List.lookup_append]
    rw [voices] at member
    rcases List.mem_append.mp member with old | new
    · rw [apart.listed entry old, Option.some_or]
    · obtain rfl := List.mem_singleton.mp new
      simp [unused]
  · intro c id there
    rw [voices] at there
    rw [size]
    obtain old | ⟨-, rfl⟩ := lookup_concat there
    · exact Nat.lt_succ_of_lt (apart.seated c id old)
    · exact Nat.lt_succ_self _
  · intro b c id left right
    rw [voices] at left right
    obtain before | ⟨here, new⟩ := lookup_concat left <;> obtain before' | ⟨here', new'⟩ := lookup_concat right
    · exact apart.apart b c id before before'
    · exact absurd new' (fresh before)
    · exact absurd new (fresh before')
    · exact here.trans here'.symm
  · intro c i has
    rw [← added]
    exact apart.known c i (holds has)
  · intro b c i left right
    exact apart.disjoint b c i (holds left) (holds right)
  · rw [voices, List.lookup_append, apart.main]
    simp [Ne.symm other]

omit [Scalar α] in
/-- An instrument that was to be in use and is not after all. -/
theorem Separate.unequip {voice : Nat} (apart : ({ p with voices := p.voices ++ [(name, voice)] } : Performance α).Separate)
    (listed : ∀ entry ∈ p.voices, p.voices.lookup entry.1 = some entry.2) : p.Separate := by
  generalize added : ({ p with voices := p.voices ++ [(name, voice)] } : Performance α) = q at apart
  have still {c : String} {id : Nat} (there : p.voices.lookup c = some id) : q.voices.lookup c = some id := by
    rw [← added, List.lookup_append, there, Option.some_or]
  have holds {c : String} {i : Nat} (has : p.Holds c i) : q.Holds c i := by
    obtain kept | ⟨id, v, there, found, has⟩ := has
    · rw [← added]
      exact .inl kept
    · refine .inr ⟨id, v, still there, ?_, has⟩
      rwa [← added]
  have same : q.engine = p.engine := by rw [← added]
  constructor
  · exact listed
  · intro c id there
    exact same ▸ apart.seated c id (still there)
  · intro b c id left right
    exact apart.apart b c id (still left) (still right)
  · intro c i has
    exact same ▸ apart.known c i (holds has)
  · intro b c i left right
    exact apart.disjoint b c i (holds left) (holds right)
  · have none := apart.main
    rw [← added, List.lookup_append, Option.or_eq_none_iff] at none
    exact none.1

theorem install_separate (apart : p.Separate) (other : name ≠ mainName) (unused : p.voices.lookup name = none) :
    (runFrom (install name) p).2.Separate := by
  rw [install]
  obtain ⟨f, q, failed, off⟩ | ⟨mode, q, made, off⟩ := createVoice_outcome name Mode.all p
  · rw [runFrom_bind_error failed]
    exact off.separate apart
  rw [runFrom_bind_ok made]
  -- the instrument is counted as in use while its voice is brought in line
  let held : Performance α := { q with voices := q.voices ++ [(name, p.engine.voices.size)] }
  have voices : q.voices = p.voices := off.held
  have seated : held.Separate := by
    have used := apart.equip other unused mode
    rw [← voices] at used
    refine Offstage.separate ?_ used
    exact ⟨off.params, rfl, off.voices, off.lfos⟩
  have found : held.voices.lookup name = some p.engine.voices.size := by
    simp [held, voices, List.lookup_append, unused]
  have after := (seated.operated found
    ((Desk.step_tends Handling.sync (held.deskOf name p.engine.voices.size)).1 (seated.seated _ _ found))).1
  have synced := runFrom_onDesk_eq name p.engine.voices.size Instrument.sync q
  rcases ran : runFrom Instrument.sync (q.deskOf name p.engine.voices.size) with ⟨result, d⟩
  have same : runFrom Handling.sync.act (held.deskOf name p.engine.voices.size) = (result, d) := ran
  rw [same] at after
  rw [ran] at synced
  cases result with
  | error f =>
    rw [runFrom_bind_error synced]
    exact Separate.unequip (p := q.operated name d) after (voices ▸ apart.listed)
  | ok =>
    rw [runFrom_bind_ok synced]
    exact Offstage.separate (p := held.operated name d) ⟨rfl, rfl, rfl, rfl⟩ after

/-- The parameters that an instrument starts with have no oscillator. -/
theorem Separate.acquaint (apart : p.Separate) (name : String) :
    ({ p with params := p.params ++ [(name, Parameters.initial)] } : Performance α).Separate := by
  have holds {c : String} {i : Nat}
      (has : ({ p with params := p.params ++ [(name, Parameters.initial)] } : Performance α).Holds c i) :
      p.Holds c i := by
    obtain ⟨s, found, lfo⟩ | kept := has
    · obtain old | ⟨-, rfl⟩ := lookup_concat found
      · exact .inl ⟨s, old, lfo⟩
      · cases lfo
    · exact .inr kept
  exact ⟨apart.listed, apart.seated, apart.apart, fun c i has => apart.known c i (holds has),
    fun b c i left right => apart.disjoint b c i (holds left) (holds right), apart.main⟩

theorem ensureInstrument_keeping (name : String) : Keeping (ensureInstrument (α := α) name) := by
  refine .of_separate fun p apart => ?_
  rw [runFrom_ensureInstrument]
  split
  · rename_i needed
    obtain ⟨other, unused⟩ : name ≠ mainName ∧ p.voices.lookup name = none := by simpa using needed
    split
    · exact install_separate (apart.acquaint name) other unused
    · exact install_separate apart other unused
  · exact apart

end build

theorem spawn_keeping (name : String) (position : α) : Keeping (spawn name position) := by
  refine .of_get_bind fun p => ?_
  split
  · exact aloof_confined ((log_aloof _ _).bind fun _ => .of_pure none) p
  · refine ((ensureInstrument_keeping name).bind fun _ => ?_) p
    refine (aloof_confined (announce_aloof _)).bind fun _ => .of_get_bind fun q => ?_
    refine Within.set_bind_at (.of_offstage ⟨rfl, rfl, rfl, rfl⟩) ?_
    have asked : Aloof (ask (α := α) (.spawned q.runs.size)) := modify_aloof fun _ => ⟨rfl, rfl, rfl, rfl⟩
    exact aloof_confined ((log_aloof _ _).bind fun _ => asked.bind fun _ => .of_pure _) _

theorem begin_keeping (time : α) : Keeping (begin time) := by
  have set : Aloof (setSession (α := α) Session.start) := modify_aloof fun _ => ⟨rfl, rfl, rfl, rfl⟩
  have started : Aloof (modify fun p : Performance α => { p with clock := p.clock.start time }) :=
    modify_aloof fun _ => ⟨rfl, rfl, rfl, rfl⟩
  exact (aloof_confined set).bind fun _ => (aloof_confined started).bind fun _ => spawn_keeping _ _

theorem stop_keeping : Keeping (stop (α := α)) :=
  (aloof_confined (announce_aloof _)).bind fun _ =>
    (onInstruments_keeping (Desk.step_tends (.operate .release))).bind fun _ =>
    aloof_confined (stopSamples_aloof.bind fun _ => log_aloof _ _)

theorem forceStop_keeping : Keeping (forceStop (α := α)) := by
  refine .of_get_bind fun p => ?_
  have asked : Aloof (forIn (List.range p.runs.size) PUnit.unit fun id _ => do
      if (p.runs[id]?.map (·.isLive)).getD false then ask (.cancel id)
      pure (ForInStep.yield PUnit.unit) : PerformM α PUnit) := by
    refine .forIn fun id _ => ?_
    dsimp only
    split
    · have request : Aloof (ask (α := α) (.cancel id)) := modify_aloof fun _ => ⟨rfl, rfl, rfl, rfl⟩
      exact request.bind fun _ => .of_pure _
    · exact .of_pure _
  exact ((aloof_confined asked).bind fun _ => (onInstruments_keeping (Desk.step_tends .silence)).bind fun _ =>
    aloof_confined (stopSamples_aloof.bind fun _ => announce_aloof _)) p

theorem normalizeVolumes_keeping : Keeping (normalizeVolumes (α := α)) := by
  refine (onInstruments_keeping (Desk.step_tends .normalize)).bind fun _ => .of_get_bind fun p => ?_
  have shown : Aloof (normalizeVolumes.liftFault (α := α) (Scalar.toNearest (p.config.masterVolume * 100))) := by
    unfold normalizeVolumes.liftFault
    split
    · exact .of_pure _
    · exact .of_throw trivial
  exact aloof_confined (shown.bind fun _ => log_aloof _ _) p

theorem replay_keeping (time : α) : Keeping (replay time) := by
  have again : Keeping (do normalizeVolumes; begin time : PerformM α (Option Nat)) :=
    normalizeVolumes_keeping.bind fun _ => begin_keeping time
  refine .of_get_bind fun p => ?_
  dsimp only
  split
  · exact (forceStop_keeping.bind fun _ => again) p
  · exact again p

theorem play_keeping (run : Run α) (names : List String) : Keeping (play run names) := by
  have started : Keeping (names.filterMapM fun name => spawn name run.position : PerformM α (List Nat)) := by
    induction names with
    | nil => exact .of_pure []
    | cons name rest ih =>
      rw [List.filterMapM_cons]
      refine (spawn_keeping name run.position).bind fun child? => ?_
      cases child? with
      | none => exact ih
      | some child => exact ih.bind fun _ => .of_pure _
  exact started.bind fun _ => .of_pure _

end Performance

end Partita
