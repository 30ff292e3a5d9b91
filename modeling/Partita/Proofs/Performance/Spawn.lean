import Partita.Proofs.Performance.Aside

/-! Starting runs. A block that exists gets one new run, counted at once; a `play`
line starts the runs of the blocks it names, one after the other, up to the first
whose instrument cannot be built. -/
namespace Partita

open Score

variable {α : Type}

def Score.Blocks.cast (blocks : Blocks) (names : List String) : List (String × List String) :=
  names.filterMap fun name => (blocks.lines? name).map (name, ·)

/-- An engine none of whose calls fails. -/
structure Engine.Faultless (e : Engine α) : Prop where
  calls : ∀ name (call : Call α), e.refusal? name call.name = none
  sample : ∀ name, e.refusal? name "play_sample" = none
  routes : ∀ block mode, e.fails block mode = false
  usable : e.closed = false

theorem Engine.Faultless.of_settings {e : Engine α} (refused : e.refused = []) (failing : e.failing = [])
    (usable : e.closed = false) : e.Faultless where
  calls _ _ := by rw [Engine.refusal?, refused]; rfl
  sample _ := by rw [Engine.refusal?, refused]; rfl
  routes _ _ := by rw [Engine.fails, failing]; rfl
  usable := usable

theorem Engine.Faultless.alike {e f : Engine α} (faultless : e.Faultless) (same : e.Alike f) :
    f.Faultless where
  calls := by simpa only [same.refusal?] using faultless.calls
  sample := by simpa only [same.refusal?] using faultless.sample
  routes := by simpa only [Engine.fails, same.failing] using faultless.routes
  usable := same.closed.trans faultless.usable

theorem Engine.Faultless.passing {e : Engine α} (faultless : e.Faultless) {f : Fault} (raised : e.Raises f) :
    f.Passing := by
  obtain passing | ⟨name, call, refused⟩ := raised
  · exact passing
  · cases (faultless.calls name call).symm.trans refused

namespace Performance

def newRun (generation : Nat) (position : α) (block : String × List String) : Run α :=
  ⟨block.1, block.2.toArray, generation, position, 0, [], .created⟩

def addRun (position : α) (p : Performance α) (block : String × List String) : Performance α :=
  { p with
    session := p.session.runStarted
    runs := p.runs.push (newRun p.session.generation position block)
    outbox := (p.outbox.push .changed).push (.spawned p.runs.size) }

def addRuns (position : α) (p : Performance α) (blocks : List (String × List String)) : Performance α :=
  blocks.foldl (addRun position) p

theorem Aside.addRun {sounds : List (Event α)} {p q : Performance α} (still : p.Aside sounds q)
    (position : α) (block : String × List String) :
    (p.addRun position block).Aside sounds (q.addRun position block) where
  blocks := still.blocks
  config := still.config
  session := congrArg Session.runStarted still.session
  clock := still.clock
  runs := by simp only [Performance.addRun, still.runs, still.session]
  outbox := by simp only [Performance.addRun, still.runs, still.outbox]
  engine := still.engine
  voices := still.voices
  owned := still.owned
  journal := still.journal

theorem Aside.addRuns {sounds : List (Event α)} {p q : Performance α} (still : p.Aside sounds q)
    (position : α) (blocks : List (String × List String)) :
    (p.addRuns position blocks).Aside sounds (q.addRuns position blocks) := by
  induction blocks generalizing p q with
  | nil => exact still
  | cons block rest ih => exact ih (still.addRun position block)

/-- New runs are counted and announced, and nothing else of a performance changes. -/
theorem addRuns_eq (position : α) (p : Performance α) (blocks : List (String × List String)) :
    ∃ changes outbox, p.addRuns position blocks = { p with
      session := { p.session with active := p.session.active + blocks.length, changes := changes }
      runs := p.runs ++ (blocks.map (newRun p.session.generation position)).toArray
      outbox := outbox } ∧
      ∀ id, outbox.contains (.cancel id) = p.outbox.contains (.cancel id) := by
  induction blocks generalizing p with
  | nil => exact ⟨p.session.changes, p.outbox, by simp [addRuns], fun _ => rfl⟩
  | cons block rest ih =>
    obtain ⟨changes, outbox, added, asked⟩ := ih (p.addRun position block)
    refine ⟨changes, outbox, ?_, fun id => ?_⟩
    · refine added.trans ?_
      simp only [addRun, Session.runStarted, Session.notify, List.length_cons, List.map_cons,
        Nat.add_assoc, Nat.add_comm 1]
      simp
    · rw [asked]
      simp [addRun]

theorem addRuns_voices (position : α) (p : Performance α) (blocks : List (String × List String)) :
    (p.addRuns position blocks).voices = p.voices := by
  obtain ⟨_, _, added, -⟩ := addRuns_eq position p blocks
  rw [added]

variable [Scalar α]

/-- The last steps of building an instrument. -/
def install (name : String) : PerformM α Unit := do
  let voice ← createVoice name Mode.all
  onDesk name voice Instrument.sync
  modify fun p => { p with voices := p.voices ++ [(name, voice)] }
  log .info s!"Created synth for block: {name}"

theorem runFrom_ensureInstrument (name : String) (p : Performance α) :
    runFrom (ensureInstrument name) p =
      if name != mainName && (p.voices.lookup name).isNone then
        runFrom (install name) (if (p.params.lookup name).isNone then
          { p with params := p.params ++ [(name, Parameters.initial)] } else p)
      else (.ok (), p) := by
  simp only [ensureInstrument, runFrom_get_bind]
  split
  · split <;> rfl
  · rfl

theorem install_holds {name : String} {p q : Performance α}
    (ran : runFrom (install name) p = (.ok (), q)) : (q.voices.lookup name).isSome := by
  obtain ⟨voice, r, -, ran⟩ := runFrom_bind_eq_ok ran
  obtain ⟨_, s, -, ran⟩ := runFrom_bind_eq_ok ran
  obtain ⟨_, t, added, ran⟩ := runFrom_bind_eq_ok ran
  have noted := congrArg (·.2.voices) ran
  have appended := congrArg (·.2.voices) added
  change t.voices = q.voices at noted
  change s.voices ++ [(name, voice)] = t.voices at appended
  rw [← noted, ← appended]
  simp [List.lookup_append]

theorem ensureInstrument_holds {name : String} {p q : Performance α}
    (ran : runFrom (ensureInstrument name) p = (.ok (), q)) (other : name ≠ mainName) :
    (q.voices.lookup name).isSome := by
  rw [runFrom_ensureInstrument] at ran
  split at ran
  · exact install_holds ran
  · rename_i present
    cases ran
    simpa [other, Option.isSome_iff_ne_none] using present

theorem createVoice_faultless {p : Performance α} (faultless : p.engine.Faultless) (name : String) :
    ∃ id q, runFrom (createVoice name Mode.all) p = (.ok id, q) := by
  have route := faultless.routes name .full
  simp only [Mode.all, createVoice, runFrom_get_bind, Engine.createVoice, faultless.usable, route,
    Bool.false_eq_true, if_false, runFrom_set_bind]
  split <;> exact ⟨_, _, rfl⟩

theorem install_faultless {p : Performance α} (faultless : p.engine.Faultless) (name : String) :
    ∃ q, runFrom (install name) p = (.ok (), q) := by
  obtain ⟨voice, r, created⟩ := createVoice_faultless faultless name
  have still := (createVoice_aside name Mode.all p).1
  rw [created] at still
  obtain ⟨_, d, synced, -⟩ :=
    Instrument.sync_completes (r.deskOf name voice) ((faultless.alike still.engine).calls name)
  have placed := runFrom_onDesk name voice Instrument.sync r
  rw [synced] at placed
  rw [install, runFrom_bind_ok created, runFrom_bind_ok placed]
  exact ⟨_, rfl⟩

theorem ensureInstrument_faultless {p : Performance α} (faultless : p.engine.Faultless)
    (name : String) : ∃ q, runFrom (ensureInstrument name) p = (.ok (), q) := by
  rw [runFrom_ensureInstrument]
  split
  · exact install_faultless (by split <;> exact faultless) name
  · exact ⟨p, rfl⟩

/-- What starting a run of an existing block comes to: a new run whose instrument
is in use, or a fault of the engine. -/
theorem spawn_existing {name : String} (position : α) {p : Performance α} {lines : List String}
    (found : p.blocks.lines? name = some lines) :
    (∃ f q, runFrom (spawn name position) p = (.error f, q) ∧ p.Aside [] q ∧
      ¬ p.engine.Faultless ∧ name ≠ mainName) ∨
    ∃ q, runFrom (spawn name position) p = (.ok (some p.runs.size), q) ∧
      (p.addRun position (name, lines)).Aside [] q ∧
      (name ≠ mainName → (q.voices.lookup name).isSome) := by
  rcases ran : runFrom (ensureInstrument name) p with ⟨result, r⟩
  have still := (ensureInstrument_aside name p).1
  rw [ran] at still
  simp only [spawn, runFrom_get_bind, found]
  cases result with
  | error f =>
    refine .inl ⟨f, r, runFrom_bind_error ran, still, fun faultless => ?_, fun main => ?_⟩
    · obtain ⟨q, completed⟩ := ensureInstrument_faultless faultless name
      rw [completed] at ran
      simp at ran
    · rw [runFrom_ensureInstrument] at ran
      simp [main] at ran
  | ok =>
    rw [runFrom_bind_ok ran]
    have present := ensureInstrument_holds ran
    have added := still.addRun position (name, lines)
    have entered : (r.addRun position (name, lines)).Aside [] { r.addRun position (name, lines) with
        journal := r.journal.push (.log ⟨.info, "scheduler", s!"Executing block: {name}"⟩) } :=
      { Aside.refl _ with journal := .push_silent rfl (by simp [Event.isForeign, Event.isOfSession]) _ }
    refine .inr ⟨_, ?_, added.trans entered, present⟩
    rw [← still.runs]
    rfl

theorem spawn_missing {name : String} (position : α) {p : Performance α}
    (missing : p.blocks.lines? name = none) :
    ∃ q, runFrom (spawn name position) p = (.ok none, q) ∧ p.Aside [] q := by
  simp only [spawn, runFrom_get_bind, missing]
  exact ⟨_, rfl, (log_aside (E := fun _ => True) _ _ p).1⟩

theorem spawn_cases (p : Performance α) (name : String) (position : α) :
    p.Aside [] (runFrom (spawn name position) p).2 ∨
      ∃ lines, p.blocks.lines? name = some lines ∧
        (p.addRun position (name, lines)).Aside [] (runFrom (spawn name position) p).2 := by
  cases found : p.blocks.lines? name with
  | none =>
    obtain ⟨q, ran, still⟩ := spawn_missing position found
    exact .inl (ran ▸ still)
  | some lines =>
    rcases spawn_existing position found with ⟨f, q, ran, still, -⟩ | ⟨q, ran, still, -⟩
    · exact .inl (ran ▸ still)
    · exact .inr ⟨lines, rfl, ran ▸ still⟩

/-- Runs of several blocks are started in order, up to a fault of the engine. -/
theorem spawn_all (names : List String) (position : α) (p : Performance α) :
    ∃ done q, done <+: p.blocks.cast names ∧ (p.addRuns position done).Aside [] q ∧
      (∀ block ∈ done, block.1 ≠ mainName → (q.voices.lookup block.1).isSome) ∧
      ((∃ f, runFrom (names.filterMapM fun name => spawn name position) p = (.error f, q) ∧
          ¬ p.engine.Faultless ∧ done.length < (p.blocks.cast names).length) ∨
        done = p.blocks.cast names ∧
          runFrom (names.filterMapM fun name => spawn name position) p =
            (.ok (List.range' p.runs.size done.length), q)) := by
  induction names generalizing p with
  | nil => exact ⟨[], p, List.nil_prefix, .refl p, by simp, .inr ⟨rfl, rfl⟩⟩
  | cons name rest ih =>
    simp only [List.filterMapM_cons]
    cases found : p.blocks.lines? name with
    | none =>
      have cast : p.blocks.cast (name :: rest) = p.blocks.cast rest := by
        simp [Blocks.cast, found]
      obtain ⟨r, ran, still⟩ := spawn_missing position found
      obtain ⟨done, q, within, kept, held, outcome⟩ := ih r
      rw [runFrom_bind_ok ran, cast, ← still.blocks, ← still.runs]
      refine ⟨done, q, within, (still.addRuns position done).trans kept, held, ?_⟩
      rcases outcome with ⟨f, failed, faulty, short⟩ | spawned
      · exact .inl ⟨f, failed, fun faultless => faulty (faultless.alike still.engine), short⟩
      · exact .inr spawned
    | some lines =>
      have cast : p.blocks.cast (name :: rest) = (name, lines) :: p.blocks.cast rest := by
        simp [Blocks.cast, found]
      rcases spawn_existing position found with ⟨f, q, ran, still, faulty, -⟩ | ⟨r, ran, still, present⟩
      · exact ⟨[], q, List.nil_prefix, still, by simp, .inl ⟨f, runFrom_bind_error ran, faulty, by simp [cast]⟩⟩
      · obtain ⟨done, q, within, kept, held, outcome⟩ := ih r
        have blocks : r.blocks = p.blocks := still.blocks
        have size : r.runs.size = p.runs.size + 1 := by simp [still.runs, addRun]
        have added : (p.addRuns position ((name, lines) :: done)).Aside [] q :=
          (still.addRuns position done).trans kept
        have holds : ∀ block ∈ (name, lines) :: done, block.1 ≠ mainName →
            (q.voices.lookup block.1).isSome := by
          intro block member other
          rcases List.mem_cons.mp member with rfl | later
          · exact kept.voices _ (by simpa [addRuns_voices] using present other)
          · exact held block later other
        rw [runFrom_bind_ok ran, cast]
        rw [blocks] at within outcome
        refine ⟨(name, lines) :: done, q, (List.prefix_cons_inj _).mpr within, added, holds, ?_⟩
        rcases outcome with ⟨f, failed, faulty, short⟩ | ⟨all, spawned⟩
        · exact .inl ⟨f, runFrom_bind_error failed, fun faultless => faulty (faultless.alike still.engine),
            Nat.succ_lt_succ short⟩
        · refine .inr ⟨by rw [all], ?_⟩
          rw [runFrom_bind_ok spawned, size]
          simp [List.range'_succ]

end Performance

end Partita
