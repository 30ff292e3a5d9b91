import Partita.Proofs.Performance.Advance

/-! Who is waited for while nothing goes wrong. Every live run but the main one is
waited for by an earlier run, so that the main run outlasts all others. -/
namespace Partita.Performance

open Score

variable {α : Type} {p q : Performance α} {id : Nat} {run run' : Run α} {started : List (Run α)}

/-- Runs wait for later ones, and a run that is live is waited for, the main run apart. -/
structure Attended (p : Performance α) : Prop where
  children : ∀ (i : Nat) (r : Run α), p.runs[i]? = some r → ∀ children, r.status = .playing children →
    ∀ c ∈ children, i < c ∧ c < p.runs.size
  waited : ∀ (i : Nat) (r : Run α), p.runs[i]? = some r → r.isLive = true → i ≠ 0 →
    ∃ (j : Nat) (parent : Run α) (children : List Nat),
      p.runs[j]? = some parent ∧ parent.status = .playing children ∧ i ∈ children

theorem Attended.past (attended : p.Attended) {main : Run α} (found : p.runs[0]? = some main)
    (ended : main.isLive = false) (i : Nat) (r : Run α) (there : p.runs[i]? = some r) : r.isLive = false := by
  induction i using Nat.strongRecOn generalizing r with
  | ind i ih =>
    by_cases first : i = 0
    · subst first
      rwa [← Option.some.inj (found.symm.trans there)]
    · cases live : r.isLive with
      | false => rfl
      | true =>
        -- Whoever waits for a live run is live and comes before it.
        obtain ⟨j, parent, children, above, playing, member⟩ := attended.waited i r there live first
        have earlier := (attended.children j parent above children playing i member).1
        have spent := ih j earlier parent above
        simp [Run.isLive, playing] at spent

theorem isLive_of_hasFinished {i : Nat} {r : Run α} (there : p.runs[i]? = some r)
    (finished : p.hasFinished i = true) : r.isLive = false := by
  obtain ⟨position, status⟩ := finished_of_hasFinished there finished
  simp [Run.isLive, status]

/-- What a turn keeps of the run whose turn it is, and what it starts. It goes on from a
play only when all it waits for have finished, and waits for runs only if it has just
started them: new runs of blocks that its block plays. -/
structure Kept (p : Performance α) (run run' : Run α) (started : List (Run α)) : Prop where
  live : run.isLive = true
  joined : ∀ children, run.status = .playing children → children.all p.hasFinished = true
  name : run'.name = run.name
  lines : run'.lines = run.lines
  generation : run'.generation = run.generation
  aligned : run'.Aligned fun line => [line]
  calm : run'.status.isCalm = true
  waits : ∀ children, run'.status = .playing children → children = List.range' p.runs.size started.length
  waited : started ≠ [] → ∃ children, run'.status = .playing children
  plays : ∀ r ∈ started, ∃ (position : α) (block : String × List String),
    r = newRun p.session.generation position block ∧ p.blocks.lines? block.1 = some block.2 ∧
      p.blocks.Plays run.name block.1

theorem Kept.of_resting (live : run.isLive = true)
    (joined : ∀ children, run.status = .playing children → children.all p.hasFinished = true)
    (aligned : run.Aligned fun line => [line]) (position : α) {status : Status α} (calm : status.isCalm = true)
    (alone : ∀ children, status ≠ .playing children) :
    Kept p run { run with position := position, status := status } [] :=
  ⟨live, joined, rfl, rfl, rfl, aligned, calm, fun _ playing => absurd playing (alone _), by simp, by simp⟩

theorem Attended.turn (attended : p.Attended) (found : p.runs[id]? = some run)
    (kept : Kept p run run' started) (runs : Succeeds id run' started p.runs q.runs) : q.Attended where
  children i r there children playing c member := by
    have size := runs.size
    rcases runs.origin there with ⟨rfl, rfl⟩ | ⟨-, there⟩ | ⟨-, listed⟩
    · have present := (Array.getElem?_eq_some_iff.mp found).1
      rw [kept.waits children playing, List.mem_range'_1] at member
      omega
    · have bounds := attended.children i r there children playing c member
      omega
    · obtain ⟨position, block, rfl, -⟩ := kept.plays r (List.mem_of_getElem? listed)
      simp [newRun] at playing
  waited i r there live other := by
    rcases runs.origin there with ⟨rfl, rfl⟩ | ⟨different, there⟩ | ⟨later, listed⟩
    · obtain ⟨j, parent, children, above, playing, member⟩ := attended.waited i run found kept.live other
      have earlier := (attended.children j parent above children playing i member).1
      exact ⟨j, parent, children, runs.other (Nat.ne_of_lt earlier) above, playing, member⟩
    · obtain ⟨j, parent, children, above, playing, member⟩ := attended.waited i r there live other
      by_cases own : j = id
      · subst j
        obtain rfl := Option.some.inj (found.symm.trans above)
        have finished := List.all_eq_true.mp (kept.joined children playing) i member
        rw [isLive_of_hasFinished there finished] at live
        contradiction
      · exact ⟨j, parent, children, runs.other own above, playing, member⟩
    · have some : started ≠ [] := by rintro rfl; simp at listed
      obtain ⟨children, playing⟩ := kept.waited some
      refine ⟨id, run', children, runs.found, playing, ?_⟩
      have bound := (List.getElem?_eq_some_iff.mp listed).1
      rw [kept.waits children playing, List.mem_range'_1]
      omega

theorem Keeps.calm {sounds : List (Event α)} (keeps : p.Keeps sounds q) {r s : Run α}
    (calm : r.Calm p) (name : s.name = r.name) (lines : s.lines = r.lines)
    (generation : s.generation = r.generation) (status : s.status.isCalm = true) : s.Calm q where
  block := by rw [keeps.blocks, name, lines]; exact calm.block
  generation := by rw [generation, keeps.generation, calm.generation]
  voiced other := keeps.voices _ (by rw [name] at other ⊢; exact calm.voiced other)
  status := status

theorem Advance.untroubled {sounds : List (Event α)} (untroubled : p.Untroubled) (found : p.runs[id]? = some run)
    (kept : Kept p run run' started) (advance : Advance id run' started sounds p q) : q.Untroubled := by
  refine ⟨?_, ?_, untroubled.faultless.alike advance.engine, ?_, ?_⟩
  · rw [advance.toKeeps.virtual]; exact untroubled.virtual
  · rw [advance.playing]; exact untroubled.playing
  · intro j
    rw [advance.asked]
    exact untroubled.asked j
  · intro i r there
    rcases advance.runs.origin there with ⟨rfl, rfl⟩ | ⟨-, there⟩ | ⟨-, listed⟩
    · exact advance.toKeeps.calm (untroubled.runs i run found) kept.name kept.lines kept.generation kept.calm
    · have before := untroubled.runs i r there
      exact advance.toKeeps.calm before rfl rfl rfl before.status
    · have member := List.mem_of_getElem? listed
      obtain ⟨position, block, rfl, defined, -⟩ := kept.plays r member
      refine ⟨⟨block.2, ?_, rfl⟩, advance.generation.symm, advance.voiced _ member, rfl⟩
      rw [advance.blocks]
      exact defined

theorem ahead_next (calm : run.Calm p) (aligned : run.Aligned fun line => [line]) {line : String}
    (next : run.next? p.session = some line) :
    ((run.ahead fun line => [line]) = line :: (run.read line).ahead fun line => [line]) ∧
      (run.read line).Aligned fun line => [line] := by
  simpa using Run.ahead_read (calm.mem_lines next).1 aligned

variable [Scalar α]

/-- Reading a line starts what the line plays, and the run then waits for it. -/
theorem Kept.of_reading (calm : run.Calm p) (aligned : run.Aligned fun line => [line])
    (running : run.status = .running) {line : String} (next : run.next? p.session = some line) {d : Deed α}
    (deed : p.piece.deed run.name run.position line = d) :
    Kept p run ((run.read line).withStatus (d.status p.blocks p.runs.size))
      (d.started p.blocks p.session.generation run.position) := by
  obtain ⟨-, lines, defined, read⟩ := calm.mem_lines next
  refine ⟨by simp [Run.isLive, running], by simp [running], run.read_name line, run.read_lines line,
    run.read_generation line, (ahead_next calm aligned next).2, ?_, ?_, ?_, ?_⟩
  · cases d with
    | play names =>
      simp only [Run.withStatus, Deed.status]
      split <;> rfl
    | _ => rfl
  · cases d with
    | play names =>
      simp only [Run.withStatus, Deed.status, Deed.started, List.length_map]
      split <;> simp_all
    | _ => simp [Run.withStatus, Deed.status]
  · cases d with
    | play names =>
      intro some
      have none : p.blocks.cast names ≠ [] := by simpa [Deed.started] using some
      exact ⟨_, if_neg none⟩
    | _ => simp [Deed.started]
  · cases d with
    | play names =>
      intro r member
      obtain ⟨block, cast, rfl⟩ := List.mem_map.mp member
      exact ⟨run.position, block, rfl, (Blocks.mem_cast.mp cast).2,
        Piece.plays_of_deed p.piece defined read deed cast⟩
    | _ => simp [Deed.started]

theorem Advances.kept {events : List (Event α)} (calm : run.Calm p) (aligned : run.Aligned fun line => [line])
    (advances : Advances p run run' started events) : Kept p run run' started := by
  cases advances with
  | starts created => exact .of_resting (by simp [Run.isLive, created]) (by simp [created]) aligned _ rfl (by simp)
  | resumes waiting => exact .of_resting (by simp [Run.isLive, waiting]) (by simp [waiting]) aligned _ rfl (by simp)
  | rejoins playing all =>
    exact .of_resting (by simp [Run.isLive, playing]) (by simpa [playing] using all) aligned _ rfl (by simp)
  | ends running spent => exact .of_resting (by simp [Run.isLive, running]) (by simp [running]) aligned _ rfl (by simp)
  | reads running next deed => exact .of_reading calm aligned running next deed

end Partita.Performance
