import Partita.Proofs.Estimate.Reentry

/-! Estimates of blocks that do not play themselves. What is under way when a block is played
are the blocks on one way down to it, and where no way leads back to a block none of them is
played again. So the names under way make no difference, nothing is logged, and every play
counts for what the played block is estimated at by itself. -/
namespace Partita

open Score Relation

/-- No block on a way down from a block plays itself, directly or through others. -/
def Score.Blocks.AcyclicFrom (blocks : Blocks) (name : String) : Prop :=
  ∀ other, ReflTransGen blocks.Plays name other → ¬ TransGen blocks.Plays other other

theorem Score.Blocks.AcyclicFrom.played {blocks : Blocks} {name child : String} (acyclic : blocks.AcyclicFrom name)
    (edge : blocks.Plays name child) : blocks.AcyclicFrom child := by
  intro other way
  exact acyclic other (way.head edge)

namespace Estimate

variable {α : Type} [Scalar α]

/-- What some commands add up to where each block that they play has a known length. -/
def additions (bpm : α) (known : String → Except Fault α) : List Command → List (Except Fault α)
  | [] => []
  | c :: rest =>
    (if c.verb = "play" then greatest <$> c.played.mapM known else ownSeconds bpm c rest) :: additions bpm known rest

def addUp (total : α) (parts : List (Except Fault α)) : Except Fault α := do
  return (← parts.mapM id).foldl (· + ·) total

theorem addUp_cons (total : α) (x : Except Fault α) (parts : List (Except Fault α)) :
    addUp total (x :: parts) = x >>= fun seconds => addUp (total + seconds) parts := by
  rw [addUp, List.mapM_cons]
  simp [addUp]

theorem mapM_lift {β γ : Type} {act : β → Estimating γ} {known : β → Except Fault γ} {xs : List β}
    (same : ∀ x ∈ xs, act x = liftM (known x)) : xs.mapM act = liftM (xs.mapM known) := by
  induction xs with
  | nil => rfl
  | cons x rest ih =>
    obtain ⟨here, later⟩ := List.forall_mem_cons.mp same
    rw [List.mapM_cons, List.mapM_cons, here, ih later]
    simp [liftM_bind]

/-- Where the length of every block that is played is known, nothing is logged, and the
commands add up to the sum of what each of them adds. -/
theorem totalSeconds_lift {bpm : α} {block : String → Estimating α} {known : String → Except Fault α}
    {cs : List Command} (same : ∀ c ∈ cs, ∀ name ∈ c.played, block name = liftM (known name)) (total : α) :
    totalSeconds bpm block total cs = liftM (addUp total (additions bpm known cs)) := by
  induction cs generalizing total with
  | nil => rfl
  | cons c rest ih =>
    obtain ⟨here, later⟩ := List.forall_mem_cons.mp same
    have first : firstSeconds bpm block c rest =
        liftM (if c.verb = "play" then greatest <$> c.played.mapM known else ownSeconds bpm c rest) := by
      rw [firstSeconds_eq, mapM_lift here]
      split
      · rw [liftM_map]
      · rfl
    rw [totalSeconds, first, additions, addUp_cons, liftM_bind]
    apply bind_congr
    intro seconds
    exact ih later (total + seconds)

/-- The seconds of one pass of a block, with no regard to the blocks under way. -/
def unguardedSeconds (blocks : Blocks) (bpm : α) : (depth : Nat) → String → Except Fault α
  | 0, _ => .error .nestingLimit
  | depth + 1, name =>
    match blocks.lines? name with
    | none => .ok 0
    | some lines => (· + tailSeconds) <$> addUp 0 (additions bpm (unguardedSeconds blocks bpm depth) (commandsOf lines))

section acyclic

variable {blocks : Blocks} {bpm : α} {name : String}

/-- The blocks under way are above a block: none of them is on a way down from it. -/
def Above (blocks : Blocks) (busy : List String) (name : String) : Prop :=
  ∀ other ∈ busy, blocks.contains other = true ∧ ¬ ReflTransGen blocks.Plays name other

theorem Above.nil : Above blocks [] name := by
  intro other member
  contradiction

theorem Above.free {busy : List String} (above : Above blocks busy name) : name ∉ busy := by
  intro member
  exact (above name member).2 .refl

theorem Above.missing {busy : List String} (above : Above blocks busy name) (found : blocks.contains name = true)
    {child : String} (missing : blocks.lines? child = none) : child ∉ name :: busy := by
  have exists_of_mem : ∀ other ∈ name :: busy, blocks.contains other = true :=
    List.forall_mem_cons.mpr ⟨found, fun other member => (above other member).1⟩
  intro member
  have there := exists_of_mem child member
  simp [Blocks.contains, missing] at there

theorem Above.played {busy : List String} (above : Above blocks busy name) (acyclic : blocks.AcyclicFrom name)
    (found : blocks.contains name = true) {child : String} (edge : blocks.Plays name child) :
    Above blocks (name :: busy) child := by
  intro other member
  rcases List.mem_cons.mp member with rfl | member
  · refine ⟨found, fun way => ?_⟩
    exact acyclic other .refl (TransGen.head' edge way)
  · obtain ⟨there, apart⟩ := above other member
    exact ⟨there, fun way => apart (way.head edge)⟩

theorem blockSeconds_unplayed {busy : List String} (other : name ∉ busy) (missing : blocks.lines? name = none)
    (depth : Nat) : blockSeconds blocks bpm depth busy name = liftM (unguardedSeconds blocks bpm depth name) := by
  cases depth with
  | zero => rfl
  | succ depth =>
    rw [blockSeconds_missing depth other missing, unguardedSeconds, missing]
    rfl

/-- The names under way make no difference where none of them is on a way down. -/
theorem blockSeconds_unguarded (acyclic : blocks.AcyclicFrom name) (depth : Nat) {busy : List String}
    (above : Above blocks busy name) :
    blockSeconds blocks bpm depth busy name = liftM (unguardedSeconds blocks bpm depth name) := by
  induction depth generalizing busy name with
  | zero => rfl
  | succ depth ih =>
    cases found : blocks.lines? name with
    | none => exact blockSeconds_unplayed above.free found (depth + 1)
    | some lines =>
      have known : blocks.contains name = true := Blocks.contains_of_lines? found
      have played : ∀ c ∈ commandsOf lines, ∀ child ∈ c.played,
          blockSeconds blocks bpm depth (name :: busy) child = liftM (unguardedSeconds blocks bpm depth child) := by
        refine played_cases found ?_ ?_
        · intro child missing
          exact blockSeconds_unplayed (above.missing known missing) missing depth
        · intro child edge
          exact ih (acyclic.played edge) (above.played acyclic known edge)
      rw [blockSeconds_found depth above.free found, totalSeconds_lift played, unguardedSeconds, found, liftM_map]

end acyclic

/-- Depth beyond the number of blocks is not used. -/
theorem blockSeconds_deep (blocks : Blocks) (bpm : α) (name : String) {depth deeper : Nat}
    (enough : blocks.length < depth) (more : blocks.length < deeper) :
    blockSeconds blocks bpm depth [] name = blockSeconds blocks bpm deeper [] name := by
  have first := Estimator.block_follows bpm (Blocks.outside_empty_lt enough) (Blocks.outside_empty_lt enough) name
  have second := Estimator.block_follows bpm (Blocks.outside_empty_lt enough) (Blocks.outside_empty_lt more) name
  exact first.unique second

theorem block_deep (blocks : Blocks) (bpm : α) (name : String) :
    block blocks bpm name = blockSeconds blocks (effectiveBpm bpm) (blocks.length + 2) [] name := rfl

def standalone (blocks : Blocks) (bpm : α) (name : String) : Except Fault α := told (block blocks bpm name)

theorem standalone_missing {blocks : Blocks} {name : String} (missing : blocks.lines? name = none) (bpm : α) :
    standalone blocks bpm name = .ok 0 := by
  rw [standalone, block_deep, blockSeconds_missing _ List.not_mem_nil missing]
  rfl

theorem blockSeconds_standalone {blocks : Blocks} {name : String} (acyclic : blocks.AcyclicFrom name) (bpm : α)
    {busy : List String} (above : Above blocks busy name) {depth : Nat} (enough : blocks.length < depth) :
    blockSeconds blocks (effectiveBpm bpm) depth busy name = liftM (standalone blocks bpm name) := by
  have deep : blocks.length < blocks.length + 2 := by omega
  have alone : block blocks bpm name = liftM (unguardedSeconds blocks (effectiveBpm bpm) depth name) := by
    rw [block_deep, blockSeconds_deep blocks _ name deep enough, blockSeconds_unguarded acyclic depth .nil]
  rw [blockSeconds_unguarded acyclic depth above, standalone, alone, told_lift]

/-- A block whose ways down have no cycle is estimated at the sum of what its commands add,
where each block that they play counts for what it is estimated at by itself, however often
and on whatever ways it is played. Nothing is logged, also by an estimator whose names under
way are shared by all its calls. A block that is missing counts nothing. -/
theorem block_sums_standalone {blocks : Blocks} (bpm : α) {name : String} {lines : List String}
    (found : blocks.lines? name = some lines) (acyclic : blocks.AcyclicFrom name) :
    standalone blocks bpm name = (do
      let total ← addUp 0 (additions (effectiveBpm bpm) (standalone blocks bpm) (commandsOf lines))
      return total + 1.5) ∧
    (∀ other, blocks.lines? other = none → standalone blocks bpm other = .ok 0) ∧
    ∀ log, runFrom (block blocks bpm name) log = (standalone blocks bpm name, log) ∧
      ∀ more, (Estimator.block blocks (effectiveBpm bpm) (blocks.length + 1 + more) name).run { log } =
        some (standalone blocks bpm name, { log }) := by
  have known : blocks.contains name = true := Blocks.contains_of_lines? found
  have silent : block blocks bpm name = liftM (standalone blocks bpm name) :=
    blockSeconds_standalone acyclic bpm .nil (Nat.lt_add_of_pos_right Nat.two_pos)
  have played : ∀ c ∈ commandsOf lines, ∀ child ∈ c.played,
      blockSeconds blocks (effectiveBpm bpm) (blocks.length + 1) [name] child =
        liftM (standalone blocks bpm child) := by
    refine played_cases found ?_ ?_
    · intro child missing
      rw [blockSeconds_missing _ (Above.nil.missing known missing) missing, standalone_missing missing]
      rfl
    · intro child edge
      have above : Above blocks [name] child := Above.nil.played acyclic known edge
      exact blockSeconds_standalone (acyclic.played edge) bpm above (by omega)
  refine ⟨?_, fun other missing => standalone_missing missing bpm, ?_⟩
  · have whole : block blocks bpm name = liftM ((· + tailSeconds) <$>
        addUp 0 (additions (effectiveBpm bpm) (standalone blocks bpm) (commandsOf lines))) := by
      rw [block_deep, blockSeconds_found _ List.not_mem_nil found, totalSeconds_lift played, liftM_map]
    rw [standalone, whole, told_lift, map_eq_pure_bind]
    rfl
  · intro log
    have ran : runFrom (block blocks bpm name) log = (standalone blocks bpm name, log) := by
      rw [silent]
      cases standalone blocks bpm name <;> rfl
    refine ⟨ran, ?_⟩
    intro more
    have unlimited : blocks.length < blocks.length + 1 + more := by omega
    have room : blocks.outside ([] : List String).toFinset < blocks.length + 2 := Blocks.outside_empty_lt (by omega)
    have ended := Estimator.block_follows (effectiveBpm bpm) (Blocks.outside_empty_lt unlimited) room name log
    rw [← block_deep, ran] at ended
    exact ended

def diamond : Blocks :=
  [("main", ["play together left right", "play right", "play nothing"]), ("left", ["waitsec 1", "play low"]),
    ("right", ["play low", "play low"]), ("low", ["waitsec 2"])]

theorem block_sums_standalone_diamond :
    additions (effectiveBpm 120) (standalone diamond (120 : ℚ))
      (commandsOf ["play together left right", "play right", "play nothing"]) = [.ok 8.5, .ok 8.5, .ok 0] ∧
    standalone diamond (120 : ℚ) "main" = .ok 18.5 := by
  have found : diamond.lines? "main" = some ["play together left right", "play right", "play nothing"] := rfl
  have acyclic : diamond.AcyclicFrom "main" :=
    Blocks.Acyclic.of_rank
      (fun name => if name = "main" then 2 else if name = "low" ∨ name = "nothing" then 0 else 1) (by decide +kernel)
  have parts : additions (effectiveBpm 120) (standalone diamond (120 : ℚ))
      (commandsOf ["play together left right", "play right", "play nothing"]) = [.ok 8.5, .ok 8.5, .ok 0] := by
    decide +kernel
  refine ⟨parts, ?_⟩
  rw [(block_sums_standalone (120 : ℚ) found acyclic).1, parts]
  decide +kernel

end Estimate

end Partita
