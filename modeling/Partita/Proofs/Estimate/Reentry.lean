import Mathlib.Data.Finset.Card
import Partita.Proofs.Estimate.Loops

/-! Blocks that play each other, and an estimator that is used more than once. The
estimator keeps the names of the blocks under way in a set that all its calls share. A call
puts a name in and takes it out again, whatever becomes of the commands between. How deep its
calls go is bounded by the number of blocks that are not under way: with any limit on nested
calls above it the estimator is never cut off, and comes to the same. -/
namespace Partita

open Score

def Score.Blocks.outside (blocks : Blocks) (names : Finset String) : Nat :=
  ((blocks.map Prod.fst).toFinset \ names).card

theorem Score.Blocks.outside_insert {blocks : Blocks} {names : Finset String} {name : String}
    (known : blocks.contains name = true) (other : name ∉ names) :
    blocks.outside (insert name names) < blocks.outside names := by
  apply Finset.card_lt_card
  rw [Finset.sdiff_insert]
  apply Finset.erase_ssubset
  simp only [Finset.mem_sdiff, List.mem_toFinset]
  exact ⟨Blocks.mem_names known, other⟩

theorem Score.Blocks.outside_le (blocks : Blocks) (names : Finset String) : blocks.outside names ≤ blocks.length := by
  calc blocks.outside names
      ≤ (blocks.map Prod.fst).toFinset.card := Finset.card_le_card Finset.sdiff_subset
    _ ≤ (blocks.map Prod.fst).length := List.toFinset_card_le _
    _ = blocks.length := List.length_map ..

theorem Score.Blocks.outside_empty_lt {blocks : Blocks} {depth : Nat} (enough : blocks.length < depth) :
    blocks.outside ([] : List String).toFinset < depth :=
  Nat.lt_of_le_of_lt (blocks.outside_le _) enough

namespace Estimate

variable {α β γ : Type} [Scalar α]

def greatest : List α → α
  | [] => 0
  | first :: others => Scalar.maximum first others

/-- What a command that plays nothing adds to the estimate of its block. -/
def ownSeconds (bpm : α) (c : Command) (rest : List Command) : Except Fault α :=
  if c.verb = "loop" then loopSeconds bpm c rest
  else if c.verb = "waitforfinish" then .ok waitForFinishSeconds
  else commandSeconds bpm c

/-- A command adds the greatest length of the blocks that it plays, or what it adds by itself. -/
theorem firstSeconds_eq (bpm : α) (block : String → Estimating α) (c : Command) (rest : List Command) :
    firstSeconds bpm block c rest =
      if c.verb = "play" then greatest <$> c.played.mapM block else liftM (ownSeconds bpm c rest) := by
  unfold firstSeconds
  split
  · rename_i names verb args
    have played : c.played = names := by simp [Command.played, verb, args]
    rw [if_pos verb, played, map_eq_pure_bind]
    apply bind_congr
    intro lengths
    cases lengths <;> rfl
  · rename_i name others single verb args
    have played : c.played = [name] := by
      simp only [Command.played, verb, args, if_true]
    simp [verb, played, greatest, Scalar.maximum]
  · rename_i verb
    simp [verb, ownSeconds]
  · rename_i verb
    simp [verb, ownSeconds]
    rfl
  · rename_i loop waits together single
    by_cases verb : c.verb = "play"
    · have none : c.args = [] := by
        cases args : c.args with
        | nil => rfl
        | cons name others => exact absurd args (single name others verb)
      simp [verb, Command.played, none, greatest, commandSeconds]
      rfl
    · rw [if_neg verb, ownSeconds, if_neg loop, if_neg waits]

section

variable {blocks : Blocks} {bpm : α} {busy : List String} {name : String} (depth : Nat)

theorem blockSeconds_again (again : name ∈ busy) : blockSeconds blocks bpm (depth + 1) busy name =
    (fun _ => 0) <$> report .debug s!"Block '{name}' re-entered during estimation; counted as 0" := by
  rw [blockSeconds, if_pos (List.contains_iff_mem.mpr again), map_eq_pure_bind]

theorem blockSeconds_missing (other : name ∉ busy) (missing : blocks.lines? name = none) :
    blockSeconds blocks bpm (depth + 1) busy name = pure 0 := by
  rw [blockSeconds, if_neg (mt List.contains_iff_mem.mp other), missing]

theorem blockSeconds_found (other : name ∉ busy) {lines : List String} (found : blocks.lines? name = some lines) :
    blockSeconds blocks bpm (depth + 1) busy name =
      (· + tailSeconds) <$> totalSeconds bpm (blockSeconds blocks bpm depth (name :: busy)) 0 (commandsOf lines) := by
  rw [blockSeconds, if_neg (mt List.contains_iff_mem.mp other), found, map_eq_pure_bind]
  rfl

end

/-- An estimator at work: the names of the blocks that it is estimating, and its log. -/
structure Estimator where
  underWay : Finset String := ∅
  log : Array Record := #[]

namespace Estimator

/-- What an estimator does. It leaves an estimator, if it is not cut off. -/
abbrev Act := StateT Estimator Option

def enter (name : String) (e : Estimator) : Estimator := { e with underWay := insert name e.underWay }

def leave (name : String) (e : Estimator) : Estimator := { e with underWay := e.underWay.erase name }

def note (severity : Severity) (text : String) (e : Estimator) : Estimator :=
  { e with log := e.log.push ⟨severity, "estimator", text⟩ }

section

variable (bpm : α) (block : String → Act (Except Fault α))

def each : List String → Act (Except Fault (List α))
  | [] => return .ok []
  | name :: rest => do
    match ← block name with
    | .error f => return .error f
    | .ok seconds => return (← each rest).map (seconds :: ·)

def command (c : Command) (rest : List Command) : Act (Except Fault α) :=
  if c.verb = "play" then do return (← each block c.played).map greatest
  else return ownSeconds bpm c rest

def commands (total : α) : List Command → Act (Except Fault α)
  | [] => return .ok total
  | c :: rest => do
    match ← command bpm block c rest with
    | .error f => return .error f
    | .ok seconds => commands (total + seconds) rest

end

/-- Estimates a block, with a limit on nested calls at which the estimator is cut off. Whether
its commands fail or not, the name of the block is taken out after them. -/
def block (blocks : Blocks) (bpm : α) : (limit : Nat) → String → Act (Except Fault α)
  | 0, _ => failure
  | limit + 1, name => do
    if name ∈ (← get).underWay then
      modify (note .debug s!"Block '{name}' re-entered during estimation; counted as 0")
      return .ok 0
    match blocks.lines? name with
    | none => return .ok 0
    | some lines =>
      modify (enter name)
      let outcome ← commands bpm (block blocks bpm limit) 0 (commandsOf lines)
      modify (leave name)
      return outcome.map (· + tailSeconds)

/-- An act that goes on where another one is cut off, and ends as that one does otherwise. -/
def Extends (act other : Act β) : Prop := ∀ e exit, act.run e = some exit → other.run e = some exit

namespace Extends

theorem refl (act : Act β) : Extends act act := fun _ _ ended => ended

theorem bind {act other : Act β} {next after : β → Act γ} (first : Extends act other)
    (rest : ∀ b, Extends (next b) (after b)) : Extends (act >>= next) (other >>= after) := by
  intro e exit ended
  rw [StateT.run_bind] at ended ⊢
  obtain ⟨⟨b, between⟩, here, later⟩ := Option.bind_eq_some_iff.mp ended
  rw [first e _ here]
  exact rest b between exit later

end Extends

section

variable {block other : String → Act (Except Fault α)} (played : ∀ name, Extends (block name) (other name))
include played

omit [Scalar α] in
theorem each_extends (names : List String) : Extends (each block names) (each other names) := by
  induction names with
  | nil => exact .refl _
  | cons name rest ih =>
    rw [each, each]
    apply (played name).bind
    intro outcome
    cases outcome with
    | error f => exact .refl _
    | ok seconds => exact ih.bind fun _ => .refl _

theorem commands_extends (bpm total : α) (cs : List Command) :
    Extends (commands bpm block total cs) (commands bpm other total cs) := by
  induction cs generalizing total with
  | nil => exact .refl _
  | cons c rest ih =>
    have first : Extends (command bpm block c rest) (command bpm other c rest) := by
      rw [command, command]
      split
      · exact (each_extends played c.played).bind fun _ => .refl _
      · exact .refl _
    rw [commands, commands]
    apply first.bind
    intro outcome
    cases outcome with
    | error f => exact .refl _
    | ok seconds => exact ih (total + seconds)

end

/-- A limit on calls only ever cuts an estimator off. -/
theorem block_extends (blocks : Blocks) (bpm : α) {limit larger : Nat} (le : limit ≤ larger) (name : String) :
    Extends (block blocks bpm limit name) (block blocks bpm larger name) := by
  induction limit generalizing larger name with
  | zero =>
    intro e exit ended
    contradiction
  | succ limit ih =>
    obtain ⟨larger, rfl⟩ := Nat.exists_eq_succ_of_ne_zero (Nat.ne_zero_of_lt le)
    have calls : ∀ child, Extends (block blocks bpm limit child) (block blocks bpm larger child) :=
      fun child => ih (Nat.le_of_succ_le_succ le) child
    rw [block, block]
    apply (Extends.refl _).bind
    intro e
    split
    · exact .refl _
    · split
      · exact .refl _
      · apply (Extends.refl _).bind
        intro _
        apply (commands_extends calls bpm 0 _).bind
        intro outcome
        exact .refl _

/-- An act that ends as a computation does which is known to end, and that leaves the same
names under way as it found. -/
def Follows (names : Finset String) (act : Act (Except Fault β)) (known : Estimating β) : Prop :=
  ∀ log, act.run ⟨names, log⟩ = some ((runFrom known log).1, ⟨names, (runFrom known log).2⟩)

namespace Follows

variable {names : Finset String} {act : Act (Except Fault β)} {known : Estimating β}

theorem of_outcome (x : Except Fault β) : Follows names (pure x) (liftM x) := by
  intro log
  cases x <;> rfl

theorem bind {next : β → Act (Except Fault γ)} {after : β → Estimating γ} (first : Follows names act known)
    (rest : ∀ b, Follows names (next b) (after b)) :
    Follows names (act >>= fun
      | .error f => pure (.error f)
      | .ok b => next b) (known >>= after) := by
  intro log
  have ended := first log
  rcases ran : runFrom known log with ⟨outcome, later⟩
  rw [ran] at ended
  rw [StateT.run_bind, ended, runFrom_bind, ran]
  cases outcome with
  | error f => rfl
  | ok b => exact rest b later

theorem map (f : β → γ) (first : Follows names act known) :
    Follows names (act >>= fun outcome => pure (outcome.map f)) (f <$> known) := by
  intro log
  have ended := first log
  rw [map_eq_pure_bind, StateT.run_bind, ended, runFrom_bind]
  rcases runFrom known log with ⟨outcome, later⟩
  cases outcome <;> rfl

/-- Whether what happens between fails or not, a name that was put in is taken out again. -/
theorem between {name : String} (other : name ∉ names) (f : β → γ) (inside : Follows (insert name names) act known) :
    Follows names (do
      modify (enter name)
      let outcome ← act
      modify (leave name)
      return outcome.map f) (f <$> known) := by
  intro log
  have ended := inside log
  rw [map_eq_pure_bind, runFrom_bind]
  rcases ran : runFrom known log with ⟨outcome, later⟩
  rw [ran] at ended
  have restored : (insert name names).erase name = names := Finset.erase_insert other
  cases outcome <;> simp [enter, leave, ended, restored, Except.map]

/-- Two computations that the same act follows are the same. -/
theorem unique {other : Estimating β} (first : Follows names act known) (second : Follows names act other) :
    known = other := by
  funext log
  have same := Option.some.inj ((first log).symm.trans (second log))
  simp only [Prod.mk.injEq, Estimator.mk.injEq, true_and] at same
  exact Prod.ext same.1 same.2

end Follows

variable {blocks : Blocks} {names : Finset String}

section

variable {block : String → Act (Except Fault α)} {estimate : String → Estimating α}
  (played : ∀ name, Follows names (block name) (estimate name))
include played

omit [Scalar α] in
theorem each_follows (listed : List String) : Follows names (each block listed) (listed.mapM estimate) := by
  induction listed with
  | nil =>
    rw [each]
    exact .of_outcome (.ok [])
  | cons name rest ih =>
    rw [each, List.mapM_cons]
    apply (played name).bind
    intro seconds
    exact ih.map (seconds :: ·)

theorem command_follows (bpm : α) (c : Command) (rest : List Command) :
    Follows names (command bpm block c rest) (firstSeconds bpm estimate c rest) := by
  rw [command, firstSeconds_eq]
  split
  · exact (each_follows played c.played).map greatest
  · exact .of_outcome _

theorem commands_follows (bpm : α) (total : α) (cs : List Command) :
    Follows names (commands bpm block total cs) (totalSeconds bpm estimate total cs) := by
  induction cs generalizing total with
  | nil =>
    rw [commands]
    exact .of_outcome (.ok total)
  | cons c rest ih =>
    rw [commands, totalSeconds]
    exact (command_follows played bpm c rest).bind fun seconds => ih (total + seconds)

end

/-- Where there is room for every block that is not under way, neither the limit on calls nor
the depth of the computation makes a difference. -/
theorem block_follows (bpm : α) {limit depth : Nat} {busy : List String}
    (unlimited : blocks.outside busy.toFinset < limit) (room : blocks.outside busy.toFinset < depth) (name : String) :
    Follows busy.toFinset (block blocks bpm limit name) (blockSeconds blocks bpm depth busy name) := by
  -- Each call below has one block more under way, so that the limit and the depth may be one less.
  induction limit generalizing depth busy name with
  | zero => exact absurd unlimited (Nat.not_lt_zero _)
  | succ limit ih =>
    obtain ⟨depth, rfl⟩ := Nat.exists_eq_succ_of_ne_zero (Nat.ne_zero_of_lt room)
    intro log
    rw [block]
    change (ite (name ∈ busy.toFinset) _ _ : Act (Except Fault α)).run _ = _
    by_cases again : name ∈ busy
    · rw [if_pos (List.mem_toFinset.mpr again), blockSeconds_again depth again]
      rfl
    · have other : name ∉ busy.toFinset := mt List.mem_toFinset.mp again
      rw [if_neg other]
      cases found : blocks.lines? name with
      | none =>
        rw [blockSeconds_missing depth again found]
        rfl
      | some lines =>
        have known : blocks.contains name = true := Blocks.contains_of_lines? found
        have fewer : blocks.outside (name :: busy).toFinset < blocks.outside busy.toFinset := by
          rw [List.toFinset_cons]
          exact Blocks.outside_insert known other
        have inside : ∀ child, Follows (name :: busy).toFinset (block blocks bpm limit child)
            (blockSeconds blocks bpm depth (name :: busy) child) := by
          intro child
          apply ih
          · omega
          · omega
        have ended := commands_follows inside bpm 0 (commandsOf lines)
        rw [List.toFinset_cons] at ended
        rw [blockSeconds_found depth again found]
        exact ended.between other (· + tailSeconds) log

/-- An estimator that has nothing under way estimates each of some blocks as a fresh one does. -/
theorem blocks_told (blocks : Blocks) (bpm : α) {limit : Nat} (unlimited : blocks.length < limit)
    (listed : List String) (log : Array Record) : ∃ after,
      (listed.mapM (block blocks (effectiveBpm bpm) limit)).run ⟨∅, log⟩ =
        some (listed.map fun name => told (Estimate.block blocks bpm name), ⟨∅, after⟩) := by
  induction listed generalizing log with
  | nil => exact ⟨log, rfl⟩
  | cons name rest ih =>
    have room : blocks.outside ([] : List String).toFinset < blocks.length + 2 := Blocks.outside_empty_lt (by omega)
    have ended := block_follows (effectiveBpm bpm) (Blocks.outside_empty_lt unlimited) room name log
    rw [blockSeconds_oblivious _ _ _ _ _ log, List.toFinset_nil] at ended
    obtain ⟨after, others⟩ := ih (runFrom (blockSeconds blocks (effectiveBpm bpm) (blocks.length + 2) [] name) log).2
    refine ⟨after, ?_⟩
    rw [List.mapM_cons, StateT.run_bind, ended]
    change ((rest.mapM (block blocks (effectiveBpm bpm) limit) >>= fun later => pure (_ :: later)).run _) = _
    rw [StateT.run_bind, others]
    rfl

end Estimator

/-- Whatever blocks play each other and whatever is under way, estimating a block ends after
no more nested calls than there are blocks left. It ends with a length or with a fault, always
the same and with the names under way as they were. So an estimator may be used again: it tells
of all blocks, in any order and also after faults, what a fresh one tells of each. -/
theorem estimator_leaves_no_residue (blocks : Blocks) (bpm : α) :
    (∀ (name : String) (e : Estimator), ∃ outcome log,
      (∀ limit exit, (Estimator.block blocks bpm limit name).run e = some exit → exit = (outcome, { e with log })) ∧
      ∀ more, (Estimator.block blocks bpm (blocks.outside e.underWay + 1 + more) name).run e =
          some (outcome, { e with log }) ∧
        runFrom (blockSeconds blocks bpm (blocks.outside e.underWay + 1 + more) e.underWay.toList name) e.log =
          (outcome, log)) ∧
    ∀ (names : List String) (log : Array Record) (more : Nat), ∃ after,
      (names.mapM (Estimator.block blocks (effectiveBpm bpm) (blocks.length + 1 + more))).run { log } =
        some (names.map fun name => told (block blocks bpm name), { log := after }) := by
  constructor
  · intro name e
    have same : e.underWay.toList.toFinset = e.underWay := Finset.toList_toFinset e.underWay
    have room (more : Nat) : blocks.outside e.underWay.toList.toFinset < blocks.outside e.underWay + 1 + more := by
      rw [same]
      omega
    have follows (more other : Nat) : Estimator.Follows e.underWay
        (Estimator.block blocks bpm (blocks.outside e.underWay + 1 + more) name)
        (blockSeconds blocks bpm (blocks.outside e.underWay + 1 + other) e.underWay.toList name) := by
      have ended := Estimator.block_follows bpm (room more) (room other) name
      rwa [same] at ended
    refine ⟨_, _, fun limit exit ended => ?_, fun more => ⟨follows more 0 e.log, ?_⟩⟩
    · have larger : limit ≤ blocks.outside e.underWay + 1 + limit := by omega
      have again := Estimator.block_extends blocks bpm larger name e exit ended
      exact Option.some.inj (again.symm.trans (follows limit 0 e.log))
    · rw [(follows more more).unique (follows more 0)]
  · intro names log more
    exact Estimator.blocks_told blocks bpm (by omega) names log

end Estimate

end Partita
