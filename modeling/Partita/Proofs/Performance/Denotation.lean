import Mathlib.Data.List.Perm.Subperm
import Mathlib.Logic.Relation
import Partita.Proofs.Performance.Unroll

/-! What a piece comes to when it is read block by block, without runs that take
turns: a block is followed line by line, and the blocks that it plays are rendered
where it has come to. If no block plays itself, a depth as great as the number of
blocks is enough for all of them. -/
namespace Partita

open Score Relation

variable {α : Type}

/-- What playing a block comes to: where it ends, what sounds from which block, and
how many turns it takes, those of the blocks that it plays included. -/
structure Rendition (α : Type) where
  finish : α
  sounds : List (String × Event α)
  turns : Nat

def Rendition.after (r : Rendition α) (sounds : List (String × Event α)) (turns : Nat) : Rendition α :=
  ⟨r.finish, sounds ++ r.sounds, turns + r.turns⟩

@[simp] theorem Rendition.after_after (r : Rendition α) (a b : List (String × Event α)) (m n : Nat) :
    (r.after a m).after b n = r.after (b ++ a) (n + m) := by
  simp [Rendition.after, Nat.add_assoc]

def Rendition.turnsOf (rs : List (Rendition α)) : Nat := rs.foldr (fun r n => r.turns + n) 0

@[simp] theorem Rendition.turnsOf_nil : turnsOf ([] : List (Rendition α)) = 0 := rfl

@[simp] theorem Rendition.turnsOf_cons (r : Rendition α) (rs : List (Rendition α)) :
    turnsOf (r :: rs) = r.turns + turnsOf rs := rfl

@[simp] theorem Rendition.turnsOf_append (rs ss : List (Rendition α)) :
    turnsOf (rs ++ ss) = turnsOf rs + turnsOf ss := by
  induction rs with
  | nil => simp
  | cons r rest ih => simp [ih, Nat.add_assoc]

theorem Rendition.turnsOf_eq_zero {rs : List (Rendition α)} (each : ∀ r ∈ rs, r.turns = 0) : turnsOf rs = 0 := by
  induction rs with
  | nil => rfl
  | cons r rest ih =>
    obtain ⟨first, others⟩ := List.forall_mem_cons.mp each
    rw [turnsOf_cons, first, ih others]

/-- What is played: the blocks, the tempo and which samples there are. -/
structure Piece (α : Type) where
  blocks : Blocks
  bpm : α
  has : String → Bool

namespace Piece

variable [Scalar α]

def deed (piece : Piece α) (block : String) (position : α) (line : String) : Deed α :=
  ((Command.parse? line).map (·.deed piece.bpm piece.has block position)).getD .nothing

/-- What a deed of a block at a position comes to, given what the blocks come to that
it plays and what follows. Pauses are never negative, and after a play the block goes
on at the latest end. -/
def carry (piece : Piece α) (children : String → α → Rendition α) (block : String) (position : α)
    (onward : α → Rendition α) : Deed α → Rendition α
  | .pause seconds _ => (onward (position + Scalar.max 0 seconds)).after [] 2
  | .sound event => (onward position).after [(block, event)] 1
  | .play names =>
    let parts := (piece.blocks.cast names).map fun child => children child.1 position
    (onward (Scalar.maximum position (parts.map (·.finish)))).after (parts.flatMap (·.sounds))
      ((if parts.isEmpty then 1 else 2) + Rendition.turnsOf parts)
  | _ => (onward position).after [] 1

def follow (piece : Piece α) (children : String → α → Rendition α) (block : String) :
    α → List String → Rendition α
  | position, [] => ⟨position, [], 1⟩
  | position, line :: rest =>
    piece.carry children block position (piece.follow children block · rest) (piece.deed block position line)

/-- A block at a position, with plays up to a depth. -/
def render (piece : Piece α) : Nat → String → α → Rendition α
  | 0, _, position => ⟨position, [], 0⟩
  | depth + 1, name, position =>
    match piece.blocks.lines? name with
    | none => ⟨position, [], 0⟩
    | some lines =>
      (piece.follow (piece.render depth) name position (unrolled (fun line => [line]) lines)).after [] 1

/-- A block at a position. Where no block plays itself, a chain of plays is no longer
than there are blocks. -/
def renderAll (piece : Piece α) : String → α → Rendition α := piece.render piece.blocks.length

def rendition (piece : Piece α) : Rendition α := piece.renderAll mainName 0

end Piece

namespace Score

def Command.played (c : Command) : List String :=
  if c.verb = "play" then
    match c.args with
    | [] => []
    | "together" :: names => names
    | name :: _ => [name]
  else []

def Command.isUnsteady (c : Command) : Bool := ["bpm", "tempo", "waitforfinish"].contains c.verb

namespace Blocks

/-- A block plays another one that exists. -/
def Plays (blocks : Blocks) (a b : String) : Prop :=
  blocks.contains b = true ∧ ∃ lines, blocks.lines? a = some lines ∧
    ∃ line ∈ lines, ∃ c, Command.parse? line = some c ∧ b ∈ c.played

/-- The blocks that are played from the main block on, directly or through others. -/
def Reached (blocks : Blocks) (name : String) : Prop := ReflTransGen blocks.Plays mainName name

/-- No block that is reached plays itself, directly or through others. -/
def Acyclic (blocks : Blocks) : Prop := ∀ name, blocks.Reached name → ¬ TransGen blocks.Plays name name

def isSteady (blocks : Blocks) : Bool :=
  blocks.all fun block => block.2.all fun line => (Command.parse? line).all (!·.isUnsteady)

theorem mem_cast {blocks : Blocks} {names : List String} {child : String × List String} :
    child ∈ blocks.cast names ↔ child.1 ∈ names ∧ blocks.lines? child.1 = some child.2 := by
  unfold Blocks.cast
  rw [List.mem_filterMap]
  constructor
  · rintro ⟨name, listed, found⟩
    obtain ⟨lines, defined, rfl⟩ := Option.map_eq_some_iff.mp found
    exact ⟨listed, defined⟩
  · rintro ⟨listed, defined⟩
    exact ⟨child.1, listed, by rw [defined]; rfl⟩

theorem mem_of_lines? {blocks : Blocks} {name : String} {lines : List String}
    (found : blocks.lines? name = some lines) : (name, lines) ∈ blocks := by
  obtain ⟨before, after, split, -⟩ := List.lookup_eq_some_iff.mp found
  rw [split]
  simp

/-- Blocks that can be ranked so that each one plays lower ones only. -/
theorem Acyclic.of_rank {blocks : Blocks} (rank : String → Nat)
    (lower : ∀ entry ∈ blocks, ∀ line ∈ entry.2, ∀ c ∈ Command.parse? line, ∀ child ∈ c.played,
      rank child < rank entry.1) : blocks.Acyclic := by
  intro name _ cycle
  have descends {a b : String} (path : TransGen blocks.Plays a b) : rank b < rank a := by
    have step {a b : String} (edge : blocks.Plays a b) : rank b < rank a := by
      obtain ⟨-, lines, defined, line, member, c, parsed, named⟩ := edge
      exact lower _ (mem_of_lines? defined) line member c parsed b named
    induction path with
    | single edge => exact step edge
    | tail _ edge ih => exact Nat.lt_trans (step edge) ih
  exact Nat.lt_irrefl _ (descends cycle)

theorem mem_names {blocks : Blocks} {name : String} (found : blocks.contains name = true) :
    name ∈ blocks.map (·.1) := by
  obtain ⟨lines, defined⟩ := Option.isSome_iff_exists.mp found
  exact List.mem_map_of_mem (mem_of_lines? defined)

/-- Going down from a block to those that it plays, with the blocks on the way kept, a
depth that leaves room for every block not yet busy is never used up. -/
theorem Acyclic.descend {blocks : Blocks} (acyclic : blocks.Acyclic) {P : Nat → List String → String → Prop}
    (step : ∀ depth busy name, blocks.Reached name → blocks.contains name = true → name ∉ busy →
      (∀ child, blocks.Plays name child → P depth (name :: busy) child) → P (depth + 1) busy name)
    (depth : Nat) {busy : List String} {name : String} (distinct : busy.Nodup)
    (above : ∀ b ∈ busy, blocks.contains b = true ∧ TransGen blocks.Plays b name)
    (reached : blocks.Reached name) (found : blocks.contains name = true)
    (room : blocks.length ≤ depth + busy.length) : P depth busy name := by
  have other : name ∉ busy := fun member => acyclic name reached (above name member).2
  have distinct' : (name :: busy).Nodup := List.nodup_cons.mpr ⟨other, distinct⟩
  -- All the busy blocks and this one are among the blocks, which bounds their number.
  induction depth generalizing busy name with
  | zero =>
    have listed : name :: busy ⊆ blocks.map (·.1) := by
      intro b member
      rcases List.mem_cons.mp member with rfl | member
      · exact mem_names found
      · exact mem_names (above b member).1
    have bound := (List.subperm_of_subset distinct' listed).length_le
    simp only [List.length_cons, List.length_map] at bound
    omega
  | succ depth ih =>
    refine step depth busy name reached found other fun child edge => ?_
    have below : ∀ b ∈ name :: busy, blocks.contains b = true ∧ TransGen blocks.Plays b child := by
      intro b member
      rcases List.mem_cons.mp member with rfl | member
      · exact ⟨found, .single edge⟩
      · exact ⟨(above b member).1, (above b member).2.tail edge⟩
    have fresh : child ∉ name :: busy := fun member =>
      acyclic child (reached.tail edge) (below child member).2
    exact ih distinct' below (reached.tail edge) edge.1 (by simp only [List.length_cons]; omega) fresh
      (List.nodup_cons.mpr ⟨fresh, distinct'⟩)

end Blocks

/-- What holds of all that the lines give holds of all that comes of unrolling. -/
theorem segments_all {β : Type} {emit : String → List β} {P : β → Prop} {lines : List String}
    (each : ∀ line ∈ lines, ∀ x ∈ emit line, P x) :
    (∀ x ∈ (segments emit lines).1, P x) ∧ ∀ part ∈ (segments emit lines).2, ∀ x ∈ part, P x := by
  induction lines with
  | nil => simp [segments]
  | cons line rest ih =>
    obtain ⟨here, later⟩ := List.forall_mem_cons.mp each
    obtain ⟨inFirst, inOthers⟩ := ih later
    rcases cut : segments emit rest with ⟨first, others⟩
    rw [cut] at inFirst inOthers
    simp only [segments, cut]
    cases bracketOf line with
    | neither => exact ⟨List.forall_mem_append.mpr ⟨here, inFirst⟩, inOthers⟩
    | closes => exact ⟨here, List.forall_mem_cons.mpr ⟨inFirst, inOthers⟩⟩
    | opens passes =>
      cases others with
      | nil => exact ⟨List.forall_mem_append.mpr ⟨here, inFirst⟩, by simp⟩
      | cons next more =>
        obtain ⟨inNext, inMore⟩ := List.forall_mem_cons.mp inOthers
        have repeated : ∀ x ∈ (List.replicate (max 1 passes).toNat first).flatten, P x := by
          intro x member
          obtain ⟨part, listed, inside⟩ := List.mem_flatten.mp member
          exact inFirst x (List.eq_of_mem_replicate listed ▸ inside)
        refine ⟨List.forall_mem_append.mpr ⟨List.forall_mem_append.mpr ⟨here, repeated⟩, inNext⟩, inMore⟩

theorem owed_all {β : Type} {emit : String → List β} {P : β → Prop} {lines : List String}
    (each : ∀ line ∈ lines, ∀ x ∈ emit line, P x) (loops : List LoopFrame) {cut : List β × List (List β)}
    (inFirst : ∀ x ∈ cut.1, P x) (inOthers : ∀ part ∈ cut.2, ∀ x ∈ part, P x) :
    ∀ x ∈ owed emit lines cut loops, P x := by
  induction loops generalizing cut with
  | nil =>
    refine List.forall_mem_append.mpr ⟨inFirst, fun x member => ?_⟩
    obtain ⟨part, listed, inside⟩ := List.mem_flatten.mp member
    exact inOthers part listed x inside
  | cons frame rest ih =>
    obtain ⟨first, others⟩ := cut
    cases others with
    | nil => exact inFirst
    | cons next more =>
      obtain ⟨inNext, inMore⟩ := List.forall_mem_cons.mp inOthers
      have again := (segments_all fun line member => each line (List.drop_subset frame.body lines member)).1
      refine List.forall_mem_append.mpr ⟨List.forall_mem_append.mpr ⟨inFirst, fun x member => ?_⟩, ih inNext inMore⟩
      obtain ⟨part, listed, inside⟩ := List.mem_flatten.mp member
      exact again x (List.eq_of_mem_replicate listed ▸ inside)

theorem mem_of_mem_unrolled {line : String} {lines : List String}
    (there : line ∈ unrolled (fun line => [line]) lines) : line ∈ lines := by
  have each : ∀ l ∈ lines, ∀ x ∈ [l], x ∈ lines := by
    intro l member x same
    rwa [List.mem_singleton.mp same]
  obtain ⟨inFirst, inOthers⟩ := segments_all each
  rcases List.mem_append.mp there with first | later
  · exact inFirst line first
  · obtain ⟨part, listed, inside⟩ := List.mem_flatten.mp later
    exact inOthers part listed line inside

end Score

/-- What is ahead of a run are lines of its block. -/
theorem Run.mem_of_mem_ahead {r : Run α} {line : String} (ahead : line ∈ r.ahead fun line => [line]) :
    line ∈ r.lines.toList := by
  have each : ∀ l ∈ r.lines.toList, ∀ x ∈ [l], x ∈ r.lines.toList := by
    intro l member x same
    rwa [List.mem_singleton.mp same]
  obtain ⟨inFirst, inOthers⟩ := segments_all fun l member => each l (List.drop_subset r.cursor _ member)
  exact owed_all each r.loops inFirst inOthers line ahead

/-- Only a play command plays, and it plays what it names. -/
theorem Score.Command.deed_play {c : Command} [Scalar α] {bpm position : α} {has : String → Bool}
    {block : String} {names : List String} (plays : c.deed bpm has block position = .play names) :
    names = c.played := by
  unfold Command.deed at plays
  split at plays
  case h_4 verb =>
    simp only [Command.played, verb, if_true]
    split at plays <;> simp_all
  all_goals
    repeat' split at plays
    all_goals contradiction

namespace Piece

variable [Scalar α] {piece : Piece α}

theorem deed_some {block line : String} {position : α} {c : Command} (parsed : Command.parse? line = some c) :
    piece.deed block position line = c.deed piece.bpm piece.has block position := by
  simp [deed, parsed]

theorem deed_none {block line : String} {position : α} (parsed : Command.parse? line = none) :
    piece.deed block position line = .nothing := by
  simp [deed, parsed]

theorem plays_of_deed (piece : Piece α) {block line : String} {position : α} {names : List String} {lines : List String}
    {child : String × List String} (defined : piece.blocks.lines? block = some lines) (member : line ∈ lines)
    (plays : piece.deed block position line = .play names) (cast : child ∈ piece.blocks.cast names) :
    piece.blocks.Plays block child.1 := by
  obtain ⟨named, found⟩ := Blocks.mem_cast.mp cast
  cases parsed : Command.parse? line with
  | none => simp [deed_none parsed] at plays
  | some c =>
    rw [deed_some parsed] at plays
    refine ⟨by simp [Blocks.contains, found], lines, defined, line, member, c, parsed, ?_⟩
    rwa [← Command.deed_play plays]

/-- Following a block depends only on what the blocks come to that it plays. -/
theorem follow_congr {f g : String → α → Rendition α} {block : String} {defined : List String}
    (found : piece.blocks.lines? block = some defined)
    (same : ∀ child, piece.blocks.Plays block child → f child = g child) (position : α)
    {lines : List String} (within : ∀ line ∈ lines, line ∈ defined) :
    piece.follow f block position lines = piece.follow g block position lines := by
  induction lines generalizing position with
  | nil => rfl
  | cons line rest ih =>
    have onward : (piece.follow f block · rest) = (piece.follow g block · rest) := by
      funext position
      exact ih position fun l member => within l (List.mem_cons_of_mem _ member)
    rw [follow, follow, onward]
    cases deed : piece.deed block position line with
    | play names =>
      have parts : (piece.blocks.cast names).map (fun child => f child.1 position) =
          (piece.blocks.cast names).map (fun child => g child.1 position) := by
        refine List.map_congr_left fun child cast => ?_
        rw [same child.1 (plays_of_deed piece found (within line (List.mem_cons_self ..)) deed cast)]
      simp only [carry, parts]
    | _ => rfl

/-- A depth as great as the number of blocks is as good as any greater one. -/
theorem render_stable (acyclic : piece.blocks.Acyclic) {depth : Nat} {name : String}
    (reached : piece.blocks.Reached name) (found : piece.blocks.contains name = true)
    (room : piece.blocks.length ≤ depth) : piece.render depth name = piece.render (depth + 1) name := by
  refine acyclic.descend (P := fun depth _ name => piece.render depth name = piece.render (depth + 1) name)
    (fun depth _ name _ found _ same => ?_) depth List.nodup_nil (by simp) reached found (by simpa using room)
  funext position
  obtain ⟨lines, defined⟩ := Option.isSome_iff_exists.mp found
  have defined : piece.blocks.lines? name = some lines := defined
  simp only [render, defined]
  rw [follow_congr (g := piece.render (depth + 1)) defined same position fun line => mem_of_mem_unrolled]
  rfl

/-- If no block plays itself, what a block comes to is what following its lines comes
to, the blocks that it plays included. -/
theorem renderAll_eq (acyclic : piece.blocks.Acyclic) {name : String} {lines : List String}
    (reached : piece.blocks.Reached name) (found : piece.blocks.lines? name = some lines) (position : α) :
    piece.renderAll name position = (piece.follow piece.renderAll name position
      (unrolled (fun line => [line]) lines)).after [] 1 := by
  rw [renderAll, render_stable acyclic reached (by simp [Blocks.contains, found]) (Nat.le_refl _)]
  simp only [render, found]

end Piece

end Partita
