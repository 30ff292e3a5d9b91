import Mathlib.Algebra.Order.Group.Multiset
import Mathlib.Tactic.Abel
import Partita.Proofs.Score.Source

/-! What becomes of the headers of a script. Each of them opens a block, and of that block one
of four things is told in the end: its lines are in the map, or a notice says that they were
replaced, that they were abandoned, or that the block was left open. The names of the blocks
are balanced against the names of the headers from line to line. -/
namespace Partita.Score

open Text

instance (name line : String) : Decidable (IsHeader name line) := decidable_of_iff _ headerName?_eq_some_iff

theorem isSome_headerName?_iff {line : String} : (headerName? line).isSome = true ↔ ∃ name, IsHeader name line := by
  simp only [Option.isSome_iff_exists, headerName?_eq_some_iff]

instance (line : String) : Decidable (∃ name, IsHeader name line) := decidable_of_iff _ isSome_headerName?_iff

namespace Notice

/-- The block whose earlier definition a notice says was replaced. -/
def replaced? : Notice → Option String
  | redefined name => some name
  | _ => none

def abandoned? : Notice → Option String
  | abandoned name _ _ => some name
  | _ => none

def leftOpen? : Notice → Option String
  | unterminated name => some name
  | _ => none

end Notice

/-- The names on header lines. -/
def openings (ls : List String) : Multiset String := ↑(ls.filterMap headerName?)

def toldOf (fate : Notice → Option String) (notices : List Notice) : Multiset String := ↑(notices.filterMap fate)

theorem openings_append (ls ms : List String) : openings (ls ++ ms) = openings ls + openings ms := by
  rw [openings, List.filterMap_append, ← Multiset.coe_add]
  rfl

theorem toldOf_append (fate : Notice → Option String) (ns ms : List Notice) :
    toldOf fate (ns ++ ms) = toldOf fate ns + toldOf fate ms := by
  rw [toldOf, List.filterMap_append, ← Multiset.coe_add]
  rfl

def Blocks.keys (blocks : Blocks) : Multiset String := ↑(blocks.map Prod.fst)

theorem Blocks.keys_define (blocks : Blocks) (name : String) (lines : List String) :
    (blocks.define name lines).keys = if blocks.contains name then blocks.keys else blocks.keys + {name} := by
  rw [Blocks.keys, Blocks.names_define]
  split
  · rfl
  · exact (Multiset.coe_add ..).symm

namespace Reading

variable {r : Reading} {ls : List String}

/-- A significant line opens a block, closes the one that is open, or says nothing of names. -/
theorem line_cases (r : Reading) (number : Nat) (text : String) :
    (∃ name, headerName? text = some name ∧ (r.line number text).blocks = r.blocks ∧
      (r.line number text).current = some ⟨name, []⟩ ∧
      (r.line number text).notices = r.notices ++ r.current.toList.map (.abandoned ·.name name number)) ∨
    headerName? text = none ∧
      ((∃ b, r.current = some b ∧ r.line number text =
          ⟨r.blocks.define b.name b.reversed.reverse, none,
            r.notices ++ if r.blocks.contains b.name then [.redefined b.name] else []⟩) ∨
        (r.line number text).blocks = r.blocks ∧
          (r.line number text).current.map (·.name) = r.current.map (·.name) ∧
          (r.line number text).notices = r.notices) := by
  cases header : headerName? text with
  | some name =>
    refine .inl ⟨name, rfl, ?_⟩
    cases here : r.current <;> simp [Reading.line, header, here]
  | none =>
    refine .inr ⟨rfl, ?_⟩
    cases here : r.current with
    | none => exact .inr (by simp [Reading.line, header, here])
    | some b =>
      by_cases ends : endName? text = some b.name
      · refine .inl ⟨b, rfl, ?_⟩
        by_cases known : r.blocks.contains b.name = true
        · simp [Reading.line, header, here, ends, known]
        · simp [Reading.line, header, here, ends, known]
      · exact .inr (by simp [Reading.line, header, here, ends])

def opened (r : Reading) : Multiset String := ↑(r.current.map (·.name)).toList

/-- Every header so far has a block in the map, a notice, or the block that is open; and no
notice so far is of a block that was left open. -/
structure Balanced (ls : List String) (r : Reading) : Prop where
  names : openings ls =
    r.blocks.keys + toldOf Notice.replaced? r.notices + toldOf Notice.abandoned? r.notices + r.opened
  begun : ∀ n ∈ r.notices, n.leftOpen? = none

namespace Balanced

theorem empty : Balanced [] {} where
  names := rfl
  begun n member := by contradiction

theorem line (balanced : r.Balanced ls) (number : Nat) (text : String) :
    (r.line number text).Balanced (ls ++ [text]) := by
  obtain ⟨names, begun⟩ := balanced
  have idle (bs : Blocks) (ns : List Notice) : opened ⟨bs, none, ns⟩ = 0 := rfl
  rcases r.line_cases number text with ⟨name, header, blocks, current, notices⟩ |
      ⟨plain, ⟨b, here, closed⟩ | ⟨blocks, current, notices⟩⟩
  · -- The block that was open is told of as abandoned, and the new one takes its place.
    have replaced : toldOf Notice.replaced? (r.current.toList.map (.abandoned ·.name name number)) = 0 := by
      cases r.current <;> rfl
    have abandoned : toldOf Notice.abandoned? (r.current.toList.map (.abandoned ·.name name number)) = r.opened := by
      unfold opened
      cases r.current <;> rfl
    have opens : openings [text] = (r.line number text).opened := by simp [openings, opened, header, current]
    constructor
    · rw [openings_append, names, blocks, notices, toldOf_append, toldOf_append, replaced, abandoned, opens]
      abel
    · intro n member
      rw [notices, List.mem_append] at member
      rcases member with old | new
      · exact begun n old
      · obtain ⟨b, -, rfl⟩ := List.mem_map.mp new
        rfl
  · have opens : openings [text] = 0 := by simp [openings, plain]
    have was : r.opened = {b.name} := by simp [opened, here]
    rw [closed]
    -- A name that is in the map already does not come in again, but there is a notice.
    by_cases known : r.blocks.contains b.name = true
    · have replaced : toldOf Notice.replaced? [.redefined b.name] = {b.name} := rfl
      have abandoned : toldOf Notice.abandoned? [.redefined b.name] = 0 := rfl
      rw [if_pos known]
      constructor
      · rw [openings_append, names, opens, was, Blocks.keys_define, if_pos known, toldOf_append, toldOf_append,
          replaced, abandoned, idle]
        abel
      · intro n member
        rcases List.mem_append.mp member with old | new
        · exact begun n old
        · obtain rfl := List.mem_singleton.mp new
          rfl
    · rw [if_neg known, List.append_nil]
      constructor
      · rw [openings_append, names, opens, was, Blocks.keys_define, if_neg known, idle]
        abel
      · exact begun
  · have opens : openings [text] = 0 := by simp [openings, plain]
    have still : (r.line number text).opened = r.opened := by rw [opened, current, opened]
    constructor
    · rw [openings_append, names, opens, blocks, notices, still, add_zero]
    · rwa [notices]

theorem lines (balanced : r.Balanced ls) (number : Nat) (raws : List String) :
    (r.lines number raws).Balanced (ls ++ (raws.map trim).filter fun line => !isBlankOrComment line) := by
  induction raws generalizing r ls number with
  | nil => simpa [Reading.lines] using balanced
  | cons raw rest ih =>
    rw [Reading.lines, List.map_cons, List.filter_cons]
    cases passed : isBlankOrComment (trim raw) with
    | true => exact ih balanced (number + 1)
    | false => simpa using ih (balanced.line number (trim raw)) (number + 1)

/-- The end of a script tells of the block that is open. -/
theorem finish (balanced : r.Balanced ls) : openings ls = r.blocks.keys + toldOf Notice.replaced? r.finish +
    toldOf Notice.abandoned? r.finish + toldOf Notice.leftOpen? r.finish ∧
    toldOf Notice.leftOpen? r.finish = r.opened := by
  have begun : toldOf Notice.leftOpen? r.notices = 0 := by
    rw [toldOf, List.filterMap_eq_nil_iff.mpr fun n member => balanced.begun n member]
    rfl
  have last : r.finish = r.notices ++ (r.current.toList.map (.unterminated ·.name) ++ [.parsed r.blocks.length]) := by
    unfold Reading.finish
    cases r.current <;> simp
  have replaced : toldOf Notice.replaced? r.finish = toldOf Notice.replaced? r.notices := by
    rw [last, toldOf_append]
    cases r.current <;> exact add_zero _
  have abandoned : toldOf Notice.abandoned? r.finish = toldOf Notice.abandoned? r.notices := by
    rw [last, toldOf_append]
    cases r.current <;> exact add_zero _
  have leftOpen : toldOf Notice.leftOpen? r.finish = r.opened := by
    rw [last, toldOf_append, begun, zero_add, opened]
    cases r.current <;> rfl
  exact ⟨by rw [replaced, abandoned, leftOpen, balanced.names], leftOpen⟩

end Balanced

theorem card_opened (r : Reading) : r.opened.card ≤ 1 := by
  unfold opened
  cases r.current <;> simp

end Reading

/-- The names on the headers of a script are those of its map and those of which a notice
says that a definition was replaced, was abandoned or was left open. -/
theorem openings_read (code : String) : openings (significant code) = (blocksOf code).keys +
    toldOf Notice.replaced? (read code).2 + toldOf Notice.abandoned? (read code).2 +
      toldOf Notice.leftOpen? (read code).2 ∧ (toldOf Notice.leftOpen? (read code).2).card ≤ 1 := by
  have balanced := Reading.Balanced.empty.lines 1 (Text.lines code)
  obtain ⟨names, leftOpen⟩ := balanced.finish
  refine ⟨names, ?_⟩
  rw [read, leftOpen]
  exact Reading.card_opened _

theorem getLast?_read (code : String) : (read code).2.getLast? = some (.parsed (blocksOf code).length) :=
  List.getLast?_append_of_ne_nil _ (List.cons_ne_nil _ _)

section counts

variable (fate : Notice → Option String) (notices : List Notice) (ls : List String) (name : String)

theorem card_openings : (openings ls).card = ls.countP (∃ name, IsHeader name ·) := by
  rw [openings, Multiset.coe_card, List.length_filterMap_eq_countP]
  congr
  funext line
  rw [Bool.eq_iff_iff, decide_eq_true_iff]
  exact isSome_headerName?_iff

theorem count_openings : (openings ls).count name = ls.countP (IsHeader name ·) := by
  rw [openings, Multiset.coe_count, List.count_filterMap]
  congr
  funext line
  rw [Bool.eq_iff_iff, decide_eq_true_iff, beq_iff_eq]
  exact headerName?_eq_some_iff

theorem card_toldOf : (toldOf fate notices).card = notices.countP fun n => (fate n).isSome := by
  rw [toldOf, Multiset.coe_card, List.length_filterMap_eq_countP]

/-- A debug record is one of a definition that was replaced. -/
theorem countP_debug :
    (notices.map Notice.record).countP (·.severity = .debug) = notices.countP fun n => n.replaced?.isSome := by
  rw [List.countP_map]
  congr
  funext n
  cases n <;> rfl

/-- A warning is one of a block that was abandoned or of one that was left open. -/
theorem countP_warning : (notices.map Notice.record).countP (·.severity = .warning) =
    (notices.countP fun n => n.abandoned?.isSome) + notices.countP fun n => n.leftOpen?.isSome := by
  induction notices with
  | nil => rfl
  | cons n rest ih =>
    rw [List.map_cons, List.countP_cons, List.countP_cons, List.countP_cons, ih]
    cases n <;> simp [Notice.record, Notice.severity, Notice.abandoned?, Notice.leftOpen?] <;> omega

end counts

/-- No block disappears from a script without notice. There are as many headers as there are
names in the map and records of definitions that were replaced, abandoned or left open, of
which the last are no more than one; this holds also of the headers with any one name. The
last record tells how many names there are in the map. -/
theorem headers_accounted (code : String) :
    let blocks := blocksOf code
    let notices := (read code).2
    let records := notices.map Notice.record
    (significant code).countP (∃ name, IsHeader name ·) = (blocks.map Prod.fst).length +
      (notices.countP fun n => n.replaced?.isSome) + (notices.countP fun n => n.abandoned?.isSome) +
      (notices.countP fun n => n.leftOpen?.isSome) ∧
    (notices.countP fun n => n.leftOpen?.isSome) ≤ 1 ∧ (blocks.map Prod.fst).Nodup ∧
    (∀ name, (significant code).countP (IsHeader name ·) = (blocks.map Prod.fst).count name +
      (notices.filterMap Notice.replaced?).count name + (notices.filterMap Notice.abandoned?).count name +
      (notices.filterMap Notice.leftOpen?).count name) ∧
    records.countP (·.severity = .debug) = (notices.countP fun n => n.replaced?.isSome) ∧
    records.countP (·.severity = .warning) =
      (notices.countP fun n => n.abandoned?.isSome) + (notices.countP fun n => n.leftOpen?.isSome) ∧
    records.getLast? = some ⟨.info, "parser", s!"Parsed {(blocks.map Prod.fst).length} blocks"⟩ := by
  intro blocks notices records
  obtain ⟨names, single⟩ := openings_read code
  have size : blocks.keys.card = (blocks.map Prod.fst).length := Multiset.coe_card _
  refine ⟨?_, ?_, (blocksOf_neat code).1, ?_, countP_debug notices, countP_warning notices, ?_⟩
  · rw [← card_openings, names]
    simp only [Multiset.card_add, card_toldOf]
    rw [size]
  · rwa [← card_toldOf]
  · intro name
    rw [← count_openings, names]
    simp only [Multiset.count_add, Blocks.keys, toldOf, Multiset.coe_count, blocks, notices]
  · rw [List.getLast?_map, getLast?_read, List.length_map]
    rfl

/-- A definition that was replaced, one that was abandoned, and one that was left open. -/
example : (read "a:\na:\nend a\na:\nend a\nb:").2 =
    [.abandoned "a" "a" 2, .redefined "a", .unterminated "b", .parsed 1] := by
  decide +kernel

end Partita.Score
