import Partita.Score.Blocks

/-! The grammar of block maps, told without the reader: which lines are headers and
ends, which pairs of them enclose a block, and what the map of a script is by them.
The reader keeps to it from line to line, so that it holds of every script. -/
namespace Partita.Score

open Text

/-- A line that opens a block: its name, directly followed by a colon. -/
def IsHeader (name line : String) : Prop :=
  name ≠ "" ∧ (∀ c ∈ name.toList, isWord c = true) ∧ ∃ rest, line.toList = name.toList ++ ':' :: rest

/-- A line that closes a block: `end`, white space, and a name that goes on for as
long as characters of names do. -/
def IsEnd (name line : String) : Prop :=
  name ≠ "" ∧ (∀ c ∈ name.toList, isWord c = true) ∧ ∃ gap rest : List Char,
    gap ≠ [] ∧ (∀ c ∈ gap, isBlank c = true) ∧ (∀ c, rest.head? = some c → isWord c = false) ∧
      line.toList = 'e' :: 'n' :: 'd' :: (gap ++ (name.toList ++ rest))

/-- The lines of a script that count: trimmed, and neither empty nor a comment. -/
def significant (code : String) : List String :=
  ((Text.lines code).map trim).filter fun line => !isBlankOrComment line

/-- The header of a block at `i` and the first end of it after that at `j`, with no
other header between them. -/
structure Encloses (ls : List String) (name : String) (i j : Nat) : Prop where
  order : i < j
  opens : ∃ line, ls[i]? = some line ∧ IsHeader name line
  closes : ∃ line, ls[j]? = some line ∧ IsEnd name line ∧ ∀ other, ¬ IsHeader other line
  inside : ∀ k line, i < k → k < j → ls[k]? = some line → (∀ other, ¬ IsHeader other line) ∧ ¬ IsEnd name line

theorem Encloses.bound {ls : List String} {name : String} {i j : Nat} (encloses : Encloses ls name i j) :
    j < ls.length := by
  obtain ⟨_, there, -⟩ := encloses.closes
  exact (List.getElem?_eq_some_iff.mp there).1

section lines

variable {line name : String}

theorem span_eq {p : Char → Bool} {inside rest : List Char} (all : ∀ c ∈ inside, p c = true)
    (stops : ∀ c, rest.head? = some c → p c = false) :
    (inside ++ rest).takeWhile p = inside ∧ (inside ++ rest).dropWhile p = rest := by
  rw [List.takeWhile_append_of_pos all, List.dropWhile_append_of_pos all]
  cases rest with
  | nil => simp
  | cons c tail => simp [stops c rfl]

theorem head_dropWhile {p : Char → Bool} {cs : List Char} (c : Char)
    (first : (cs.dropWhile p).head? = some c) : p c = false := by
  have stopped := List.head?_dropWhile_not p cs
  rwa [first] at stopped

theorem isWord_of_isBlank {c : Char} (blank : isBlank c = true) : isWord c = false := by
  let blanks : List Nat := [0x20, 0x9, 0xA, 0xB, 0xC, 0xD, 0x1C, 0x1D, 0x1E, 0x1F, 0x85, 0xA0, 0x1680,
    0x2000, 0x2001, 0x2002, 0x2003, 0x2004, 0x2005, 0x2006, 0x2007, 0x2008, 0x2009, 0x200A, 0x2028,
    0x2029, 0x202F, 0x205F, 0x3000]
  have listed : c.toNat ∈ blanks := by
    simp only [isBlank, Bool.or_eq_true, Bool.and_eq_true, beq_iff_eq, decide_eq_true_eq] at blank
    simp only [blanks, List.mem_cons, List.not_mem_nil, or_false]
    omega
  have each : ∀ n ∈ blanks, isWord (Char.ofNat n) = false := by decide +kernel
  rw [← Char.ofNat_toNat c]
  exact each _ listed

theorem headerName?_eq_some_iff : headerName? line = some name ↔ IsHeader name line := by
  constructor
  · intro read
    have split := List.takeWhile_append_dropWhile (p := isWord) (l := line.toList)
    have all := List.all_eq_true.mp (List.all_takeWhile (p := isWord) (l := line.toList))
    simp only [headerName?] at read
    generalize line.toList.takeWhile isWord = word at read split all
    generalize line.toList.dropWhile isWord = after at read split
    cases word with
    | nil => simp at read
    | cons c cs =>
      cases after with
      | nil => simp at read
      | cons d rest =>
        by_cases colon : d = ':'
        · subst colon
          obtain rfl := Option.some.inj read
          exact ⟨by simp [String.ext_iff], by simpa using all, rest, by simpa using split.symm⟩
        · simp [colon] at read
  · rintro ⟨named, all, rest, shape⟩
    have stops : ∀ c, (':' :: rest).head? = some c → isWord c = false := by
      intro c first
      obtain rfl := Option.some.inj first
      decide +kernel
    obtain ⟨taken, dropped⟩ := span_eq all stops
    simp only [headerName?, shape, taken, dropped]
    have spelled : name.toList ≠ [] := fun empty => named (String.ext empty)
    obtain ⟨c, cs, chars⟩ := List.exists_cons_of_ne_nil spelled
    simp only [chars]
    rw [← chars, String.ofList_toList]

theorem endName?_eq_some_iff : endName? line = some name ↔ IsEnd name line := by
  constructor
  · intro read
    unfold endName? at read
    split at read
    · rename_i c rest chars
      split at read
      · rename_i blank
        dsimp only at read
        split at read
        · contradiction
        · rename_i spelled
          obtain rfl := Option.some.inj read
          have gap := List.takeWhile_append_dropWhile (p := isBlank) (l := rest)
          have word := List.takeWhile_append_dropWhile (p := isWord) (l := skipBlank rest)
          have blanks := List.all_eq_true.mp (List.all_takeWhile (p := isBlank) (l := rest))
          have letters := List.all_eq_true.mp (List.all_takeWhile (p := isWord) (l := skipBlank rest))
          refine ⟨?_, by simpa using letters, c :: rest.takeWhile isBlank,
            (skipBlank rest).dropWhile isWord, by simp, ?_, head_dropWhile, ?_⟩
          · simpa [String.ext_iff] using spelled
          · exact List.forall_mem_cons.mpr ⟨blank, blanks⟩
          · rw [String.toList_ofList, word, chars, List.cons_append, skipBlank, gap]
      · contradiction
    · contradiction
  · rintro ⟨named, all, gap, rest, wide, blanks, stops, shape⟩
    obtain ⟨c, blanked, rfl⟩ := List.exists_cons_of_ne_nil wide
    obtain ⟨blank, blanks⟩ := List.forall_mem_cons.mp blanks
    have spelled : name.toList ≠ [] := fun empty => named (String.ext empty)
    have begins : ∀ d, (name.toList ++ rest).head? = some d → isBlank d = false := by
      intro d first
      obtain ⟨e, es, chars⟩ := List.exists_cons_of_ne_nil spelled
      obtain rfl : e = d := by simpa [chars] using first
      have word := all e (by simp [chars])
      cases blank : isBlank e with
      | false => rfl
      | true => simp [isWord_of_isBlank blank] at word
    have skipped : skipBlank (blanked ++ (name.toList ++ rest)) = name.toList ++ rest := (span_eq blanks begins).2
    simp only [endName?, shape, List.cons_append, blank, if_true, skipped, (span_eq all stops).1]
    simp [spelled]

end lines

namespace Blocks

variable {blocks : Blocks} {name : String} {lines : List String}

theorem lines?_cons (n : String) (ls : List String) (rest : Blocks) (other : String) :
    lines? ((n, ls) :: rest) other = if other = n then some ls else rest.lines? other := by
  rw [lines?, List.lookup_cons]
  by_cases same : other = n
  · simp [same]
  · rw [beq_false_of_ne same, if_neg same]
    rfl

theorem lines?_define (other : String) :
    (blocks.define name lines).lines? other = if other = name then some lines else blocks.lines? other := by
  induction blocks with
  | nil => exact lines?_cons ..
  | cons entry rest ih =>
    obtain ⟨n, ls⟩ := entry
    simp only [define]
    by_cases here : n = name
    · subst here
      by_cases same : other = n <;> simp [lines?_cons, same]
    · by_cases same : other = n
      · subst same
        simp [lines?_cons, here]
      · simp [lines?_cons, here, same, ih]

theorem names_define : (blocks.define name lines).map Prod.fst =
    if blocks.contains name then blocks.map Prod.fst else blocks.map Prod.fst ++ [name] := by
  induction blocks with
  | nil => rfl
  | cons entry rest ih =>
    obtain ⟨n, ls⟩ := entry
    simp only [define, contains, lines?_cons] at ih ⊢
    by_cases here : n = name
    · subst here
      simp
    · simp only [beq_iff_eq, here, Ne.symm here, if_false, List.map_cons, ih]
      by_cases known : (lines? rest name).isSome = true <;> simp [known]

theorem contains_of_lines? (found : blocks.lines? name = some lines) : blocks.contains name = true := by
  rw [contains, found]
  rfl

theorem contains_of_mem_names (listed : name ∈ blocks.map Prod.fst) : blocks.contains name = true := by
  induction blocks with
  | nil => contradiction
  | cons entry rest ih =>
    obtain ⟨n, ls⟩ := entry
    rw [contains, lines?_cons]
    split
    · rfl
    · rename_i other
      exact ih (by simpa [other] using listed)

end Blocks

/-- The header at `i` has opened a block, and nothing has closed or abandoned it. -/
structure Opened (ls : List String) (name : String) (i : Nat) : Prop where
  opens : ∃ line, ls[i]? = some line ∧ IsHeader name line
  after : ∀ k line, i < k → ls[k]? = some line → (∀ other, ¬ IsHeader other line) ∧ ¬ IsEnd name line

section append

variable {ls : List String} {text name : String} {i j : Nat}

theorem getElem?_snoc {k : Nat} {line : String} : (ls ++ [text])[k]? = some line ↔
    ls[k]? = some line ∨ k = ls.length ∧ text = line := by
  rw [List.getElem?_append]
  by_cases within : k < ls.length
  · simp [within, Nat.ne_of_lt within]
  · have last : k - ls.length = 0 ↔ k = ls.length := by omega
    simp [within, List.getElem?_singleton, last]

theorem lt_of_getElem? {k : Nat} {line : String} (there : ls[k]? = some line) : k < ls.length :=
  (List.getElem?_eq_some_iff.mp there).1

/-- A line more closes the block that is open, or none. -/
theorem encloses_snoc : Encloses (ls ++ [text]) name i j ↔ Encloses ls name i j ∨
    j = ls.length ∧ Opened ls name i ∧ IsEnd name text ∧ ∀ other, ¬ IsHeader other text := by
  constructor
  · rintro ⟨order, ⟨header, found, opens⟩, ⟨ending, there, closes⟩, inside⟩
    have before {k : Nat} {line : String} (there : ls[k]? = some line) : (ls ++ [text])[k]? = some line :=
      getElem?_snoc.mpr (.inl there)
    have bound : j ≤ ls.length := by
      have := lt_of_getElem? there
      simp only [List.length_append, List.length_singleton] at this
      omega
    have opened : ls[i]? = some header := by
      rcases getElem?_snoc.mp found with old | ⟨last, -⟩
      · exact old
      · omega
    rcases getElem?_snoc.mp there with old | ⟨last, rfl⟩
    · exact .inl ⟨order, ⟨header, opened, opens⟩, ⟨ending, old, closes⟩,
        fun k line later earlier listed => inside k line later earlier (before listed)⟩
    · refine .inr ⟨last, ⟨⟨header, opened, opens⟩, fun k line later listed => ?_⟩, closes⟩
      have := lt_of_getElem? listed
      exact inside k line later (by omega) (before listed)
  · rintro (⟨order, ⟨header, found, opens⟩, ⟨ending, there, closes⟩, inside⟩ | ⟨rfl, ⟨opens, after⟩, closes⟩)
    · refine ⟨order, ⟨header, getElem?_snoc.mpr (.inl found), opens⟩,
        ⟨ending, getElem?_snoc.mpr (.inl there), closes⟩, fun k line later earlier listed => ?_⟩
      have := lt_of_getElem? there
      rcases getElem?_snoc.mp listed with old | ⟨last, -⟩
      · exact inside k line later earlier old
      · omega
    · obtain ⟨header, found, opens⟩ := opens
      refine ⟨lt_of_getElem? found, ⟨header, getElem?_snoc.mpr (.inl found), opens⟩,
        ⟨text, getElem?_snoc.mpr (.inr ⟨rfl, rfl⟩), closes⟩, fun k line later earlier listed => ?_⟩
      rcases getElem?_snoc.mp listed with old | ⟨last, -⟩
      · exact after k line later old
      · omega

/-- A line more opens a block, or leaves the one that is open as it is. -/
theorem opened_snoc : Opened (ls ++ [text]) name i ↔ i = ls.length ∧ IsHeader name text ∨
    Opened ls name i ∧ (∀ other, ¬ IsHeader other text) ∧ ¬ IsEnd name text := by
  constructor
  · rintro ⟨⟨header, found, opens⟩, after⟩
    rcases getElem?_snoc.mp found with old | ⟨last, rfl⟩
    · refine .inr ⟨⟨⟨header, old, opens⟩, fun k line later listed => ?_⟩, ?_⟩
      · exact after k line later (getElem?_snoc.mpr (.inl listed))
      · exact after ls.length text (lt_of_getElem? old) (getElem?_snoc.mpr (.inr ⟨rfl, rfl⟩))
    · exact .inl ⟨last, opens⟩
  · rintro (⟨rfl, opens⟩ | ⟨⟨⟨header, found, opens⟩, after⟩, plain⟩)
    · refine ⟨⟨text, getElem?_snoc.mpr (.inr ⟨rfl, rfl⟩), opens⟩, fun k line later listed => ?_⟩
      rcases getElem?_snoc.mp listed with old | ⟨last, -⟩
      · have := lt_of_getElem? old
        omega
      · omega
    · refine ⟨⟨header, getElem?_snoc.mpr (.inl found), opens⟩, fun k line later listed => ?_⟩
      rcases getElem?_snoc.mp listed with old | ⟨-, rfl⟩
      · exact after k line later old
      · exact plain

end append

/-- What reading some lines that count has come to: the block that is open, and the
map of the blocks that were closed. -/
structure Reading.Meets (ls : List String) (r : Reading) : Prop where
  opened : ∀ name i, Opened ls name i → r.current = some ⟨name, (ls.drop (i + 1)).reverse⟩
  current : ∀ block, r.current = some block → ∃ i, Opened ls block.name i
  names : ∀ name, r.blocks.contains name = true ↔ ∃ i j, Encloses ls name i j
  values : ∀ name i j, Encloses ls name i j → (∀ i' j', Encloses ls name i' j' → j' ≤ j) →
    r.blocks.lines? name = some ((ls.take j).drop (i + 1))
  order : (r.blocks.map Prod.fst).Pairwise fun a b =>
    ∃ i j, Encloses ls a i j ∧ ∀ i' j', Encloses ls b i' j' → j < j'

namespace Reading.Meets

variable {ls : List String} {r : Reading} {text : String}

theorem empty : Meets [] {} where
  opened name i opened := by
    obtain ⟨_, found, -⟩ := opened.opens
    simp at found
  current block here := by contradiction
  names name := by
    constructor
    · intro listed
      contradiction
    · rintro ⟨i, j, encloses⟩
      obtain ⟨_, found, -⟩ := encloses.opens
      simp at found
  values name i j encloses := by
    obtain ⟨_, found, -⟩ := encloses.opens
    simp at found
  order := .nil

theorem unclosed {s : Reading} (meets : r.Meets ls) (blocks : s.blocks = r.blocks)
    (keeps : ∀ name i j, Encloses (ls ++ [text]) name i j ↔ Encloses ls name i j)
    (opened : ∀ name i, Opened (ls ++ [text]) name i →
      s.current = some ⟨name, ((ls ++ [text]).drop (i + 1)).reverse⟩)
    (current : ∀ block, s.current = some block → ∃ i, Opened (ls ++ [text]) block.name i) :
    s.Meets (ls ++ [text]) where
  opened := opened
  current := current
  names name := by simp only [blocks, meets.names, keeps]
  values name i j encloses last := by
    rw [keeps] at encloses
    rw [blocks, meets.values name i j encloses fun i' j' other => last i' j' ((keeps ..).mpr other),
      List.take_append_of_le_length (Nat.le_of_lt encloses.bound)]
  order := by simpa only [blocks, keeps] using meets.order

/-- A block that is open holds the lines after its header. -/
theorem body {block : OpenBlock} (meets : r.Meets ls) (here : r.current = some block) {name : String} {i : Nat}
    (opened : Opened ls name i) : block = ⟨name, (ls.drop (i + 1)).reverse⟩ :=
  Option.some.inj (here.symm.trans (meets.opened name i opened))

theorem headed {s : Reading} {name : String} (meets : r.Meets ls) (opens : IsHeader name text)
    (blocks : s.blocks = r.blocks) (current : s.current = some ⟨name, []⟩) : s.Meets (ls ++ [text]) := by
  refine meets.unclosed blocks (fun n i j => ?_) (fun n i opened => ?_) fun block here => ?_
  · rw [encloses_snoc]
    exact or_iff_left fun closed => closed.2.2.2 name opens
  · rcases opened_snoc.mp opened with ⟨rfl, again⟩ | ⟨-, plain, -⟩
    · obtain rfl := Option.some.inj ((headerName?_eq_some_iff.mpr opens).symm.trans (headerName?_eq_some_iff.mpr again))
      simp [current]
    · exact absurd opens (plain name)
  · obtain rfl := Option.some.inj (current.symm.trans here)
    exact ⟨ls.length, opened_snoc.mpr (.inl ⟨rfl, opens⟩)⟩

/-- A line outside of all blocks is passed over. -/
theorem passed (meets : r.Meets ls) (idle : r.current = none) (plain : ∀ other, ¬ IsHeader other text) :
    r.Meets (ls ++ [text]) := by
  have never (n : String) (i : Nat) : ¬ Opened ls n i := by
    intro opened
    simpa [idle] using meets.opened n i opened
  refine meets.unclosed rfl (fun n i j => ?_) (fun n i opened => ?_) (by simp [idle])
  · rw [encloses_snoc]
    exact or_iff_left fun closed => never n i closed.2.1
  · rcases opened_snoc.mp opened with ⟨-, opens⟩ | ⟨opened, -⟩
    · exact absurd opens (plain n)
    · exact absurd opened (never n i)

theorem extended {s : Reading} {block : OpenBlock} (meets : r.Meets ls) (here : r.current = some block)
    (goes : ¬ IsEnd block.name text) (plain : ∀ other, ¬ IsHeader other text) (blocks : s.blocks = r.blocks)
    (current : s.current = some { block with reversed := text :: block.reversed }) : s.Meets (ls ++ [text]) := by
  refine meets.unclosed blocks (fun n i j => ?_) (fun n i opened => ?_) fun b found => ?_
  · rw [encloses_snoc]
    refine or_iff_left ?_
    rintro ⟨-, opened, closes, -⟩
    rw [meets.body here opened] at goes
    contradiction
  · rcases opened_snoc.mp opened with ⟨-, opens⟩ | ⟨opened, -⟩
    · exact absurd opens (plain n)
    · obtain ⟨_, there, -⟩ := opened.opens
      rw [current, meets.body here opened, List.drop_append_of_le_length (lt_of_getElem? there)]
      simp
  · obtain rfl := Option.some.inj (current.symm.trans found)
    obtain ⟨i, opened⟩ := meets.current block here
    exact ⟨i, opened_snoc.mpr (.inr ⟨opened, plain, goes⟩)⟩

/-- An end of the block that is open encloses nothing else. -/
theorem encloses_other {block : OpenBlock} (meets : r.Meets ls) (here : r.current = some block) {name : String}
    {i j : Nat} (other : name ≠ block.name) : Encloses (ls ++ [text]) name i j ↔ Encloses ls name i j := by
  rw [encloses_snoc]
  refine or_iff_left ?_
  rintro ⟨-, opened, -⟩
  rw [meets.body here opened] at other
  contradiction

theorem closed {s : Reading} {block : OpenBlock} (meets : r.Meets ls) (here : r.current = some block)
    (closes : IsEnd block.name text) (plain : ∀ other, ¬ IsHeader other text)
    (blocks : s.blocks = r.blocks.define block.name block.reversed.reverse) (none : s.current = none) :
    s.Meets (ls ++ [text]) := by
  obtain ⟨start, opened⟩ := meets.current block here
  have new : Encloses (ls ++ [text]) block.name start ls.length :=
    encloses_snoc.mpr (.inr ⟨rfl, opened, closes, plain⟩)
  have keeps {name : String} {i j : Nat} (other : name ≠ block.name) :
      Encloses (ls ++ [text]) name i j ↔ Encloses ls name i j := meets.encloses_other here other
  -- A block is closed after all those that were closed already.
  have later {a b : String} (before : ∃ i j, Encloses ls a i j ∧ ∀ i' j', Encloses ls b i' j' → j < j') :
      ∃ i j, Encloses (ls ++ [text]) a i j ∧ ∀ i' j', Encloses (ls ++ [text]) b i' j' → j < j' := by
    obtain ⟨i, j, first, rest⟩ := before
    refine ⟨i, j, encloses_snoc.mpr (.inl first), fun i' j' second => ?_⟩
    rcases encloses_snoc.mp second with old | ⟨rfl, -⟩
    · exact rest i' j' old
    · exact first.bound
  refine ⟨fun name i opened => ?_, by simp [none], fun name => ?_, fun name i j encloses last => ?_, ?_⟩
  · rcases opened_snoc.mp opened with ⟨-, header⟩ | ⟨opened, -, still⟩
    · exact absurd header (plain name)
    · rw [meets.body here opened] at closes
      contradiction
  · rw [blocks, Blocks.contains, Blocks.lines?_define]
    by_cases this : name = block.name
    · subst this
      simpa using ⟨start, ls.length, new⟩
    · simp only [this, if_false, keeps this]
      exact meets.names name
  · rw [blocks, Blocks.lines?_define]
    by_cases this : name = block.name
    · subst this
      rcases encloses_snoc.mp encloses with old | ⟨rfl, opened, -⟩
      · have := old.bound
        have := last _ _ new
        omega
      · simp only [if_true, List.take_left']
        rw [meets.body here opened]
        simp
    · rw [keeps this] at encloses
      rw [if_neg this, meets.values name i j encloses fun i' j' other => last i' j' ((keeps this).mpr other),
        List.take_append_of_le_length (Nat.le_of_lt encloses.bound)]
  · rw [blocks, Blocks.names_define]
    split
    · exact meets.order.imp later
    · rename_i absent
      refine List.pairwise_append.mpr ⟨meets.order.imp later, List.pairwise_singleton .., ?_⟩
      intro a listed b here
      obtain rfl := List.mem_singleton.mp here
      obtain ⟨i, j, encloses⟩ := (meets.names a).mp (Blocks.contains_of_mem_names listed)
      exact later ⟨i, j, encloses, fun i' j' other => absurd ((meets.names _).mpr ⟨i', j', other⟩) absent⟩

/-- Reading a line that counts keeps to the grammar. -/
theorem line (number : Nat) (meets : r.Meets ls) : (r.line number text).Meets (ls ++ [text]) := by
  cases header : headerName? text with
  | some name =>
    exact meets.headed (headerName?_eq_some_iff.mp header) (by simp only [Reading.line, header])
      (by simp only [Reading.line, header])
  | none =>
    have plain (other : String) : ¬ IsHeader other text := by
      rw [← headerName?_eq_some_iff, header]
      simp
    cases here : r.current with
    | none =>
      have same : r.line number text = r := by simp only [Reading.line, header, here]
      rw [same]
      exact meets.passed here plain
    | some block =>
      by_cases ends : endName? text = some block.name
      · exact meets.closed here (endName?_eq_some_iff.mp ends) plain (by simp [Reading.line, header, here, ends])
          (by simp [Reading.line, header, here, ends])
      · exact meets.extended here (mt endName?_eq_some_iff.mpr ends) plain (by simp [Reading.line, header, here, ends])
          (by simp [Reading.line, header, here, ends])

theorem lines (number : Nat) (raws : List String) (meets : r.Meets ls) :
    (r.lines number raws).Meets (ls ++ (raws.map trim).filter fun line => !isBlankOrComment line) := by
  induction raws generalizing r ls number with
  | nil => simpa [Reading.lines] using meets
  | cons raw rest ih =>
    rw [Reading.lines, List.map_cons, List.filter_cons]
    cases passed : isBlankOrComment (trim raw) with
    | true => exact ih (number + 1) meets
    | false => simpa using ih (number + 1) (meets.line number)

end Reading.Meets

/-- The map of a script is what the grammar says: its names are those that some pair
of lines encloses, each with the lines inside the last such pair, in the order in
which they were first closed. -/
theorem blocksOf_grammar (code : String) :
    (∀ name, (blocksOf code).contains name = true ↔ ∃ i j, Encloses (significant code) name i j) ∧
    (∀ name i j, Encloses (significant code) name i j →
      (∀ i' j', Encloses (significant code) name i' j' → j' ≤ j) →
        (blocksOf code).lines? name = some (((significant code).take j).drop (i + 1))) ∧
    ((blocksOf code).map Prod.fst).Pairwise fun a b =>
      ∃ i j, Encloses (significant code) a i j ∧ ∀ i' j', Encloses (significant code) b i' j' → j < j' := by
  have meets := Reading.Meets.empty.lines 1 (Text.lines code)
  exact ⟨meets.names, meets.values, meets.order⟩

end Partita.Score
