import Partita.Proofs.Score.Grammar

/-! Block maps as scripts. A map that was read from any script is printed block by
block, and reading the print gives the map back. What makes this work is what a
reading can store: names, and lines that are trimmed, hold no line end, and are
neither headers nor the end of the block they are in. -/
namespace Partita.Score

open Text

def blockSource (name : String) (lines : List String) : String :=
  name ++ ":\n" ++ "\n".intercalate lines ++ "\nend " ++ name

def Blocks.source (blocks : Blocks) : String :=
  "\n".intercalate (blocks.map fun block => blockSource block.1 block.2)

def OneLine (line : String) : Prop := ∀ c ∈ line.toList, isLineEnd c = false

section trimming

variable {cs : List Char} {c : Char}

theorem skipBlank_eq_self (first : ∀ c, cs.head? = some c → isBlank c = false) : skipBlank cs = cs := by
  cases cs with
  | nil => rfl
  | cons c rest => rw [skipBlank, List.dropWhile_cons, first c rfl, if_neg Bool.false_ne_true]

theorem trimChars_eq_self (first : ∀ c, cs.head? = some c → isBlank c = false)
    (last : ∀ c, cs.getLast? = some c → isBlank c = false) : trimChars cs = cs := by
  have back : ∀ c, cs.reverse.head? = some c → isBlank c = false := by simpa using last
  rw [trimChars, skipBlank_eq_self first, skipBlank_eq_self back, List.reverse_reverse]

theorem getLast?_trimChars (last : (trimChars cs).getLast? = some c) : isBlank c = false := by
  rw [trimChars, List.getLast?_reverse] at last
  exact head_dropWhile c last

theorem head?_trimChars (first : (trimChars cs).head? = some c) : isBlank c = false := by
  rw [trimChars, List.head?_reverse] at first
  -- Dropping from one side leaves the last character of the other side where it is.
  obtain ⟨dropped, split⟩ : skipBlank (skipBlank cs).reverse <:+ (skipBlank cs).reverse := List.dropWhile_suffix _
  have kept : (skipBlank cs).reverse.getLast? = some c := by
    rw [← split, List.getLast?_append, first]
    rfl
  rw [List.getLast?_reverse] at kept
  exact head_dropWhile c kept

theorem mem_of_mem_trimChars (inside : c ∈ trimChars cs) : c ∈ cs := by
  rw [trimChars, List.mem_reverse] at inside
  have outer := (List.dropWhile_suffix isBlank).subset inside
  exact (List.dropWhile_suffix isBlank).subset (List.mem_reverse.mp outer)

theorem trim_eq_self {line : String} (first : ∀ c, line.toList.head? = some c → isBlank c = false)
    (last : ∀ c, line.toList.getLast? = some c → isBlank c = false) : trim line = line := by
  rw [trim, trimChars_eq_self first last, String.ofList_toList]

theorem trim_trim (line : String) : trim (trim line) = trim line := by
  apply trim_eq_self
  · intro c first
    rw [trim, String.toList_ofList] at first
    exact head?_trimChars first
  · intro c last
    rw [trim, String.toList_ofList] at last
    exact getLast?_trimChars last

end trimming

section splitting

theorem mem_linesFrom {current cs line : List Char} {begun : Bool}
    (open_ : ∀ c ∈ current, isLineEnd c = false) (listed : line ∈ linesFrom current begun cs) :
    ∀ c ∈ line, isLineEnd c = false := by
  fun_induction linesFrom current begun cs with
  | case1 current =>
    obtain rfl := List.mem_singleton.mp listed
    simpa using open_
  | case2 current => contradiction
  | case3 current begun rest ih =>
    rcases List.mem_cons.mp listed with rfl | later
    · simpa using open_
    · exact ih (by simp) later
  | case4 current begun c rest unpaired ends ih =>
    rcases List.mem_cons.mp listed with rfl | later
    · simpa using open_
    · exact ih (by simp) later
  | case5 current begun c rest unpaired inside ih =>
    refine ih ?_ listed
    intro d member
    rcases List.mem_cons.mp member with rfl | older
    · simpa using inside
    · exact open_ d older

theorem oneLine_of_mem_lines {code line : String} (listed : line ∈ Text.lines code) : OneLine line := by
  obtain ⟨chars, member, rfl⟩ := List.mem_map.mp listed
  intro c inside
  rw [String.toList_ofList] at inside
  exact mem_linesFrom (by simp) member c inside

theorem linesFrom_append {row : List Char} (whole : ∀ c ∈ row, isLineEnd c = false) (current : List Char)
    (begun : Bool) (rest : List Char) :
    linesFrom current begun (row ++ '\n' :: rest) = (current.reverse ++ row) :: linesFrom [] false rest := by
  induction row generalizing current begun with
  | nil =>
    have ends : isLineEnd '\n' = true := by decide
    simp [linesFrom, ends]
  | cons c row ih =>
    obtain ⟨inside, whole⟩ := List.forall_mem_cons.mp whole
    have single : c ≠ '\r' := by
      rintro rfl
      revert inside
      decide
    rw [List.cons_append, linesFrom, if_neg (by simp [inside]), ih whole]
    · simp
    · intro _ paired
      exact absurd paired single

theorem linesFrom_last {row : List Char} (whole : ∀ c ∈ row, isLineEnd c = false) (current : List Char)
    (begun : Bool) (some_ : begun = true ∨ row ≠ []) : linesFrom current begun row = [current.reverse ++ row] := by
  induction row generalizing current begun with
  | nil =>
    obtain rfl : begun = true := by simpa using some_
    simp [linesFrom]
  | cons c row ih =>
    obtain ⟨inside, whole⟩ := List.forall_mem_cons.mp whole
    have single : c ≠ '\r' := by
      rintro rfl
      revert inside
      decide
    rw [linesFrom, if_neg (by simp [inside]), ih whole _ _ (.inl rfl)]
    · simp
    · intro _ paired
      exact absurd paired single

/-- Lines joined by line feeds are read as they are, if the last one is not empty. -/
theorem lines_intercalate {rows : List String} (whole : ∀ row ∈ rows, OneLine row)
    (last : ∀ row, rows.getLast? = some row → row ≠ "") : Text.lines ("\n".intercalate rows) = rows := by
  induction rows with
  | nil => rfl
  | cons row rest ih =>
    obtain ⟨here, whole⟩ := List.forall_mem_cons.mp whole
    cases rest with
    | nil =>
      have spelled : row.toList ≠ [] := fun empty => last row rfl (String.ext empty)
      rw [String.intercalate_singleton, Text.lines, linesFrom_last here _ _ (.inr spelled)]
      simp
    | cons next rest =>
      have later := ih whole (by simpa using last)
      rw [Text.lines] at later
      rw [String.intercalate_cons_cons, Text.lines, String.toList_append, String.toList_append, List.append_assoc,
        show "\n".toList = ['\n'] from rfl, List.singleton_append, linesFrom_append here, List.map_cons, later]
      simp

end splitting

def IsName (name : String) : Prop := name ≠ "" ∧ ∀ c ∈ name.toList, isWord c = true

/-- A line as a block of a name stores it. -/
structure Stored (name line : String) : Prop where
  trimmed : trim line = line
  counts : isBlankOrComment line = false
  whole : OneLine line
  plain : headerName? line = none
  inside : endName? line ≠ some name

/-- A block all of whose lines can be stored. -/
def Storable (name : String) (lines : List String) : Prop := IsName name ∧ ∀ line ∈ lines, Stored name line

theorem Blocks.mem_define {blocks : Blocks} {name : String} {lines : List String} {entry : String × List String}
    (member : entry ∈ blocks.define name lines) : entry = (name, lines) ∨ entry ∈ blocks := by
  induction blocks with
  | nil => exact .inl (List.mem_singleton.mp member)
  | cons first rest ih =>
    obtain ⟨n, ls⟩ := first
    rw [define] at member
    split at member
    · rcases List.mem_cons.mp member with rfl | later
      · exact .inl rfl
      · exact .inr (List.mem_cons_of_mem _ later)
    · rcases List.mem_cons.mp member with rfl | later
      · exact .inr (List.mem_cons_self ..)
      · exact (ih later).imp id (List.mem_cons_of_mem _)

theorem Blocks.define_new {blocks : Blocks} {name : String} (new : name ∉ blocks.map Prod.fst) (lines : List String) :
    blocks.define name lines = blocks ++ [(name, lines)] := by
  induction blocks with
  | nil => rfl
  | cons first rest ih =>
    obtain ⟨n, ls⟩ := first
    rw [List.map_cons, List.mem_cons, not_or] at new
    have other : (n == name) = false := beq_false_of_ne (Ne.symm new.1)
    rw [define, other, if_neg Bool.false_ne_true, ih new.2, List.cons_append]

namespace Reading

/-- All that a reading holds can be stored, under names that differ. -/
structure Neat (r : Reading) : Prop where
  names : (r.blocks.map Prod.fst).Nodup
  blocks : ∀ entry ∈ r.blocks, Storable entry.1 entry.2
  current : ∀ block, r.current = some block → Storable block.name block.reversed

namespace Neat

variable {r : Reading} {text : String}

theorem empty : Neat {} where
  names := .nil
  blocks _ member := by contradiction
  current _ here := by contradiction

theorem define (neat : r.Neat) {name : String} {lines : List String} (storable : Storable name lines) :
    ((r.blocks.define name lines).map Prod.fst).Nodup ∧
      ∀ entry ∈ r.blocks.define name lines, Storable entry.1 entry.2 := by
  constructor
  · rw [Blocks.names_define]
    split
    · exact neat.names
    · rename_i absent
      refine List.nodup_append.mpr ⟨neat.names, by simp, ?_⟩
      rintro other listed same only rfl
      obtain rfl := List.mem_singleton.mp only
      exact absent (Blocks.contains_of_mem_names listed)
  · intro entry member
    rcases Blocks.mem_define member with rfl | old
    · exact storable
    · exact neat.blocks entry old

theorem line (neat : r.Neat) (number : Nat) (trimmed : trim text = text) (counts : isBlankOrComment text = false)
    (whole : OneLine text) : (r.line number text).Neat := by
  cases header : headerName? text with
  | some name =>
    obtain ⟨named, letters, -⟩ := headerName?_eq_some_iff.mp header
    simp only [Reading.line, header]
    refine ⟨neat.names, neat.blocks, ?_⟩
    intro block here
    obtain rfl := Option.some.inj here
    exact ⟨⟨named, letters⟩, by simp⟩
  | none =>
    cases here : r.current with
    | none =>
      simp only [Reading.line, header, here]
      exact neat
    | some block =>
      obtain ⟨named, stored⟩ := neat.current block here
      by_cases ends : endName? text = some block.name
      · simp only [Reading.line, header, here, ends, beq_self_eq_true, if_true]
        have storable : Storable block.name block.reversed.reverse := ⟨named, by simpa using stored⟩
        obtain ⟨names, blocks⟩ := neat.define storable
        exact ⟨names, blocks, by simp⟩
      · simp only [Reading.line, header, here, beq_iff_eq, ends, if_false]
        refine ⟨neat.names, neat.blocks, ?_⟩
        intro b found
        obtain rfl := Option.some.inj found
        exact ⟨named, List.forall_mem_cons.mpr ⟨⟨trimmed, counts, whole, header, ends⟩, stored⟩⟩

theorem lines (neat : r.Neat) (number : Nat) {raws : List String} (whole : ∀ raw ∈ raws, OneLine raw) :
    (r.lines number raws).Neat := by
  induction raws generalizing r number with
  | nil => exact neat
  | cons raw rest ih =>
    obtain ⟨here, whole⟩ := List.forall_mem_cons.mp whole
    simp only [Reading.lines]
    split
    · exact ih neat (number + 1) whole
    · rename_i counts
      refine ih (neat.line number (trim_trim raw) (Bool.eq_false_iff.mpr counts) ?_) (number + 1) whole
      intro c inside
      rw [trim, String.toList_ofList] at inside
      exact here c (mem_of_mem_trimChars inside)

end Neat

end Reading

theorem blocksOf_neat (code : String) : ((blocksOf code).map Prod.fst).Nodup ∧
    ∀ entry ∈ blocksOf code, Storable entry.1 entry.2 := by
  have whole : ∀ raw ∈ Text.lines code, OneLine raw := fun _ => oneLine_of_mem_lines
  have neat := Reading.Neat.empty.lines 1 whole
  exact ⟨neat.names, neat.blocks⟩

namespace Reading

variable {r : Reading}

theorem lines_counts (r : Reading) (number : Nat) {text : String} (trimmed : trim text = text)
    (counts : isBlankOrComment text = false) (rest : List String) :
    r.lines number (text :: rest) = (r.line number text).lines (number + 1) rest := by
  simp only [Reading.lines, trimmed, counts, Bool.false_eq_true, if_false]

theorem lines_blank (r : Reading) (number : Nat) (rest : List String) :
    r.lines number ("" :: rest) = r.lines (number + 1) rest := rfl

theorem lines_inside {block : OpenBlock} {lines : List String} (here : r.current = some block) (number : Nat)
    (stored : ∀ line ∈ lines, Stored block.name line) (rest : List String) :
    r.lines number (lines ++ rest) =
      { r with current := some ⟨block.name, lines.reverse ++ block.reversed⟩ : Reading }.lines
        (number + lines.length) rest := by
  induction lines generalizing r block number with
  | nil => simp [← here]
  | cons line lines ih =>
    obtain ⟨first, stored⟩ := List.forall_mem_cons.mp stored
    have step : r.line number line = { r with current := some ⟨block.name, line :: block.reversed⟩ } := by
      simp only [Reading.line, first.plain, here, beq_iff_eq, first.inside, if_false]
    rw [List.cons_append, lines_counts r number first.trimmed first.counts, step,
      @ih { r with current := some ⟨block.name, line :: block.reversed⟩ } _ rfl (number + 1) stored]
    simp [← Nat.add_assoc, Nat.add_right_comm]

end Reading

section spelling

variable {name : String}

theorem isBlank_of_isWord {c : Char} (word : isWord c = true) : isBlank c = false := by
  cases blank : isBlank c with
  | false => rfl
  | true => simp [isWord_of_isBlank blank] at word

theorem isLineEnd_of_isWord {c : Char} (word : isWord c = true) : isLineEnd c = false := by
  have apart := isBlank_of_isWord word
  simp only [isBlank, Bool.or_eq_false_iff, Bool.and_eq_false_iff, beq_eq_false_iff_ne,
    decide_eq_false_iff_not] at apart
  simp only [isLineEnd, Bool.or_eq_false_iff, Bool.and_eq_false_iff, beq_eq_false_iff_ne, decide_eq_false_iff_not]
  omega

theorem IsName.spelled (named : IsName name) : ∃ c cs, name.toList = c :: cs ∧ isWord c = true := by
  have some_ : name.toList ≠ [] := fun empty => named.1 (String.ext empty)
  obtain ⟨c, cs, chars⟩ := List.exists_cons_of_ne_nil some_
  exact ⟨c, cs, chars, named.2 c (by simp [chars])⟩

theorem IsName.header (named : IsName name) : trim (name ++ ":") = name ++ ":" ∧
    isBlankOrComment (name ++ ":") = false ∧ OneLine (name ++ ":") ∧ headerName? (name ++ ":") = some name := by
  obtain ⟨c, cs, chars, word⟩ := named.spelled
  have text : (name ++ ":").toList = c :: (cs ++ [':']) := by rw [String.toList_append, chars]; rfl
  have trimmed : trimChars (name ++ ":").toList = (name ++ ":").toList := by
    apply trimChars_eq_self
    · intro d first
      rw [text] at first
      obtain rfl := Option.some.inj first
      exact isBlank_of_isWord word
    · intro d last
      rw [text, ← List.cons_append, List.getLast?_concat] at last
      obtain rfl := Option.some.inj last
      decide
  refine ⟨by rw [trim, trimmed, String.ofList_toList], ?_, ?_, ?_⟩
  · have unslashed : c ≠ '/' := by
      rintro rfl
      revert word
      decide
    rw [isBlankOrComment, trimmed, text]
    simp [insignificant, commentMark, List.isPrefixOf, Ne.symm unslashed]
  · intro d member
    rw [String.toList_append, List.mem_append] at member
    rcases member with inside | colon
    · exact isLineEnd_of_isWord (named.2 d inside)
    · obtain rfl := List.mem_singleton.mp colon
      decide
  · exact headerName?_eq_some_iff.mpr ⟨named.1, named.2, [], by rw [String.toList_append]; rfl⟩

theorem IsName.ending (named : IsName name) : trim ("end " ++ name) = "end " ++ name ∧
    isBlankOrComment ("end " ++ name) = false ∧ OneLine ("end " ++ name) ∧
      headerName? ("end " ++ name) = none ∧ endName? ("end " ++ name) = some name := by
  have text : ("end " ++ name).toList = 'e' :: 'n' :: 'd' :: ' ' :: name.toList := by rw [String.toList_append]; rfl
  have trimmed : trimChars ("end " ++ name).toList = ("end " ++ name).toList := by
    apply trimChars_eq_self
    · intro d first
      rw [text] at first
      obtain rfl := Option.some.inj first
      decide
    · intro d last
      obtain ⟨c, cs, chars, -⟩ := named.spelled
      have inside : d ∈ name.toList := by
        apply List.mem_of_getLast?
        rw [chars]
        simpa [text, chars] using last
      exact isBlank_of_isWord (named.2 d inside)
  refine ⟨by rw [trim, trimmed, String.ofList_toList], ?_, ?_, ?_, ?_⟩
  · rw [isBlankOrComment, trimmed, text]
    rfl
  · intro d member
    rw [String.toList_append, List.mem_append] at member
    rcases member with keyword | inside
    · have spelled : d ∈ ['e', 'n', 'd', ' '] := keyword
      simp only [List.mem_cons, List.not_mem_nil, or_false] at spelled
      rcases spelled with rfl | rfl | rfl | rfl <;> rfl
    · exact isLineEnd_of_isWord (named.2 d inside)
  · have word : isWord 'e' = true ∧ isWord 'n' = true ∧ isWord 'd' = true ∧ isWord ' ' = false := by decide
    simp [headerName?, text, word]
  · have blank : ∀ c ∈ [' '], isBlank c = true := List.forall_mem_singleton.mpr (by decide)
    refine endName?_eq_some_iff.mpr ⟨named.1, named.2, [' '], [], by simp, blank, by simp, ?_⟩
    rw [text, List.append_nil]
    rfl

end spelling

/-- The lines of a printed block. One without lines is printed with an empty line. -/
def rows : String × List String → List String
  | (name, lines) => (name ++ ":") :: ((if lines = [] then [""] else lines) ++ ["end " ++ name])

theorem blockSource_eq (name : String) (lines : List String) :
    blockSource name lines = "\n".intercalate (rows (name, lines)) := by
  have some_ : (if lines = [] then [""] else lines) ≠ [] := by split <;> simp_all
  have joined : "\n".intercalate (if lines = [] then [""] else lines) = "\n".intercalate lines := by
    split <;> simp_all
  rw [rows, String.intercalate_cons_of_ne_nil (by simp), String.intercalate_append_of_ne_nil some_ (by simp), joined,
    String.intercalate_singleton, blockSource]
  simp [String.ext_iff]

theorem Blocks.source_eq (blocks : Blocks) : blocks.source = "\n".intercalate (blocks.flatMap rows) := by
  induction blocks with
  | nil => rfl
  | cons entry rest ih =>
    obtain ⟨name, lines⟩ := entry
    rw [source] at ih ⊢
    rw [List.map_cons, List.flatMap_cons, blockSource_eq]
    cases rest with
    | nil => simp
    | cons next rest =>
      rw [String.intercalate_cons_of_ne_nil (by simp), ih,
        String.intercalate_append_of_ne_nil (by simp [rows]) (by simp [rows])]

theorem Storable.oneLine {entry : String × List String} (storable : Storable entry.1 entry.2) :
    ∀ row ∈ rows entry, OneLine row := by
  obtain ⟨name, lines⟩ := entry
  obtain ⟨named, stored⟩ := storable
  intro row member
  rcases List.mem_cons.mp member with rfl | later
  · exact named.header.2.2.1
  · rcases List.mem_append.mp later with inside | last
    · split at inside
      · obtain rfl := List.mem_singleton.mp inside
        simp [OneLine]
      · exact (stored row inside).whole
    · obtain rfl := List.mem_singleton.mp last
      exact named.ending.2.2.1

theorem Blocks.lines_source {blocks : Blocks} (storable : ∀ entry ∈ blocks, Storable entry.1 entry.2) :
    Text.lines blocks.source = blocks.flatMap rows := by
  rw [source_eq]
  apply lines_intercalate
  · intro row member
    obtain ⟨entry, listed, inside⟩ := List.mem_flatMap.mp member
    exact (storable entry listed).oneLine row inside
  · intro row last
    -- The last line is the end of the last block.
    rcases List.eq_nil_or_concat blocks with rfl | ⟨front, ⟨name, lines⟩, rfl⟩
    · contradiction
    · have ending : row = "end " ++ name := by
        simpa [rows, List.getLast?_append, List.getLast?_cons] using last.symm
      rw [ending]
      simp [String.ext_iff]

namespace Reading

variable {r : Reading}

/-- Reading a printed block adds it to the map. -/
theorem lines_rows {name : String} {lines : List String} (storable : Storable name lines) (idle : r.current = none)
    (new : name ∉ r.blocks.map Prod.fst) (number : Nat) (rest : List String) :
    ∃ later, r.lines number (rows (name, lines) ++ rest) =
      { r with blocks := r.blocks ++ [(name, lines)] : Reading }.lines later rest := by
  obtain ⟨named, stored⟩ := storable
  obtain ⟨trimmed, counts, -, opens⟩ := named.header
  have opened : r.line number (name ++ ":") = { r with current := some ⟨name, []⟩ } := by
    simp only [Reading.line, opens, idle]
  rw [rows, List.cons_append, lines_counts r number trimmed counts, opened, List.append_assoc]
  -- An empty line in the place of no lines is passed over.
  obtain ⟨later, inside⟩ : ∃ later, { r with current := some ⟨name, []⟩ : Reading }.lines (number + 1)
      ((if lines = [] then [""] else lines) ++ (["end " ++ name] ++ rest)) =
        { r with current := some ⟨name, lines.reverse⟩ : Reading }.lines later (["end " ++ name] ++ rest) := by
    split
    · rename_i empty
      subst empty
      exact ⟨_, lines_blank _ _ _⟩
    · have here : { r with current := some ⟨name, []⟩ : Reading }.current = some ⟨name, []⟩ := rfl
      refine ⟨number + 1 + lines.length, (lines_inside here _ stored _).trans ?_⟩
      rw [List.append_nil]
  obtain ⟨trimmed, counts, -, plain, closes⟩ := named.ending
  have absent : r.blocks.contains name = false := by
    have names := @Blocks.names_define r.blocks name lines
    rw [Blocks.define_new new] at names
    cases listed : r.blocks.contains name with
    | false => rfl
    | true => simp [listed] at names
  have closed (number : Nat) : { r with current := some ⟨name, lines.reverse⟩ : Reading }.line number ("end " ++ name) =
      { r with blocks := r.blocks ++ [(name, lines)] } := by
    simp only [Reading.line, plain, closes, beq_self_eq_true, if_true, List.reverse_reverse, absent,
      Bool.false_eq_true, if_false, Blocks.define_new new, ← idle]
  exact ⟨later + 1, by rw [inside, List.singleton_append, lines_counts _ later trimmed counts, closed]⟩

theorem lines_source {blocks : Blocks} (storable : ∀ entry ∈ blocks, Storable entry.1 entry.2)
    (names : ((r.blocks ++ blocks).map Prod.fst).Nodup) (idle : r.current = none) (number : Nat) :
    r.lines number (blocks.flatMap rows) = { r with blocks := r.blocks ++ blocks } := by
  induction blocks generalizing r number with
  | nil => simp [Reading.lines]
  | cons entry rest ih =>
    obtain ⟨name, lines⟩ := entry
    obtain ⟨first, storable⟩ := List.forall_mem_cons.mp storable
    have new : name ∉ r.blocks.map Prod.fst := by
      rw [List.map_append, List.map_cons] at names
      intro listed
      exact (List.nodup_append.mp names).2.2 name listed name (List.mem_cons_self ..) rfl
    obtain ⟨later, added⟩ := lines_rows first idle new number (rest.flatMap rows)
    rw [List.flatMap_cons, added]
    rw [ih (r := { r with blocks := r.blocks ++ [(name, lines)] }) storable (by simpa using names) idle later]
    simp

end Reading

/-- Reading the print of a map that was read gives the map back, in the same order,
and nothing is abandoned, redefined or left open on the way. -/
theorem read_source (code : String) :
    read (blocksOf code).source = (blocksOf code, [.parsed (blocksOf code).length]) := by
  obtain ⟨names, storable⟩ := blocksOf_neat code
  have lines := Reading.lines_source (r := {}) storable (by simpa using names) rfl 1
  rw [read, Blocks.lines_source storable, lines]
  rfl
end Partita.Score
