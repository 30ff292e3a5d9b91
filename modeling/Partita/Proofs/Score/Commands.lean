import Mathlib.Data.List.Basic
import Mathlib.Data.List.TakeWhile
import Partita.Proofs.Score.Source

/-! Commands and the lines they stand on. Words are cut at any character that is trimmed, so
that trimming changes no word and the words of a line, joined by spaces, are cut the same way
again. Whether a line is a comment is told by its first word. A line holds a command exactly if
it counts, and so every line that a reading stores is that of a command. -/
namespace Partita

namespace Text

variable {cs : List Char}

/-- Words end at white space. -/
theorem wordsFrom_blank {b : Char} (blank : isBlank b = true) (current cs rest : List Char) :
    wordsFrom current (cs ++ b :: rest) = wordsFrom current cs ++ wordsFrom [] rest := by
  induction cs generalizing current with
  | nil =>
    rw [List.nil_append, wordsFrom.eq_2, if_pos blank, wordsFrom.eq_1]
    split <;> rfl
  | cons c cs ih =>
    rw [List.cons_append, wordsFrom, wordsFrom]
    split
    · split
      · exact ih []
      · rw [ih [], List.cons_append]
    · exact ih (c :: current)

theorem wordsFrom_solid {current token : List Char} (solid : ∀ c ∈ token, isBlank c = false)
    (some : current ≠ [] ∨ token ≠ []) : wordsFrom current token = [current.reverse ++ token] := by
  induction token generalizing current with
  | nil => simpa [wordsFrom] using some
  | cons c rest ih =>
    obtain ⟨here, later⟩ := List.forall_mem_cons.mp solid
    rw [wordsFrom, here, if_neg (by simp), ih later (.inl (by simp))]
    simp

/-- White space before a text belongs to no word. -/
theorem wordsFrom_skip (blank : ∀ c ∈ cs, isBlank c = true) (rest : List Char) :
    wordsFrom [] (cs ++ rest) = wordsFrom [] rest := by
  induction cs with
  | nil => rfl
  | cons c cs ih =>
    obtain ⟨here, later⟩ := List.forall_mem_cons.mp blank
    rw [List.cons_append, wordsFrom, if_pos here, if_pos List.isEmpty_nil, ih later]

/-- The first word goes up to the first white space. -/
theorem wordsFrom_eq_cons (begins : cs.takeWhile (!isBlank ·) ≠ []) : wordsFrom [] cs =
    cs.takeWhile (!isBlank ·) :: wordsFrom [] (cs.dropWhile (!isBlank ·)) := by
  have split := List.takeWhile_append_dropWhile (p := (!isBlank ·)) (l := cs)
  have solid : ∀ c ∈ cs.takeWhile (!isBlank ·), isBlank c = false := by
    intro c inside
    simpa using List.mem_takeWhile_imp inside
  have first : wordsFrom [] (cs.takeWhile (!isBlank ·)) = [cs.takeWhile (!isBlank ·)] :=
    wordsFrom_solid solid (.inr begins)
  cases after : cs.dropWhile (!isBlank ·) with
  | nil =>
    rw [after, List.append_nil] at split
    rwa [split] at first ⊢
  | cons b rest =>
    have blank : isBlank b = true := by simpa [after] using List.head?_dropWhile_not (!isBlank ·) cs
    have skipped := wordsFrom_skip (List.forall_mem_singleton.mpr blank) rest
    rw [List.singleton_append] at skipped
    rw [after] at split
    calc wordsFrom [] cs
        = wordsFrom [] (cs.takeWhile (!isBlank ·) ++ b :: rest) := by rw [split]
      _ = wordsFrom [] (cs.takeWhile (!isBlank ·)) ++ wordsFrom [] rest := wordsFrom_blank blank ..
      _ = cs.takeWhile (!isBlank ·) :: wordsFrom [] (b :: rest) := by rw [first, skipped, List.singleton_append]

theorem mem_wordsFrom {current word : List Char} (open_ : ∀ c ∈ current, isBlank c = false)
    (listed : word ∈ wordsFrom current cs) : word ≠ [] ∧ ∀ c ∈ word, isBlank c = false := by
  induction cs generalizing current with
  | nil =>
    rw [wordsFrom] at listed
    split at listed
    · contradiction
    · obtain rfl := List.mem_singleton.mp listed
      simp_all
  | cons c rest ih =>
    rw [wordsFrom] at listed
    split at listed
    · split at listed
      · exact ih (by simp) listed
      · rcases List.mem_cons.mp listed with rfl | later
        · simp_all
        · exact ih (by simp) later
    · rename_i solid
      refine ih ?_ listed
      exact List.forall_mem_cons.mpr ⟨by simpa using solid, open_⟩

/-- What is trimmed off is white space. -/
theorem trimChars_between (cs : List Char) : ∃ before after : List Char,
    (∀ c ∈ before, isBlank c = true) ∧ (∀ c ∈ after, isBlank c = true) ∧
      cs = before ++ (trimChars cs ++ after) := by
  refine ⟨cs.takeWhile isBlank, ((skipBlank cs).reverse.takeWhile isBlank).reverse,
    fun c inside => List.mem_takeWhile_imp inside,
    fun c inside => List.mem_takeWhile_imp (List.mem_reverse.mp inside), ?_⟩
  have whole : (skipBlank cs).reverse.takeWhile isBlank ++ skipBlank (skipBlank cs).reverse =
      (skipBlank cs).reverse := List.takeWhile_append_dropWhile
  rw [trimChars, ← List.reverse_append, whole, List.reverse_reverse]
  exact List.takeWhile_append_dropWhile.symm

/-- Trimming changes no word. -/
theorem words_trim (s : String) : words (trim s) = words s := by
  obtain ⟨before, after, front, back, split⟩ := trimChars_between s.toList
  have kept : wordsFrom [] (trimChars s.toList ++ after) = wordsFrom [] (trimChars s.toList) := by
    cases after with
    | nil => rw [List.append_nil]
    | cons b rest =>
      obtain ⟨blank, blanks⟩ := List.forall_mem_cons.mp back
      have none := wordsFrom_skip blanks []
      rw [List.append_nil] at none
      rw [wordsFrom_blank blank, none]
      exact List.append_nil _
  have same : wordsFrom [] s.toList = wordsFrom [] (trimChars s.toList) :=
    calc wordsFrom [] s.toList
        = wordsFrom [] (before ++ (trimChars s.toList ++ after)) := congrArg _ split
      _ = wordsFrom [] (trimChars s.toList ++ after) := wordsFrom_skip front _
      _ = wordsFrom [] (trimChars s.toList) := kept
  rw [words, words, trim, String.toList_ofList, same]

end Text

namespace Score

open Text

/-- A token: some characters, none of them white space. -/
def IsToken (token : String) : Prop := token ≠ "" ∧ ∀ c ∈ token.toList, isBlank c = false

section tokens

variable {token : String} {tokens : List String}

theorem isToken_of_mem_words {s : String} (listed : token ∈ words s) : IsToken token := by
  obtain ⟨chars, member, rfl⟩ := List.mem_map.mp listed
  obtain ⟨some, solid⟩ := mem_wordsFrom (by simp) member
  refine ⟨by simpa [String.ext_iff] using some, ?_⟩
  rwa [String.toList_ofList]

theorem IsToken.ne_nil (valid : IsToken token) : token.toList ≠ [] := fun empty => valid.1 (String.ext empty)

theorem IsToken.ends (valid : IsToken token) : (∀ c, token.toList.head? = some c → isBlank c = false) ∧
    ∀ c, token.toList.getLast? = some c → isBlank c = false :=
  ⟨fun c first => valid.2 c (List.mem_of_mem_head? first), fun c last => valid.2 c (List.mem_of_getLast? last)⟩

theorem joined_cons_cons (token next : String) (rest : List String) :
    (" ".intercalate (token :: next :: rest)).toList =
      token.toList ++ ' ' :: (" ".intercalate (next :: rest)).toList := by
  rw [String.intercalate_cons_cons, String.toList_append, String.toList_append, List.append_assoc]
  rfl

/-- Tokens joined by single spaces are the words of what they make. -/
theorem words_joined (valid : ∀ token ∈ tokens, IsToken token) : words (" ".intercalate tokens) = tokens := by
  induction tokens with
  | nil => rfl
  | cons token rest ih =>
    obtain ⟨here, later⟩ := List.forall_mem_cons.mp valid
    have first : wordsFrom [] token.toList = [token.toList] := wordsFrom_solid here.2 (.inr here.ne_nil)
    cases rest with
    | nil =>
      rw [String.intercalate_singleton, words, first]
      simp
    | cons next rest =>
      have blank : isBlank ' ' = true := by decide
      have others : (wordsFrom [] (" ".intercalate (next :: rest)).toList).map String.ofList = next :: rest := ih later
      rw [words, joined_cons_cons, wordsFrom_blank blank, first, List.map_append, others]
      simp

/-- Tokens joined by spaces have no white space around them. -/
theorem trim_joined (valid : ∀ token ∈ tokens, IsToken token) :
    trim (" ".intercalate tokens) = " ".intercalate tokens := by
  suffices ends : (∀ c, (" ".intercalate tokens).toList.head? = some c → isBlank c = false) ∧
      ∀ c, (" ".intercalate tokens).toList.getLast? = some c → isBlank c = false from
    trim_eq_self ends.1 ends.2
  induction tokens with
  | nil => simp
  | cons token rest ih =>
    obtain ⟨here, later⟩ := List.forall_mem_cons.mp valid
    cases rest with
    | nil =>
      rw [String.intercalate_singleton]
      exact here.ends
    | cons next rest =>
      have some : (" ".intercalate (next :: rest)).toList ≠ [] := by
        intro empty
        have cut := words_joined later
        rw [words, empty] at cut
        contradiction
      rw [joined_cons_cons]
      constructor
      · intro c first
        rw [List.head?_append_of_ne_nil _ here.ne_nil] at first
        exact here.ends.1 c first
      · intro c last
        rw [List.getLast?_append_of_ne_nil _ (List.cons_ne_nil _ _), List.getLast?_cons_of_ne_nil some] at last
        exact (ih later).2 c last

end tokens

section comments

variable {line verb : String} {args : List String}

theorem isBlankOrComment_trim (line : String) : isBlankOrComment (trim line) = isBlankOrComment line := by
  have same := congrArg String.toList (trim_trim line)
  rw [Text.trim, String.toList_ofList] at same
  rw [isBlankOrComment, same, Text.trim, String.toList_ofList, isBlankOrComment]

theorem takeWhile_trimChars {cs : List Char} (some : trimChars cs ≠ []) :
    (trimChars cs).takeWhile (!isBlank ·) ≠ [] := by
  obtain ⟨c, rest, whole⟩ := List.exists_cons_of_ne_nil some
  have first : (trimChars cs).head? = .some c := by rw [whole, List.head?_cons]
  have solid : isBlank c = false := head?_trimChars first
  simp [whole, solid]

theorem words_eq_cons (some : trimChars line.toList ≠ []) :
    words line = String.ofList ((trimChars line.toList).takeWhile (!isBlank ·)) ::
      (wordsFrom [] ((trimChars line.toList).dropWhile (!isBlank ·))).map String.ofList := by
  rw [← words_trim, words, trim, String.toList_ofList, wordsFrom_eq_cons (takeWhile_trimChars some), List.map_cons]

/-- What starts a comment holds no white space, so the first word tells whether it does. -/
theorem insignificant_takeWhile {cs : List Char} (begins : cs.takeWhile (!isBlank ·) ≠ []) :
    insignificant (cs.takeWhile (!isBlank ·)) = insignificant cs := by
  have solid : ∀ c ∈ commentMark, (!isBlank c) = true := List.all_eq_true.mp (by decide)
  have some : cs ≠ [] := by
    rintro rfl
    exact begins rfl
  have same : commentMark <+: cs.takeWhile (!isBlank ·) ↔ commentMark <+: cs := by
    constructor
    · exact fun starts => starts.trans (List.takeWhile_prefix _)
    · rintro ⟨rest, rfl⟩
      rw [List.takeWhile_append_of_pos solid]
      exact List.prefix_append ..
  simp only [insignificant, List.isEmpty_eq_false_iff.mpr begins, List.isEmpty_eq_false_iff.mpr some]
  rw [Bool.eq_iff_iff]
  simpa using same

/-- A line with words counts exactly if the first of them does. -/
theorem isBlankOrComment_verb (cut : words line = verb :: args) : isBlankOrComment line = isBlankOrComment verb := by
  have valid : IsToken verb := isToken_of_mem_words (cut ▸ List.mem_cons_self)
  have some : trimChars line.toList ≠ [] := by
    intro none
    rw [← words_trim, words, trim, String.toList_ofList, none] at cut
    contradiction
  have first : String.ofList ((trimChars line.toList).takeWhile (!isBlank ·)) = verb := by
    rw [words_eq_cons some] at cut
    exact (List.cons.inj cut).1
  have chars : trimChars verb.toList = (trimChars line.toList).takeWhile (!isBlank ·) := by
    rw [trimChars_eq_self valid.ends.1 valid.ends.2, ← first, String.toList_ofList]
  rw [isBlankOrComment, isBlankOrComment, chars, insignificant_takeWhile (takeWhile_trimChars some)]

theorem words_ne_nil (counts : isBlankOrComment line = false) : words line ≠ [] := by
  have some : trimChars line.toList ≠ [] := by
    intro none
    rw [isBlankOrComment, none] at counts
    contradiction
  rw [words_eq_cons some]
  exact List.cons_ne_nil _ _

end comments

namespace Command

variable {line : String} {c : Command}

theorem parse?_eq_none_iff : parse? line = none ↔ isBlankOrComment line = true := by
  simp only [parse?, isBlankOrComment_trim, words_trim]
  cases counts : isBlankOrComment line with
  | true => simp
  | false =>
    obtain ⟨verb, args, cut⟩ := List.exists_cons_of_ne_nil (words_ne_nil counts)
    simp [cut]

/-- The command on a line, told by the words of the line. -/
theorem parse?_eq_some_iff : parse? line = some c ↔
    isBlankOrComment line = false ∧ words line = c.verb :: c.args ∧ c.line = trim line := by
  simp only [parse?, isBlankOrComment_trim, words_trim]
  cases counts : isBlankOrComment line with
  | true => simp
  | false =>
    obtain ⟨verb, args, cut⟩ := List.exists_cons_of_ne_nil (words_ne_nil counts)
    simp only [cut, Bool.false_eq_true, if_false, true_and]
    constructor
    · rintro ⟨⟩
      exact ⟨rfl, rfl⟩
    · rintro ⟨same, trimmed⟩
      obtain ⟨rfl, rfl⟩ := List.cons.inj same
      rw [← trimmed]

/-- A line that is neither empty nor a comment holds a command. -/
theorem exists_parse? (counts : isBlankOrComment line = false) : ∃ c, parse? line = some c :=
  Option.ne_none_iff_exists'.mp fun none => by simp [parse?_eq_none_iff.mp none] at counts

theorem isToken_of_parse? (parsed : parse? line = some c) : ∀ token ∈ c.verb :: c.args, IsToken token := by
  intro token member
  rw [← (parse?_eq_some_iff.mp parsed).2.1] at member
  exact isToken_of_mem_words member

/-- Tokens of which the first counts are a command when they are joined by single spaces. -/
theorem parse?_joined {verb : String} {args : List String} (valid : ∀ token ∈ verb :: args, IsToken token)
    (counts : isBlankOrComment verb = false) : parse? (" ".intercalate (verb :: args)) =
      some ⟨verb, args, " ".intercalate (verb :: args)⟩ := by
  have cut := words_joined valid
  exact parse?_eq_some_iff.mpr ⟨(isBlankOrComment_verb cut).trans counts, cut, (trim_joined valid).symm⟩

/-- A command is read again from its own words. -/
theorem parse?_words (parsed : parse? line = some c) : parse? (" ".intercalate (c.verb :: c.args)) =
    some { c with line := " ".intercalate (c.verb :: c.args) } := by
  obtain ⟨counts, cut, -⟩ := parse?_eq_some_iff.mp parsed
  exact parse?_joined (isToken_of_parse? parsed) ((isBlankOrComment_verb cut).symm.trans counts)

end Command

/-- A line that a block stores is that of a command. -/
theorem Stored.command {name line : String} (stored : Stored name line) :
    ∃ c, Command.parse? line = some c ∧ c.line = line := by
  obtain ⟨c, parsed⟩ := Command.exists_parse? stored.counts
  refine ⟨c, parsed, ?_⟩
  rw [(Command.parse?_eq_some_iff.mp parsed).2.2, stored.trimmed]

end Score

end Partita
