/-! White space and line ends of every script, and the ways a text is cut at
them. -/
namespace Partita.Text

/-- White space: the separators of every script and the ASCII controls that
separate. Zero-width characters are not white space. -/
def isBlank (c : Char) : Bool :=
  let n := c.toNat
  n == 0x20 || (0x9 ≤ n && n ≤ 0xD) || (0x1C ≤ n && n ≤ 0x1F) || n == 0x85 || n == 0xA0
    || n == 0x1680 || (0x2000 ≤ n && n ≤ 0x200A) || n == 0x2028 || n == 0x2029 || n == 0x202F
    || n == 0x205F || n == 0x3000

/-- Characters that end a line. A carriage return and a line feed after it are
one line end. -/
def isLineEnd (c : Char) : Bool :=
  let n := c.toNat
  (0xA ≤ n && n ≤ 0xD) || (0x1C ≤ n && n ≤ 0x1E) || n == 0x85 || n == 0x2028 || n == 0x2029

def skipBlank (cs : List Char) : List Char := cs.dropWhile isBlank

def trimChars (cs : List Char) : List Char :=
  (skipBlank (skipBlank cs).reverse).reverse

def trim (s : String) : String := String.ofList (trimChars s.toList)

/-- The runs of characters between white space. `current` holds the run being
read, last character first. -/
def wordsFrom (current : List Char) : List Char → List (List Char)
  | [] => if current.isEmpty then [] else [current.reverse]
  | c :: rest =>
    if isBlank c then
      if current.isEmpty then wordsFrom [] rest else current.reverse :: wordsFrom [] rest
    else wordsFrom (c :: current) rest

def words (s : String) : List String := (wordsFrom [] s.toList).map String.ofList

/-- The lines of a text without their line ends. `current` holds the line being
read, last character first, and `begun` says whether it has any. -/
def linesFrom (current : List Char) (begun : Bool) : List Char → List (List Char)
  | [] => if begun then [current.reverse] else []
  | '\r' :: '\n' :: rest => current.reverse :: linesFrom [] false rest
  | c :: rest =>
    if isLineEnd c then current.reverse :: linesFrom [] false rest
    else linesFrom (c :: current) true rest

/-- The lines of a text; what follows the last line end is a line unless it is
empty. -/
def lines (s : String) : List String := (linesFrom [] false s.toList).map String.ofList

end Partita.Text
