import Partita.Display.Cells
import Partita.Text.Blank

/-! Texts on lines of a width: words are kept together unless they are too long
for a line. -/
namespace Partita.Display

open Text (isBlank)

/-- The words of a line, each with the blanks after it, the first one also with
those before. At most `fuel` of them. -/
def chunks : (fuel : Nat) → List Char → List (List Char)
  | 0, _ => []
  | fuel + 1, cs =>
    let before := cs.takeWhile isBlank
    let rest := cs.dropWhile isBlank
    let word := rest.takeWhile (!isBlank ·)
    let rest := rest.dropWhile (!isBlank ·)
    if word.isEmpty then []
    else (before ++ word ++ rest.takeWhile isBlank) :: chunks fuel (rest.dropWhile isBlank)

def withoutBlanksAfter (cs : List Char) : List Char := (cs.reverse.dropWhile isBlank).reverse

/-- Cuts a word into pieces that fit a width. `room` is what is left beside the
piece being read, last character first. -/
def chop (width room : Nat) (current : List Char) : List Char → List (List Char)
  | [] => [current.reverse]
  | c :: rest =>
    if charCells c ≤ room then chop width (room - charCells c) (c :: current) rest
    else current.reverse :: chop width (width - charCells c) [c] rest

/-- Lines being filled, the last one apart. -/
structure Filling where
  done : List (List Char) := []
  line : List Char := []

/-- Adds a word to the line being filled, or begins new ones with it. -/
def Filling.add (width : Nat) (f : Filling) (word : List Char) : Filling :=
  let size := cells (withoutBlanksAfter word)
  if size ≤ width - cells f.line then { f with line := f.line ++ word }
  else
    let done := if f.line.isEmpty then f.done else f.done ++ [f.line]
    if size ≤ width then ⟨done, word⟩
    else
      let pieces := chop width width [] word
      ⟨done ++ pieces.dropLast, pieces.getLast?.getD []⟩

/-- Takes blanks off the end of a line that is too long. -/
def trimEnd (width : Nat) (line : List Char) : List Char :=
  let blanks := (line.reverse.takeWhile isBlank).length
  line.take (line.length - Nat.min blanks (cells line - width))

/-- Blanks in place of tabs, which go on to the next multiple of eight. -/
def expandTabs (column : Nat) : List Char → List Char
  | [] => []
  | '\t' :: rest =>
    let size := 8 - column % 8
    List.replicate size ' ' ++ expandTabs (column + size) rest
  | c :: rest => c :: expandTabs (column + charCells c) rest

def wrapLine (width : Nat) (line : List Char) : List (List Char) :=
  let line := expandTabs 0 line
  let f := (chunks line.length line).foldl (Filling.add width) {}
  if f.done.isEmpty && f.line.isEmpty then [trimEnd width line]
  else (f.done ++ [f.line]).map (trimEnd width)

/-- Controls that a terminal does not show. -/
def isHidden (c : Char) : Bool := [7, 8, 11, 12, 13].contains c.toNat

/-- The lines of a text between line feeds. `current` holds the line being read,
last character first. -/
def feedLines (current : List Char) : List Char → List (List Char)
  | [] => [current.reverse]
  | '\n' :: rest => current.reverse :: feedLines [] rest
  | c :: rest => feedLines (c :: current) rest

def wrap (width : Nat) (text : String) : List (List Char) :=
  (feedLines [] (text.toList.filter (!isHidden ·))).flatMap (wrapLine width)

def wrapped (width : Nat) (text : String) : List String := (wrap width text).map String.ofList

end Partita.Display
