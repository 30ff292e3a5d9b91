import Partita.Display.Wrap

/-! Boxes on a terminal: a text with a frame around it, and a table of names and
counts. -/
namespace Partita.Display

def screenWidth : Nat := 80

def rule (c : Char) (count : Nat) : List Char := List.replicate count c

/-- A text in the middle of a line of some character; what cannot be halved
stands on the right. -/
def centered (filler : Char) (width : Nat) (text : List Char) : List Char :=
  let rest := width - cells text
  rule filler (rest / 2) ++ text ++ rule filler (rest - rest / 2)

def panel (title body : String) : List String :=
  let inner := screenWidth - 4
  let line (cs : List Char) : List Char := "│ ".toList ++ padRight inner cs ++ " │".toList
  let top := '╭' :: centered '─' (screenWidth - 2) (s!" {title} ").toList ++ ['╮']
  let bottom := '╰' :: rule '─' (screenWidth - 2) ++ ['╯']
  (top :: (wrap inner body).map line ++ [bottom]).map String.ofList

/-- A cell of a table; what does not fit is cut off. -/
def clipped (width : Nat) (cs : List Char) : List Char :=
  if cells cs ≤ width then cs else fit (width - 1) cs ++ ['…']

def table (title nameHead countHead : String) (rows : List (String × Nat)) : List String :=
  let heads := (nameHead.toList, countHead.toList)
  let rows := rows.map fun (name, count) => (name.toList, (toString count).toList)
  let widest (column : List (List Char)) : Nat := column.foldl (fun n cs => Nat.max n (cells cs)) 0
  let counts := widest (heads.2 :: rows.map Prod.snd)
  let names := Nat.min (widest (heads.1 :: rows.map Prod.fst)) (screenWidth - 7 - counts)
  let across (left middle right bar : Char) : List Char :=
    left :: rule bar (names + 2) ++ middle :: rule bar (counts + 2) ++ [right]
  let row (bar : Char) (name count : List Char) : List Char :=
    bar :: ' ' :: padRight names (clipped names name) ++ [' ', bar, ' '] ++ count ++ [' ', bar]
  ([centered ' ' (names + counts + 7) title.toList,
    across '┏' '┳' '┓' '━',
    row '┃' heads.1 (padRight counts heads.2),
    across '┡' '╇' '┩' '━']
    ++ rows.map (fun (name, count) => row '│' name (padLeft counts count))
    ++ [across '└' '┴' '┘' '─']).map String.ofList

end Partita.Display
