/-! Paths: the parts between slashes, of which empty ones and single dots do not
count. -/
namespace Partita.Files

structure Path where
  /-- What an absolute path starts with. -/
  root : String
  parts : List String
  deriving DecidableEq, Repr, Inhabited

namespace Path

/-- The root of a path: one slash, or two if there are exactly two. -/
def rootOf : List Char → String
  | '/' :: '/' :: '/' :: _ => "/"
  | '/' :: '/' :: _ => "//"
  | '/' :: _ => "/"
  | _ => ""

/-- The pieces of a text between slashes. `current` holds the piece being read,
last character first. -/
def pieces (current : List Char) : List Char → List String
  | [] => [String.ofList current.reverse]
  | '/' :: rest => String.ofList current.reverse :: pieces [] rest
  | c :: rest => pieces (c :: current) rest

def ofString (s : String) : Path :=
  ⟨rootOf s.toList, (pieces [] s.toList).filter fun p => p != "" && p != "."⟩

/-- The text of a path; a dot stands for the path without parts. -/
def text (p : Path) : String :=
  if p.root == "" && p.parts.isEmpty then "." else p.root ++ "/".intercalate p.parts

/-- A path below another one; an absolute path stands for itself. -/
def join (p q : Path) : Path := if q.root == "" then { p with parts := p.parts ++ q.parts } else q

def name (p : Path) : String := p.parts.getLast?.getD ""

def parent (p : Path) : Path := { p with parts := p.parts.dropLast }

/-- Splits a name before its last dot, unless that dot is its first or last
character. -/
def splitName (name : List Char) : List Char × List Char :=
  let after := name.reverse.takeWhile (· != '.')
  let stem := name.take (name.length - after.length - 1)
  if after.length < name.length && !after.isEmpty && !stem.isEmpty then (stem, '.' :: after.reverse)
  else (name, [])

def stem (p : Path) : String := String.ofList (splitName p.name.toList).1

def extension (p : Path) : String := String.ofList (splitName p.name.toList).2

/-- Whether the first list of parts comes before the second one. -/
def partsLt : List String → List String → Bool
  | _, [] => false
  | [], _ :: _ => true
  | a :: s, b :: t => a < b || (a == b && partsLt s t)

end Path

end Partita.Files
