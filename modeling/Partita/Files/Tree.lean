import Partita.Fault
import Partita.Files.Path

/-! Files in folders, seen from a working folder. -/
namespace Partita.Files

inductive Entry where
  | folder
  | file (bytes : ByteArray)

/-- The entries of a tree by their parts. A folder need not be entered if
something below it is. -/
structure Tree where
  entries : List (List String × Entry) := []
  /-- The parts of the working folder. -/
  working : List String := []
  deriving Inhabited

namespace Tree

/-- The parts that a path leads to from others. None if it leads out of the
tree. -/
def resolveFrom (current : List String) : List String → Option (List String)
  | [] => some current
  | ".." :: rest =>
    match current with
    | [] => none
    | ["/"] => resolveFrom ["/"] rest
    | current => resolveFrom current.dropLast rest
  | part :: rest => resolveFrom (current ++ [part]) rest

/-- The parts under which an entry is kept; those of an absolute path begin with
a slash. -/
def resolve? (t : Tree) (p : Path) : Option (List String) :=
  resolveFrom (if p.root == "" then t.working else ["/"]) p.parts

def isFolderAt (t : Tree) (parts : List String) : Bool :=
  parts.isEmpty || parts == ["/"] || t.entries.any fun (q, e) => parts.isPrefixOf q && (parts.length < q.length ||
    match e with
    | .folder => true
    | .file _ => false)

def fileAt? (t : Tree) (parts : List String) : Option ByteArray :=
  t.entries.findSome? fun (q, e) => if q == parts then
      match e with
      | .folder => none
      | .file bytes => some bytes
    else none

def file? (t : Tree) (p : Path) : Option ByteArray := (t.resolve? p).bind t.fileAt?

/-- Whether a file stands where a folder is needed to reach some parts. -/
def blocked (t : Tree) (parts : List String) : Bool :=
  (List.range parts.length).any fun n => (t.fileAt? (parts.take n)).isSome

/-- Why nothing can be found or made at some parts. -/
def obstacle (t : Tree) (path : String) (parts : List String) : Fault :=
  if t.blocked parts then .notFolder path
  else if t.isFolderAt parts then .isFolder path
  else .missingFile path

def read (t : Tree) (p : Path) : Except Fault ByteArray :=
  match t.resolve? p with
  | none => .error (.missingFile p.text)
  | some parts =>
    match t.fileAt? parts with
    | some bytes => .ok bytes
    | none => .error (t.obstacle p.text parts)

def write (t : Tree) (p : Path) (bytes : ByteArray) : Except Fault Tree :=
  match t.resolve? p with
  | none => .error (.missingFile p.text)
  | some parts =>
    if t.isFolderAt parts || !t.isFolderAt parts.dropLast then .error (t.obstacle p.text parts)
    else .ok { t with entries := t.entries.filter (·.1 != parts) ++ [(parts, .file bytes)] }

/-- Makes a folder and those above it. -/
def makeFolder (t : Tree) (p : Path) : Except Fault Tree :=
  match t.resolve? p with
  | none => .error (.missingFile p.text)
  | some parts =>
    if (t.fileAt? parts).isSome then .error (.fileInTheWay p.text)
    else if t.blocked parts then .error (.notFolder p.text)
    else if t.isFolderAt parts then .ok t
    else .ok { t with entries := t.entries ++ [(parts, .folder)] }

/-- The files below a folder, in the order of their parts. -/
def filesBelow (t : Tree) (p : Path) : List Path :=
  match t.resolve? p with
  | none => []
  | some root =>
    let below := t.entries.filterMap fun (q, e) =>
      match e with
      | .folder => none
      | .file _ => if root.isPrefixOf q && root.length < q.length then some (q.drop root.length) else none
    (below.mergeSort fun a b => !Path.partsLt b a).map fun rest => { p with parts := p.parts ++ rest }

end Tree

end Partita.Files
