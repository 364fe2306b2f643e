import RouteProgramming.Table

/-!
Files and folders below a root. A file holds a text, or bytes that are no text; a folder holds its
entries in the order of their names.
-/

namespace RouteProgramming

inductive FileTree where
  /-- A file; `none` when its bytes are no text. -/
  | file (text : Option String)
  | folder (entries : List (String × FileTree))
deriving Inhabited

namespace FileTree

def empty : FileTree := .folder []

/-- Puts an entry into a list that is ordered by name, in place of one of the same name. -/
def putEntry (name : String) (t : FileTree) : List (String × FileTree) → List (String × FileTree)
  | [] => [(name, t)]
  | e :: es =>
    match compare name e.1 with
    | .lt => (name, t) :: e :: es
    | .eq => (name, t) :: es
    | .gt => e :: putEntry name t es

def entries : FileTree → List (String × FileTree)
  | .file _ => []
  | .folder es => es

/-- Puts `t` at a path, with the folders that lead to it. A folder put over a folder leaves it as it is. -/
def put (t : FileTree) : List String → FileTree → FileTree
  | [], old =>
    match t, old with
    | .folder [], .folder es => .folder es
    | t, _ => t
  | name :: path, old =>
    .folder (putEntry name (put t path ((old.entries.lookup name).getD empty)) old.entries)

/-- The steps of a path; empty steps and dots stand for no step. -/
def steps (path : String) : List String := ((path.splitOn "/").filter (fun s => s ≠ "" ∧ s ≠ "."))

/-- Goes down from `t`, or up to the folders above it. A file that is on the way cannot be read through,
and above the outermost folder nothing is known. -/
def walk (above : List FileTree) (t : FileTree) : List String → Option FileTree
  | [] => some t
  | step :: path =>
    match t with
    | .file _ => some (.file none)
    | .folder es =>
      if step = "" ∨ step = "." then walk above t path
      else if step = ".." then
        match above with
        | [] => walk [] empty path
        | parent :: above => walk above parent path
      else (es.lookup step).bind (walk (t :: above) · path)

/-- What is at a path that starts at this folder. -/
def resolve? (t : FileTree) (path : String) : Option FileTree :=
  if path.startsWith "/" then walk [] empty (path.splitOn "/") else walk [] t (path.splitOn "/")

end FileTree

end RouteProgramming
