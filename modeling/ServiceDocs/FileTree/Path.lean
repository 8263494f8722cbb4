import ServiceDocs.Text.Blank

/-!
# Paths

A path is a text with slashes between its parts. Joining paths keeps the text of both, so that a
path is shown as it was given.
-/

namespace ServiceDocs.Path

/-- The parts of a path, without empty ones. -/
def parts (path : String) : List String :=
  ((Text.pieces (· = '/') path.toList).filter fun p => !p.isEmpty).map String.ofList

/-- The path starts at the root. -/
def isAbsolute (path : String) : Bool :=
  path.toList.head? = some '/'

/-- The path ends with a slash. -/
def endsWithSlash (path : String) : Bool :=
  path.toList.getLast? = some '/'

/-- The path of `name` seen from the directory `dir`. -/
def join (dir name : String) : String :=
  if isAbsolute name || dir = "" then name
  else if endsWithSlash dir then dir ++ name
  else dir ++ "/" ++ name

/-- The parts of a path without the ones that stay in the same directory; only at the beginning
of a relative path such a part is kept. -/
def components (path : String) : List String :=
  match parts path with
  | []      => []
  | p :: ps => (if isAbsolute path && p = "." then [] else [p]) ++ ps.filter (· ≠ ".")

/-- The parts as a relative path. -/
def ofComponents (ps : List String) : String :=
  String.intercalate "/" ps

/-- The paths that the given components lead to one after the other, from the directory `start`.
The components and the paths are in reverse. -/
def steps (start : String) : List String → List String
  | []      => []
  | c :: cs => (start ++ ofComponents (c :: cs).reverse) :: steps start cs

/-- A path, as it is given, with the paths of the directories above it, the nearest one first. The
root and the directory at which a relative path starts are left out. -/
def ancestors (path : String) : List String :=
  match (components path).reverse with
  | []      => []
  | _ :: cs => path :: steps (if isAbsolute path then "/" else "") cs

/-- The name of a file ends with a dot and the given extension, and something stands in front of
the dot. -/
def hasExtension (extension name : String) : Bool :=
  let suffix := '.' :: extension.toList
  suffix.isSuffixOf name.toList && suffix.length < name.length

/-! ### Order -/

/-- Lexicographic order of lists whose items are ordered by `le`. -/
def lexicographic {α : Type} [DecidableEq α] (le : α → α → Bool) : List α → List α → Bool
  | [],      _       => true
  | _ :: _,  []      => false
  | a :: as, b :: bs => if a = b then lexicographic le as bs else le a b

/-- The order of names by their characters. -/
def nameLe (a b : String) : Bool :=
  lexicographic (fun c d => decide (c.toNat ≤ d.toNat)) a.toList b.toList

end ServiceDocs.Path
