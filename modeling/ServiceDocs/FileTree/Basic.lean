import ServiceDocs.FileTree.Path

/-!
# File trees

The files and directories of a system, with their modes, and the ways in which an access can fail.
A file holds a text, or bytes that are no text. Paths lead from the root or from the working
directory to a place in the tree.

A symbolic link can stand in the place of a file. It is followed where a path ends, unless the path
names the entry itself, as a rename does. Links that lead to directories are left out: a path goes
through the directories themselves.
-/

namespace ServiceDocs

/-! ### Errors -/

/-- The kinds of input and output errors. -/
inductive IoErrorKind where
  | notFound
  | isADirectory
  | notADirectory
  | alreadyExists
  | invalidData
  | permissionDenied
  | resourceBusy
  | other
deriving DecidableEq, Inhabited, Repr

/-- An input or output error with its text. -/
structure IoError where
  kind : IoErrorKind
  text : String
deriving DecidableEq, Inhabited, Repr

namespace IoError

/-- There is no such entry. -/
def notFound : IoError := ⟨.notFound, "No such file or directory (os error 2)"⟩

/-- A directory stands where a file is needed. -/
def isADirectory : IoError := ⟨.isADirectory, "Is a directory (os error 21)"⟩

/-- A file stands where a directory is needed. -/
def notADirectory : IoError := ⟨.notADirectory, "Not a directory (os error 20)"⟩

/-- There is already an entry. -/
def alreadyExists : IoError := ⟨.alreadyExists, "File exists (os error 17)"⟩

/-- The directory cannot be replaced under this name. -/
def resourceBusy : IoError := ⟨.resourceBusy, "Device or resource busy (os error 16)"⟩

/-- The links lead round in a circle. -/
def tooManyLinks : IoError := ⟨.other, "Too many levels of symbolic links (os error 40)"⟩

/-- The bytes are no text. -/
def invalidText : IoError := ⟨.invalidData, "stream did not contain valid UTF-8"⟩

end IoError

/-! ### Entries -/

/-- What a file holds. -/
inductive Contents where
  | text (s : String)
  /-- Bytes that are no text. -/
  | bytes (bs : List UInt8)
deriving DecidableEq, Inhabited, Repr

/-- The contents with the given bytes. -/
def Contents.ofBytes (bs : List UInt8) : Contents :=
  match String.fromUTF8? ⟨bs.toArray⟩ with
  | some s => .text s
  | none   => .bytes bs

/-- A place below the root, by the names of the entries on the way. -/
abbrev Place := List String

/-- An entry of a directory, with its permission bits. -/
inductive Entry where
  | file (contents : Contents) (mode : Nat)
  | directory (mode : Nat)
  /-- A symbolic link, with the place that it leads to. -/
  | link (target : Place)
deriving DecidableEq, Inhabited, Repr

/-- The permission bits of an entry. A link has all of them. -/
def Entry.mode : Entry → Nat
  | .file _ m    => m
  | .directory m => m
  | .link _      => 0o777

/-- The entry with other permission bits, which a link does not have. -/
def Entry.withMode (m : Nat) : Entry → Entry
  | .file c _    => .file c m
  | .directory _ => .directory m
  | .link p      => .link p

/-- The entries below the root. -/
structure FileTree where
  entries : List (Place × Entry) := []
  /-- The permission bits that new entries do not get. -/
  umask : Nat := 0o022
  /-- The place at which relative paths start. -/
  workingDirectory : Place := []
deriving DecidableEq, Inhabited, Repr

namespace FileTree

/-! ### Entries by place -/

/-- The entry at a place. The root itself is always there. -/
def get? (fs : FileTree) (p : Place) : Option Entry :=
  if p.isEmpty then some (.directory 0o755) else fs.entries.lookup p

/-- Replace the entry at a place, or add it behind the others. -/
def setEntry (p : Place) (e : Entry) : List (Place × Entry) → List (Place × Entry)
  | []           => [(p, e)]
  | (q, d) :: es => if q = p then (q, e) :: es else (q, d) :: setEntry p e es

/-- The tree with the given entry at a place. -/
def set (fs : FileTree) (p : Place) (e : Entry) : FileTree :=
  { fs with entries := setEntry p e fs.entries }

/-- The tree without an entry at a place. -/
def erase (fs : FileTree) (p : Place) : FileTree :=
  { fs with entries := fs.entries.filter (·.1 ≠ p) }

/-- The permission bits of a new entry for which `mode` is asked. -/
def newMode (fs : FileTree) (mode : Nat) : Nat :=
  mode &&& (0o777 ^^^ (fs.umask &&& 0o777))

theorem get?_of_ne_nil (fs : FileTree) {p : Place} (hp : p ≠ []) :
    fs.get? p = fs.entries.lookup p := by
  cases p with
  | nil => exact absurd rfl hp
  | cons a p => rfl

@[simp] theorem get?_nil (fs : FileTree) : fs.get? [] = some (.directory 0o755) := rfl

theorem lookup_setEntry_self (p : Place) (e : Entry) (es : List (Place × Entry)) :
    (setEntry p e es).lookup p = some e := by
  induction es with
  | nil => simp [setEntry]
  | cons x es ih =>
    obtain ⟨r, d⟩ := x
    by_cases hr : r = p
    · simp [setEntry, hr]
    · simp [setEntry, hr, List.lookup_cons, beq_false_of_ne (Ne.symm hr), ih]

theorem lookup_setEntry_of_ne {p q : Place} (h : q ≠ p) (e : Entry) (es : List (Place × Entry)) :
    (setEntry p e es).lookup q = es.lookup q := by
  induction es with
  | nil => simp [setEntry, h]
  | cons x es ih =>
    obtain ⟨r, d⟩ := x
    by_cases hr : r = p
    · simp [setEntry, hr, List.lookup_cons, beq_false_of_ne h]
    · simp [setEntry, hr, List.lookup_cons, ih]

theorem get?_set_self (fs : FileTree) {p : Place} (hp : p ≠ []) (e : Entry) :
    (fs.set p e).get? p = some e := by
  rw [get?_of_ne_nil _ hp]
  exact lookup_setEntry_self p e fs.entries

theorem get?_set_of_ne (fs : FileTree) {p q : Place} (h : q ≠ p) (e : Entry) :
    (fs.set p e).get? q = fs.get? q := by
  cases q with
  | nil => rfl
  | cons a q => exact lookup_setEntry_of_ne h e fs.entries

@[simp] theorem workingDirectory_set (fs : FileTree) (p : Place) (e : Entry) :
    (fs.set p e).workingDirectory = fs.workingDirectory := rfl

@[simp] theorem umask_set (fs : FileTree) (p : Place) (e : Entry) :
    (fs.set p e).umask = fs.umask := rfl

theorem setEntry_eq_append {p : Place} {es : List (Place × Entry)} (h : ∀ x ∈ es, x.1 ≠ p)
    (e : Entry) : setEntry p e es = es ++ [(p, e)] := by
  induction es with
  | nil => rfl
  | cons x es ih =>
    rw [List.forall_mem_cons] at h
    simp [setEntry, h.1, ih h.2]

/-- What is added at a place without an entry can be taken away again. -/
theorem erase_set {fs : FileTree} {p : Place} (h : ∀ x ∈ fs.entries, x.1 ≠ p) (e : Entry) :
    (fs.set p e).erase p = fs := by
  have hkept : fs.entries.filter (·.1 ≠ p) = fs.entries :=
    List.filter_eq_self.mpr fun x hx => by simpa using h x hx
  simp only [set, erase, setEntry_eq_append h, List.filter_append, hkept]
  simp

/-! ### Links -/

/-- The place that is reached by following at most the given number of links. -/
def follow (fs : FileTree) : Nat → Place → Place
  | 0,     p => p
  | n + 1, p =>
    match fs.get? p with
    | some (.link q) => fs.follow n q
    | _              => p

/-- The place at which the links at a place end. Where they lead round in a circle, a link stands
there; else no more of them can be followed than there are entries. -/
def linkEnd (fs : FileTree) (p : Place) : Place :=
  fs.follow fs.entries.length p

/-- What is found at an entry: the entry itself, or the file to which a link leads. -/
def behind (fs : FileTree) : Place × Entry → Except IoError (Place × Entry)
  | (p, .link _) =>
    match fs.get? (fs.linkEnd p) with
    | some (.file c m) => .ok (fs.linkEnd p, .file c m)
    | some (.link _)   => .error .tooManyLinks
    | _                => .error .notFound
  | (p, e)       => .ok (p, e)

/-- How a path fails that needs a directory where another entry stands. -/
def noDirectory {α : Type} (fs : FileTree) (p : Place) (e : Entry) : Except IoError α := do
  let _ ← fs.behind (p, e)
  throw .notADirectory

/-! ### Places of paths -/

/-- One step along a path from a directory. No step leads out of the tree: the root counts as the
directory above itself. -/
def step (p : Place) (part : String) : Place :=
  if part = "." then p else if part = ".." then p.dropLast else p ++ [part]

/-- Follow the parts of a path; each of them starts at a directory. -/
def walk (fs : FileTree) (p : Place) : List String → Except IoError Place
  | []            => .ok p
  | part :: parts =>
    match fs.get? p with
    | some (.directory _) => fs.walk (step p part) parts
    | some e              => fs.noDirectory p e
    | none                => .error .notFound

/-- The place at which a path starts. -/
def origin (fs : FileTree) (path : String) : Place :=
  if Path.isAbsolute path then [] else fs.workingDirectory

/-- The place of a path, where its last part need not exist. -/
def place? (fs : FileTree) (path : String) : Except IoError Place :=
  if path = "" then .error .notFound
  else fs.walk (fs.origin path) (Path.parts path)

/-- The place and the entry of a path, where a link is not followed. A slash at the end asks for a
directory. -/
def entryAt? (fs : FileTree) (path : String) : Except IoError (Place × Entry) := do
  let p ← fs.place? path
  match fs.get? p with
  | none                => throw .notFound
  | some (.directory m) => return (p, .directory m)
  | some e              => if Path.endsWithSlash path then fs.noDirectory p e else return (p, e)

/-- The place and the entry of a path, where links are followed. -/
def find? (fs : FileTree) (path : String) : Except IoError (Place × Entry) := do
  fs.behind (← fs.entryAt? path)

/-- There is an entry at the path. -/
def pathExists (fs : FileTree) (path : String) : Bool :=
  (fs.find? path).toOption.isSome

/-- There is a file at the path. -/
def isFile (fs : FileTree) (path : String) : Bool :=
  match fs.find? path with
  | .ok (_, .file _ _) => true
  | _                  => false

/-- There is a directory at the path. -/
def isDirectory (fs : FileTree) (path : String) : Bool :=
  match fs.find? path with
  | .ok (_, .directory _) => true
  | _                     => false

/-! ### Reading -/

/-- The text of a file. -/
def readText (fs : FileTree) (path : String) : Except IoError String := do
  match ← fs.find? path with
  | (_, .file (.text s) _)  => return s
  | (_, .file (.bytes _) _) => throw .invalidText
  | (_, .directory _)       => throw .isADirectory
  | (_, .link _)            => throw .tooManyLinks

/-- The places of the files below a place, in the order in which a walk through the directories
meets them when it goes through the entries of each directory by name. Links are passed over. -/
def filesBelow (fs : FileTree) (p : Place) : List Place :=
  let files := fs.entries.filterMap fun (q, e) =>
    match e with
    | .file _ _ => if p.isPrefixOf q then some q else none
    | _         => none
  files.mergeSort (Path.lexicographic Path.nameLe)

/-! ### Changing -/

/-- Write the text of a file. A new file gets the usual mode, an existing one keeps its own. A slash
at the end asks for a directory, which cannot be written. A link is followed, also to a file that is
missing in a directory that is there. -/
def writeText (fs : FileTree) (path text : String) : Except IoError FileTree := do
  let p := fs.linkEnd (← fs.place? path)
  let asDirectory := Path.endsWithSlash path
  match fs.get? p with
  | some (.directory _) => throw .isADirectory
  | some (.link _)      => throw .tooManyLinks
  | some (.file _ m)    =>
    if asDirectory then throw .notADirectory else return fs.set p (.file (.text text) m)
  | none                =>
    if asDirectory then throw .isADirectory
    else
      match fs.get? p.dropLast with
      | some (.directory _) => return fs.set p (.file (.text text) (fs.newMode 0o666))
      | _                   => throw .notFound

/-- Make a directory; `refused` are the paths for which the device refuses it. -/
def makeDirectory (fs : FileTree) (path : String) (refused : String → Option IoError) :
    Except IoError FileTree := do
  let p ← fs.place? path
  match fs.get? p, refused path with
  | some _, _      => throw .alreadyExists
  | none,   some e => throw e
  | none,   none   => return fs.set p (.directory (fs.newMode 0o777))

/-- An error in making a directory does not matter if there is one at the path. -/
def unlessDirectory (fs : FileTree) (path : String) (e : IoError) :
    FileTree × Except IoError Unit :=
  (fs, if fs.isDirectory path then .ok () else .error e)

/-- Make the directory at the first path, and those at the paths behind it that are missing. What
has been made stays there when a later step fails. -/
def makeAll (fs : FileTree) (refused : String → Option IoError) :
    List String → FileTree × Except IoError Unit
  | []            => (fs, .ok ())
  | path :: above =>
    match fs.makeDirectory path refused with
    | .ok fs   => (fs, .ok ())
    | .error e =>
      if e.kind = .notFound then
        match fs.makeAll refused above with
        | (fs, .error e) => (fs, .error e)
        | (fs, .ok ())   =>
          match fs.makeDirectory path refused with
          | .ok fs   => (fs, .ok ())
          | .error e => fs.unlessDirectory path e
      else fs.unlessDirectory path e

/-- Make the directory of a path and those above it that are missing. -/
def makeDirectories (fs : FileTree) (path : String)
    (refused : String → Option IoError := fun _ => none) : FileTree × Except IoError Unit :=
  fs.makeAll refused (Path.ancestors path)

end FileTree

end ServiceDocs
