import ServiceDocs.Document
import ServiceDocs.Failure

/-!
# Publication

Documents are written into one directory. Each is first written to a temporary file in that
directory, which then takes the place of the target in one step; so at any time the target is
either what it was or the complete new document. The temporary file is removed when a step
fails. A link at the target is replaced itself; the file to which it leads only gives its mode.

The steps can fail because of what is in the tree, or because the device refuses them. How the
device names temporary files is left open.
-/

namespace ServiceDocs

/-! ### The device -/

/-- A way to name temporary files: the name that is chosen is none of those that are taken. -/
structure Naming where
  name : List String → String
  name_notMem : ∀ taken, name taken ∉ taken

namespace Naming

/-- How the names of temporary files begin. -/
def stem : String := ".apigen-"

/-- The length of the longest of some names. -/
def longest (names : List String) : Nat :=
  names.foldr (fun n k => max n.length k) 0

theorem length_le_longest {n : String} {names : List String} (h : n ∈ names) :
    n.length ≤ longest names := by
  induction names with
  | nil => cases h
  | cons m names ih =>
    simp only [longest, List.foldr_cons] at ih ⊢
    rcases List.mem_cons.mp h with rfl | h
    · exact Nat.le_max_left _ _
    · exact Nat.le_trans (ih h) (Nat.le_max_right _ _)

/-- Names that are longer than every name that is taken. -/
def padded : Naming where
  name taken := stem ++ String.ofList (List.replicate (longest taken) 'x')
  name_notMem taken h := by
    have hle := length_le_longest h
    have hstem : stem.length = 8 := rfl
    simp only [String.length_append, String.length_ofList, List.length_replicate, hstem] at hle
    omega

end Naming

/-- How the device behaves while a document is published: how it names the temporary file, what the
file holds while it is being written, and which steps it refuses. -/
structure Device where
  naming : Naming := .padded
  progress : List Contents := []
  create : Option IoError := none
  write : Option IoError := none
  setMode : Option IoError := none
  rename : Option IoError := none
  /-- The directories that are refused. -/
  makeDirectory : String → Option IoError := fun _ => none

/-! ### One document -/

/-- What happens when a document is published: the trees one after the other, and the path of the
document or the error. -/
structure Publication where
  states : List FileTree
  result : Except DocError String

namespace Publication

/-- The tree at the end, where `fs` is the one at the beginning. -/
def final (p : Publication) (fs : FileTree) : FileTree :=
  p.states.getLastD fs

/-- The names that links lead through. -/
def linkedNames (fs : FileTree) : List String :=
  fs.entries.flatMap fun (_, e) =>
    match e with
    | .link p => p
    | _       => []

/-- The names that a temporary file in a directory must not have: those of the entries of the
directory, those on the way to the target, and those that links lead through. -/
def takenNames (fs : FileTree) (dir : Place) (target : String) : List String :=
  fs.entries.filterMap (fun (p, _) => if p.dropLast = dir then p.getLast? else none)
    ++ fs.origin target ++ Path.parts target ++ linkedNames fs

/-- The name of the temporary file in a directory. -/
def temporaryName (naming : Naming) (fs : FileTree) (dir : Place) (target : String) : String :=
  naming.name (takenNames fs dir target)

/-- The place of the temporary file in a directory. -/
def temporaryPlace (naming : Naming) (fs : FileTree) (dir : Place) (target : String) : Place :=
  dir ++ [temporaryName naming fs dir target]

/-- The step fails with the given error if the device refuses it. -/
def unlessRefused (refused : Option IoError) (step : Except IoError Place) :
    Except IoError Place :=
  match refused with
  | some e => .error e
  | none   => step

/-- The directory in which a temporary file is made. -/
def directoryPlace (fs : FileTree) (dir : String) : Except IoError Place := do
  match ← fs.find? (if dir = "" then "." else dir) with
  | (p, .directory _) => return p
  | _                 => throw .notADirectory

/-- The mode of the file that is found at the path, if there is one. -/
def replacedMode? (fs : FileTree) (path : String) : Option Nat :=
  match fs.find? path with
  | .ok (_, .file _ m) => some m
  | _                  => none

/-- The place that a file takes when it is renamed to the path. A directory cannot be replaced
by a file. -/
def renameTarget (fs : FileTree) (path : String) : Except IoError Place := do
  let p ← fs.place? path
  let last := (Path.parts path).getLastD ""
  if last = "." || last = ".." then throw .resourceBusy
  if Path.endsWithSlash path then throw .notADirectory
  match fs.get? p with
  | some (.directory _) => throw .isADirectory
  | _                   => return p

end Publication

open Publication in
/-- Publish a document in a directory. Where a file is found at the target, the document keeps its
mode; a new one gets the usual mode. -/
def publish (device : Device) (fs : FileTree) (dir : String) (doc : Document) : Publication :=
  let target := Path.join dir doc.fileName
  match unlessRefused device.create (directoryPlace fs dir) with
  | .error e => ⟨[], .error (.temporary dir e)⟩
  | .ok d    =>
    let temp := temporaryPlace device.naming fs d target
    let mode := fs.newMode 0o644
    let opened := fs.set temp (.file (.text "") mode)
    let growing := device.progress.map fun c => fs.set temp (.file c mode)
    let removed := opened.erase temp
    match device.write with
    | some e => ⟨opened :: growing ++ [removed], .error (.temporary dir e)⟩
    | none   =>
      let written := fs.set temp (.file (.text doc.contents) mode)
      let replaced := replacedMode? fs target
      match if replaced.isSome then device.setMode else none with
      | some e => ⟨opened :: growing ++ [written, removed], .error (.temporary dir e)⟩
      | none   =>
        let mode' := replaced.getD mode
        let ready := fs.set temp (.file (.text doc.contents) mode')
        match unlessRefused device.rename (renameTarget ready target) with
        | .error e =>
          ⟨opened :: growing ++ [written, ready, removed], .error (.io target e)⟩
        | .ok p    =>
          let renamed := (ready.erase temp).set p (.file (.text doc.contents) mode')
          ⟨opened :: growing ++ [written, ready, renamed], .ok target⟩

/-! ### Batches -/

/-- What became of a batch of documents. -/
structure BatchReport where
  /-- The paths of the documents that were written, in order. -/
  written : List String := []
  /-- The names of the documents that could not be written, with the reasons, in order. -/
  failures : List (String × DocError) := []
deriving DecidableEq, Repr

/-- Every document was written. -/
def BatchReport.isSuccess (r : BatchReport) : Bool :=
  r.failures.isEmpty

/-- Make the output directory; `refused` are the directories that the device refuses. -/
def ensureDirectory (fs : FileTree) (dir : String)
    (refused : String → Option IoError := fun _ => none) : FileTree × Except DocError Unit :=
  match fs.makeDirectories dir refused with
  | (fs, .ok ())   => (fs, .ok ())
  | (fs, .error e) => (fs, .error (.io dir e))

/-- Publish documents one after the other, where `devices` tells how the device behaves during each
of them. A failure does not stop the rest. -/
def publishEach (devices : Nat → Device) (fs : FileTree) (dir : String) :
    List Document → FileTree × BatchReport
  | []          => (fs, {})
  | doc :: docs =>
    let p := publish (devices 0) fs dir doc
    let (fs, r) := publishEach (fun n => devices (n + 1)) (p.final fs) dir docs
    match p.result with
    | .ok path => (fs, { r with written := path :: r.written })
    | .error e => (fs, { r with failures := (doc.fileName, e) :: r.failures })

/-- Publish a batch of documents in a directory, which is made together with the first one. -/
def publishAll (devices : Nat → Device) (fs : FileTree) (dir : String) (docs : List Document) :
    FileTree × BatchReport :=
  match ensureDirectory fs dir (devices 0).makeDirectory with
  | (fs, .error e) => (fs, { failures := docs.map fun d => (d.fileName, .other e.message) })
  | (fs, .ok ())   => publishEach devices fs dir docs

end ServiceDocs
