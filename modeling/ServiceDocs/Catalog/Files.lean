import ServiceDocs.Catalog.Basic
import ServiceDocs.Failure

/-!
# Catalogs from files

Sources are read from files and directories. A file that is named is read whatever its name is;
of a directory all files below it are read that have the extension of a source, by name within
each directory. A file below a directory that cannot be read is passed over.

Reading fails only for a path that is named; then nothing is added.
-/

namespace ServiceDocs.Catalog

/-- The extension of source files. -/
def sourceExtension : String := "java"

/-- Add the declarations of a file. The number is that of the declarations in the file, those of a
name that is already there included. -/
def addFile (c : Catalog) (fs : FileTree) (path : String) : Except DocError (Catalog × Nat) :=
  match fs.readText path with
  | .ok source =>
    let ds := declarationsOf path source
    .ok (c.insertAll ds, ds.length)
  | .error e   => .error (.io path e)

/-- The paths of the sources below the directory at a place, where `root` is its path. -/
def sourcesBelow (fs : FileTree) (root : String) (p : Place) : List String :=
  let sources := (fs.filesBelow p).filter fun q =>
    Path.hasExtension sourceExtension (q.getLastD "")
  sources.map fun q => Path.join root (Path.ofComponents (q.drop p.length))

/-- Add the declarations of those files that can be read. -/
def addReadable (c : Catalog) (fs : FileTree) : List String → Catalog × Nat
  | []            => (c, 0)
  | path :: paths =>
    match c.addFile fs path with
    | .ok (c, n) =>
      let (c, k) := c.addReadable fs paths
      (c, n + k)
    | .error _   => c.addReadable fs paths

/-- Add the declarations of a file, or of the sources below a directory. -/
def addPath (c : Catalog) (fs : FileTree) (path : String) : Except DocError (Catalog × Nat) :=
  match fs.find? path with
  | .ok (p, .directory _) => .ok (c.addReadable fs (sourcesBelow fs path p))
  | .ok _                 => c.addFile fs path
  | .error e              => .error (.io path e)

/-- The catalog of files and directories. The first one that cannot be read is reported. -/
def ofPaths (fs : FileTree) (paths : List String) : Except DocError Catalog :=
  paths.foldlM (fun c path => (c.addPath fs path).map (·.1)) {}

end ServiceDocs.Catalog
