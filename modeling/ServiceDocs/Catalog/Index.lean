import ServiceDocs.Catalog.Files

/-!
# Catalogs as indexes

A catalog can be kept as two things that have to agree: the names in the order in which they were
added, and a table that gives the declaration of a name. Calls that add sources change both of them
step by step, and a call that fails takes back nothing of what it has added.
-/

namespace ServiceDocs

/-! ### Indexes -/

/-- Names in order, and the declarations of names. -/
structure Index where
  order : List String := []
  table : String → Option Declaration := fun _ => none

namespace Index

/-- Add a declaration, unless there is one of its name. -/
def insert (ix : Index) (d : Declaration) : Index :=
  match ix.table d.name with
  | some _ => ix
  | none   =>
    { order := ix.order ++ [d.name]
      table := fun name => if name = d.name then some d else ix.table name }

/-- The declarations in order, each looked up by its name. -/
def types (ix : Index) : List Declaration :=
  ix.order.filterMap ix.table

/-- The number of names. -/
def size (ix : Index) : Nat :=
  ix.order.length

/-- A step that changes an index and may fail. What it has changed before it fails stays. -/
abbrev Step := ExceptT DocError (StateM Index)

/-- Add declarations in order. The number is that of all of them. -/
def addAll (ds : List Declaration) : Step Nat := do
  forM ds fun d => modify (·.insert d)
  return ds.length

def addSource (path text : String) : Step Nat :=
  addAll (Catalog.declarationsOf path text)

def addFile (fs : FileTree) (path : String) : Step Nat :=
  match fs.readText path with
  | .ok text => addSource path text
  | .error e => throw (.io path e)

/-- Add files one after the other, and pass over those whose step fails. -/
def addReadable (fs : FileTree) : List String → Step Nat
  | []            => return 0
  | path :: paths => do
    let n ← tryCatch (addFile fs path) fun _ => return 0
    let k ← addReadable fs paths
    return n + k

def addPath (fs : FileTree) (path : String) : Step Nat :=
  match fs.find? path with
  | .ok (p, .directory _) => addReadable fs (Catalog.sourcesBelow fs path p)
  | .ok _                 => addFile fs path
  | .error e              => throw (.io path e)

end Index

/-! ### Calls -/

/-- A call that adds a source, a file or whatever is at a path. Files may change between calls. -/
inductive IndexCall where
  | addSource (path text : String)
  | addFile (fs : FileTree) (path : String)
  | addPath (fs : FileTree) (path : String)

/-- The result of a call on an index, and the index behind it. -/
def IndexCall.run (call : IndexCall) (ix : Index) : Except DocError Nat × Index :=
  match call with
  | .addSource path text => Index.addSource path text ix
  | .addFile fs path     => Index.addFile fs path ix
  | .addPath fs path     => Index.addPath fs path ix

/-- The result of a call on a catalog: the catalog behind it, with a number, or an error. -/
def IndexCall.runCatalog (call : IndexCall) (c : Catalog) : Except DocError (Catalog × Nat) :=
  match call with
  | .addSource path text =>
    .ok (c.addSource path text, (Catalog.declarationsOf path text).length)
  | .addFile fs path     => c.addFile fs path
  | .addPath fs path     => c.addPath fs path

/-- The index behind a sequence of calls, some of which may fail. -/
def Index.after (ix : Index) (calls : List IndexCall) : Index :=
  calls.foldl (fun ix call => (call.run ix).2) ix

/-- The catalog behind a sequence of calls, where a call that fails counts for nothing. -/
def Catalog.after (c : Catalog) (calls : List IndexCall) : Catalog :=
  calls.foldl (fun c call => ((call.runCatalog c).map Prod.fst).toOption.getD c) c

/-- The names and the table of a catalog. -/
def Catalog.index (c : Catalog) : Index where
  order := c.names
  table := c.get?

end ServiceDocs
