import ServiceDocs.Catalog.Files
import ServiceDocs.Publication
import ServiceDocs.Settings.Layer

/-!
# Generations

A generation documents the methods of a type. Everything that can be wrong with the settings, the
sources and the names is found before anything is written: a generation is first planned and then
carried out.
-/

namespace ServiceDocs

/-- The catalog of sources. A source that is missing is reported before any is read. -/
def Catalog.ofSources (fs : FileTree) (sources : List String) : Except CommandError Catalog :=
  match sources.find? fun path => !fs.pathExists path with
  | some path => .error (.fileNotFound path)
  | none      => (ofPaths fs sources).mapError .documentation

/-- What a generation documents, and where the documents go. -/
structure Generation where
  outDirectory : String
  documents : List Document
deriving DecidableEq, Inhabited, Repr

namespace Generation

/-- The documentation of the methods of a type, or of those of one name. -/
def entriesFor (src : TypeSource) (depth : Nat) (type : String) :
    Option String → Except TypeSource.LookupError (List MethodEntry)
  | some method => src.entriesNamed depth type method
  | none        => src.entries depth type

/-- Plan a generation. There is nothing to write for a type without methods. The model is named
after the method, if only the methods of one name are documented, and else after the type. -/
def plan (fs : FileTree) (env : Environment) (settingsFile : Option String) (overrides : Overrides)
    (type : String) (method : Option String) : Except CommandError Generation := do
  let settings ← (Settings.load fs env settingsFile overrides).mapError .settings
  settings.validate.mapError .settings
  let catalog ← Catalog.ofSources fs settings.sources
  let entries ← (entriesFor catalog.source settings.maxDepth.toNat type method).mapError fun e =>
    .documentation (.lookup e)
  return {
    outDirectory := settings.outDirectory
    documents :=
      if entries.isEmpty then []
      else Document.ofEntries entries settings.format settings.coordinates (method.getD type) }

/-- Carry out a generation; `devices` tells how the device behaves. -/
def publish (g : Generation) (devices : Nat → Device) (fs : FileTree) : FileTree × BatchReport :=
  publishAll devices fs g.outDirectory g.documents

end Generation

end ServiceDocs
