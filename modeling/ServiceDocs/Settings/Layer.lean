import ServiceDocs.Json.Reader
import ServiceDocs.Settings.Basic
import ServiceDocs.Settings.Environment

/-!
# Layers of settings

Settings are put together from layers: the default values, the settings file, the environment
and the command line. Each layer gives some parts of the settings and takes precedence over the
layers below it. A part that no layer gives has its default value.
-/

namespace ServiceDocs

/-! ### Laying values over each other -/

namespace Json

mutual

/-- Lay a value over another one. An object adds its members to an object below it, of which it
replaces those that it has, too; any other value replaces what is below it. -/
def overlay (below : Json) : Json → Json
  | .obj ms =>
    match below with
    | .obj bs => .obj (overlayMembers bs ms)
    | _       => .obj ms
  | .null   => .null
  | .bool b => .bool b
  | .num n  => .num n
  | .real s => .real s
  | .str s  => .str s
  | .arr xs => .arr xs
termination_by structural above => above

/-- Lay members over those of an object. -/
def overlayMembers (below : List (String × Json)) : List (String × Json) → List (String × Json)
  | []           => below
  | (k, v) :: ms =>
    let w := match below.lookup k with
      | some b => overlay b v
      | none   => v
    overlayMembers (insertMember k w below) ms
termination_by structural above => above

end

end Json

/-! ### The command line as a layer -/

/-- The settings that are given on the command line. -/
structure Overrides where
  sources : List String := []
  outDirectory : Option String := none
  format : Option OutputFormat := none
  maxDepth : Option UInt64 := none
  coordinates : Coordinates := {}
deriving DecidableEq, Inhabited, Repr

/-- The settings of the command line as a layer. Nothing is given by an empty list of sources. -/
def Overrides.toJson (o : Overrides) : Json :=
  .obj <|
    (if o.sources.isEmpty then [] else [("sources", Settings.sourcesJson o.sources)])
      ++ Json.someMember "outDir" (o.outDirectory.map Json.str)
      ++ Json.someMember "format" (o.format.map fun f => .str f.word)
      ++ Json.someMember "maxDepth" (o.maxDepth.map Settings.depthJson)
      ++ Settings.coordinatesMember o.coordinates

/-! ### Loading -/

namespace Settings

/-- The settings file that is read if no other one is named. -/
def fileName : String := "apigen.config.json"

/-- The settings file. One that is named has to be a file; the usual one may be missing. -/
def file? (fs : FileTree) : Option String → Except SettingsError (Option String)
  | some path => if fs.isFile path then .ok (some path) else .error (.notFound path)
  | none      => .ok (if fs.isFile fileName then some fileName else none)

/-- The layer of a settings file: the object in the file. -/
def fileLayer? (fs : FileTree) (path : String) : Option Json := do
  let .ok text := fs.readText path | none
  let .obj ms ← Json.ofText? text | none
  return .obj ms

/-- The settings of the layers, from the lowest to the highest. -/
def ofLayers? (layers : List Json) : Option Settings :=
  ofJson? (layers.foldl Json.overlay ({} : Settings).toJson)

/-- The error for settings that cannot be read. -/
def unreadable : SettingsError :=
  .invalidValue "configuration" "the settings cannot be read"
    "Check apigen.config.json syntax and field types"

/-- Load the settings for a command line, where `path` is the settings file that it names. -/
def load (fs : FileTree) (env : Environment) (path : Option String) (o : Overrides) :
    Except SettingsError Settings := do
  let fileLayers ← match ← file? fs path with
    | none      => pure []
    | some path =>
      match fileLayer? fs path with
      | some layer => pure [layer]
      | none       => throw unreadable
  match ofLayers? (fileLayers ++ [env.settings, o.toJson]) with
  | some s => return s
  | none   => throw unreadable

end Settings

end ServiceDocs
