import ServiceDocs.Document
import ServiceDocs.Expansion
import ServiceDocs.Failure
import ServiceDocs.Json.Record

/-!
# Settings

The settings of a generation and their JSON form. Parts that are left out have their default
values; unknown parts are refused.
-/

namespace ServiceDocs

/-- What a generation depends on besides the names of the type and the method. -/
structure Settings where
  /-- The files and directories with sources. -/
  sources : List String := []
  outDirectory : String := "api_docs"
  format : OutputFormat := .markdown
  /-- How deep types are expanded. -/
  maxDepth : UInt64 := UInt64.ofNat defaultDepth
  /-- The coordinates for the dependency section of a page. -/
  coordinates : Coordinates := {}
deriving DecidableEq, Inhabited, Repr

namespace Settings

/-! ### JSON form -/

/-- The names of the parts of coordinates, in order. -/
def coordinateNames : List String :=
  ["groupId", "artifactId", "version"]

/-- The JSON form of coordinates. Those that are not given are left out. -/
def coordinatesJson (c : Coordinates) : Json :=
  .obj <|
    Json.someMember "groupId" (c.groupId.map Json.str)
      ++ Json.someMember "artifactId" (c.artifactId.map Json.str)
      ++ Json.someMember "version" (c.version.map Json.str)

/-- The member for coordinates, if any of them is given. -/
def coordinatesMember (c : Coordinates) : List (String × Json) :=
  if c.isEmpty then [] else [("artifact", coordinatesJson c)]

/-- The JSON form of a list of sources. -/
def sourcesJson (sources : List String) : Json :=
  .arr (sources.map Json.str)

/-- The JSON form of a depth. -/
def depthJson (depth : UInt64) : Json :=
  .num depth.toNat

/-- The JSON form of settings. -/
def toJson (s : Settings) : Json :=
  .obj <|
    [("sources", sourcesJson s.sources), ("outDir", .str s.outDirectory),
     ("format", .str s.format.word), ("maxDepth", depthJson s.maxDepth)]
      ++ coordinatesMember s.coordinates

/-- Read coordinates. -/
def coordinates? (j : Json) : Option Coordinates := do
  let ps ← j.parts? coordinateNames
  guard (ps.within coordinateNames)
  return {
    groupId    := ← ps.nullable "groupId" Json.asString?
    artifactId := ← ps.nullable "artifactId" Json.asString?
    version    := ← ps.nullable "version" Json.asString? }

/-- The names of the parts of settings, in order. -/
def partNames : List String :=
  ["sources", "outDir", "format", "maxDepth", "artifact"]

/-- Read a depth. -/
def depth? (j : Json) : Option UInt64 :=
  j.asCount?.map UInt64.ofNat

/-- Read settings. -/
def ofJson? (j : Json) : Option Settings := do
  let ps ← j.parts? partNames
  guard (ps.within partNames)
  let default : Settings := {}
  return {
    sources      := ← ps.optional "sources" default.sources (Json.asList? Json.asString?)
    outDirectory := ← ps.optional "outDir" default.outDirectory Json.asString?
    format       := ← ps.optional "format" default.format (Json.asWord? OutputFormat.ofWord?)
    maxDepth     := ← ps.optional "maxDepth" default.maxDepth depth?
    coordinates  := ← ps.optional "artifact" default.coordinates coordinates? }

/-! ### Checks -/

/-- Settings that can be used have a source, a depth and an output directory. The first fault in
this order is reported. -/
def validate (s : Settings) : Except SettingsError Unit := do
  if s.sources.isEmpty then
    throw (.missingField "sources"
      "Pass source paths on the command line or add 'sources' to apigen.config.json")
  if s.maxDepth = 0 then
    throw (.invalidValue "maxDepth" "0" "Use a depth of at least 1")
  if s.outDirectory = "" then
    throw (.invalidValue "outDir" "" "Output directory cannot be empty")

/-! ### An example -/

/-- The settings that a new settings file starts with. -/
def starter : Settings where
  sources := ["src/main/java"]
  coordinates :=
    { groupId := some "com.example", artifactId := some "example-api", version := some "1.0.0" }

/-- The text of the settings that a new settings file starts with. -/
def starterText : String :=
  starter.toJson.pretty

end Settings

end ServiceDocs
