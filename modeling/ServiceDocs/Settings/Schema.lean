import ServiceDocs.Settings.Basic

/-!
# The schema of settings

A JSON schema for the settings file, for editors that complete and check it.
-/

namespace ServiceDocs.Settings

/-- Where the schema keeps its named parts. -/
private def referenceTo (name : String) : String × Json :=
  ("$ref", .str ("#/$defs/" ++ name))

private def described (text : String) : String × Json :=
  ("description", .str text)

private def typed (type : String) : String × Json :=
  ("type", .str type)

private def strict : String × Json :=
  ("additionalProperties", .bool false)

/-- The schema of one of the words for output formats. -/
private def formatSchema (f : OutputFormat) (text : String) : Json :=
  .obj [described text, typed "string", ("const", .str f.word)]

/-- The schema of output formats. -/
def formatsSchema : Json :=
  .obj [
    described "Output format for generated documentation.",
    ("oneOf", .arr [
      formatSchema .markdown "One Markdown page per method",
      formatSchema .json "A single JSON file with every documented method",
      formatSchema .both "Markdown pages plus the JSON model"])]

/-- The schema of coordinates, each of which is a text or `null`. -/
def coordinatesSchema : Json :=
  .obj [
    described "Maven coordinates of the documented API.",
    typed "object",
    ("properties", .obj (coordinateNames.map fun name =>
      (name, .obj [("type", .arr [.str "string", .str "null"])]))),
    strict]

/-- The schemas of the parts of settings, with their default values. -/
private def partSchemas : List (String × Json) :=
  let default : Settings := {}
  [("sources", .obj [
      described "Java source files or directories to index",
      typed "array",
      ("items", .obj [typed "string"]),
      ("default", sourcesJson default.sources)]),
   ("outDir", .obj [
      described "Output directory for generated documents",
      typed "string",
      ("default", .str default.outDirectory)]),
   ("format", .obj [
      described "Output format (md, json, both)",
      referenceTo "DocsFormat",
      ("default", .str default.format.word)]),
   ("maxDepth", .obj [
      described "Maximum nesting depth of expanded types",
      typed "integer",
      ("format", .str "uint"),
      ("minimum", .num 1),
      ("default", depthJson default.maxDepth)]),
   ("artifact", .obj [
      described "Maven coordinates for the dependency snippet",
      referenceTo "ArtifactConfig"])]

/-- The schema of settings. -/
def schema : Json :=
  .obj [
    ("$schema", .str "https://json-schema.org/draft/2020-12/schema"),
    ("title", .str "ApigenConfig"),
    described "apigen configuration - loaded from apigen.config.json or CLI args.",
    typed "object",
    ("properties", .obj partSchemas),
    strict,
    ("$defs", .obj [("DocsFormat", formatsSchema), ("ArtifactConfig", coordinatesSchema)])]

/-- The text of the schema of settings. -/
def schemaText : String :=
  schema.pretty

end ServiceDocs.Settings
