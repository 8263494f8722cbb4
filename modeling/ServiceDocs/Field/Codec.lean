import ServiceDocs.Field.Basic
import ServiceDocs.Json.Printer
import ServiceDocs.TypeExpr.Codec

/-!
# Documentation as JSON

The JSON form of fields, of the documentation of methods and of coordinates. Parts without a
value are left out: absent options, a field that is not opaque, and an empty list of children.
A sample that is `null` reads as an absent one.
-/

namespace ServiceDocs

/-! ### Shapes -/

/-- The word for a shape. -/
def Shape.word : Shape → String
  | .literal => "literal"
  | .object  => "object"
  | .array   => "array"

/-- The shape that a word stands for. -/
def Shape.ofWord? : String → Option Shape
  | "literal" => some .literal
  | "object"  => some .object
  | "array"   => some .array
  | _         => none

@[simp] theorem Shape.ofWord?_word (s : Shape) : Shape.ofWord? s.word = some s := by
  cases s <;> rfl

/-! ### Fields -/

namespace Field

mutual

/-- The JSON form of a field. -/
def toJson : Field → Json
  | ⟨name, type, shape, element, required, range, description, sample, opaqueType, children⟩ =>
    .obj <|
      [("name", .str name), ("type", type.toJson), ("kind", .str shape.word)]
        ++ Json.someMember "element" (element.map TypeExpr.toJson)
        ++ [("required", .bool required)]
        ++ Json.someMember "range" (range.map Json.str)
        ++ Json.someMember "description" (description.map Json.str)
        ++ Json.someMember "example" sample
        ++ (if opaqueType then [("opaque", .bool true)] else [])
        ++ (if children.isEmpty then [] else [("children", .arr (toJsonAll children))])
termination_by structural f => f

/-- The JSON forms of fields. -/
def toJsonAll : List Field → List Json
  | []      => []
  | f :: fs => f.toJson :: toJsonAll fs
termination_by structural fs => fs

end

/-- The names of the parts of a field, in order. -/
def partNames : List String :=
  ["name", "type", "kind", "element", "required", "range", "description", "example", "opaque",
   "children"]

/-- Read a field that is at most `height` levels high. -/
def ofJsonWithin : Nat → Json → Option Field
  | 0,          _ => none
  | height + 1, j => do
    let ps ← j.parts? partNames
    return {
      name        := ← ps.required "name" Json.asString?
      type        := ← ps.required "type" TypeExpr.ofJson?
      shape       := ← ps.required "kind" (Json.asWord? Shape.ofWord?)
      element     := ← ps.nullable "element" TypeExpr.ofJson?
      required    := ← ps.optional "required" false Json.asBool?
      range       := ← ps.nullable "range" Json.asString?
      description := ← ps.nullable "description" Json.asString?
      sample      := ← ps.nullable "example" some
      opaqueType  := ← ps.optional "opaque" false Json.asBool?
      children    := ← ps.optional "children" [] (Json.asList? (ofJsonWithin height)) }

/-- Read a field. -/
def ofJson? (j : Json) : Option Field :=
  ofJsonWithin j.height j

end Field

/-! ### Methods -/

namespace MethodEntry

/-- The JSON form of the documentation of a method. -/
def toJson (e : MethodEntry) : Json :=
  .obj <|
    [("name", .str e.name), ("package", .str e.package),
     ("declaring_type", .str e.declaringType), ("return_type", e.returnType.toJson),
     ("params", .str e.parameters)]
      ++ Json.someMember "description" (e.description.map Json.str)
      ++ [("request", .arr (Field.toJsonAll e.request)),
          ("response", .arr (Field.toJsonAll e.response))]

/-- The names of the parts of the documentation of a method, in order. -/
def partNames : List String :=
  ["name", "package", "declaring_type", "return_type", "params", "description", "request",
   "response"]

/-- Read the documentation of a method. -/
def ofJson? (j : Json) : Option MethodEntry := do
  let ps ← j.parts? partNames
  return {
    name          := ← ps.required "name" Json.asString?
    package       := ← ps.required "package" Json.asString?
    declaringType := ← ps.required "declaring_type" Json.asString?
    returnType    := ← ps.required "return_type" TypeExpr.ofJson?
    parameters    := ← ps.required "params" Json.asString?
    description   := ← ps.nullable "description" Json.asString?
    request       := ← ps.required "request" (Json.asList? Field.ofJson?)
    response      := ← ps.required "response" (Json.asList? Field.ofJson?) }

end MethodEntry

/-! ### Coordinates -/

namespace Coordinates

/-- The JSON form of coordinates. -/
def toJson (c : Coordinates) : Json :=
  .obj <|
    Json.someMember "group_id" (c.groupId.map Json.str)
      ++ Json.someMember "artifact_id" (c.artifactId.map Json.str)
      ++ Json.someMember "version" (c.version.map Json.str)

/-- Read coordinates. -/
def ofJson? (j : Json) : Option Coordinates := do
  let ps ← j.parts? ["group_id", "artifact_id", "version"]
  return {
    groupId    := ← ps.nullable "group_id" Json.asString?
    artifactId := ← ps.nullable "artifact_id" Json.asString?
    version    := ← ps.nullable "version" Json.asString? }

end Coordinates

/-! ### The model as a document -/

/-- The version of the JSON model. -/
def modelVersion : String := "0.4.1"

/-- The JSON model of a list of methods. -/
def modelJson (entries : List MethodEntry) : Json :=
  .obj [("version", .str modelVersion), ("methods", .arr (entries.map MethodEntry.toJson))]

/-- The text of the JSON model. -/
def modelText (entries : List MethodEntry) : String :=
  (modelJson entries).pretty

end ServiceDocs
