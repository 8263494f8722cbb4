import ServiceDocs.Json.Record
import ServiceDocs.TypeExpr.Basic

/-!
# Type expressions as JSON

A type expression is an object whose member `kind` says which form it has.
-/

namespace ServiceDocs.TypeExpr

mutual

/-- The JSON form of a type expression. -/
def toJson : TypeExpr → Json
  | .named name []        => .obj [("kind", .str "named"), ("name", .str name)]
  | .named name (a :: as) =>
    .obj [("kind", .str "named"), ("name", .str name), ("args", .arr (toJsonAll (a :: as)))]
  | .array element        => .obj [("kind", .str "array"), ("element", element.toJson)]
  | .unknown              => .obj [("kind", .str "unknown")]
termination_by structural x => x

/-- The JSON forms of type expressions. -/
def toJsonAll : List TypeExpr → List Json
  | []      => []
  | a :: as => a.toJson :: toJsonAll as
termination_by structural x => x

end

/-- The kind of a type expression with its other parts. In the form of an array the kind comes
first. -/
def taggedParts? : Json → Option (String × (List String → Option Json.Parts))
  | .obj ms          => do
    let kind ← (← ms.lookup "kind").asString?
    return (kind, fun names => (Json.obj ms).parts? names)
  | .arr (kind :: xs) => do
    return (← kind.asString?, fun names => (Json.arr xs).parts? names)
  | _                => none

/-- Read a type expression that is at most `height` levels high. -/
def ofJsonWithin : Nat → Json → Option TypeExpr
  | 0,          _ => none
  | height + 1, j => do
    let (kind, parts) ← taggedParts? j
    match kind with
    | "named" =>
      let ps ← parts ["name", "args"]
      let name ← ps.required "name" Json.asString?
      let args ← ps.optional "args" [] (Json.asList? (ofJsonWithin height))
      return .named name args
    | "array" =>
      let ps ← parts ["element"]
      let element ← ps.required "element" (ofJsonWithin height)
      return .array element
    | "unknown" => return .unknown
    | _ => none

/-- Read a type expression. Members that are not part of its form are ignored. -/
def ofJson? (j : Json) : Option TypeExpr :=
  ofJsonWithin j.height j

end ServiceDocs.TypeExpr
