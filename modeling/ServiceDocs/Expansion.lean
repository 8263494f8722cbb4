import ServiceDocs.Field.Basic
import ServiceDocs.TypeSource

/-!
# Expansion of types into fields

A compound type is expanded into the fields of its members, these into the fields of theirs, and
so on. Expansion goes no deeper than a given limit, and a type is not expanded again below
itself, so recursive types come to an end as well. The types that are being expanded form a
trail that is shared by all steps: a type is put on it before its members are looked at and
taken off behind the last one.

The documentation of a method has one field for each parameter. The result of a method is
described by the fields of its type when that is an object, and else by a single field.
-/

namespace ServiceDocs

/-- The name of the field that describes a result as a whole. -/
def resultName : String := "result"

/-- How deep types are expanded if nothing else is said. -/
def defaultDepth : Nat := 16

/-- The field of a member without anything that follows from its type. -/
def Member.toField (m : Member) (shape : Shape) : Field where
  name := m.name
  type := m.type
  shape := shape
  required := m.required
  range := m.range
  description := m.description

/-- The field with the fields of its type below it, if these can be resolved. -/
def Field.withFields (f : Field) (fields : Option (List Field)) : Field :=
  { f with opaqueType := fields.isNone, children := fields.getD [] }

namespace TypeSource

variable (src : TypeSource)

/-! ### Fields -/

/-- The types that are being expanded, the innermost one first. -/
abbrev Trail := List TypeExpr

/-- The field of a member, where `below` gives the fields of a compound type. -/
def fieldOf (below : TypeExpr → StateM Trail (Option (List Field))) (m : Member) :
    StateM Trail Field := do
  match src.element? m.type with
  | some e =>
    let field := { m.toField .array with element := some e }
    if src.isTerminal e then return { field with sample := some (src.sample e) }
    else return field.withFields (← below e)
  | none =>
    if src.isTerminal m.type then
      return { m.toField .literal with sample := some (src.sample m.type) }
    else return (m.toField .object).withFields (← below m.type)

/-- The fields of a compound type, with `room` levels left; `none` if the type cannot be resolved.
A type that is already on the trail, and any type where no room is left, has no fields. -/
def expand : Nat → TypeExpr → StateM Trail (Option (List Field))
  | 0,        _ => return some []
  | room + 1, t => do
    if t ∈ (← get) then return some []
    match src.members? t with
    | none    => return none
    | some ms =>
      modify (t :: ·)
      let fields ← ms.mapM (src.fieldOf (expand room))
      modify List.tail
      return some fields

/-- The field of a parameter, expanded `depth` levels deep. -/
def field (depth : Nat) (m : Member) : Field :=
  (src.fieldOf (src.expand depth) m []).1

/-! ### Methods -/

/-- The type is neither a collection nor terminal. -/
def isObject (t : TypeExpr) : Bool :=
  (src.element? t).isNone && !src.isTerminal t

/-- The field that describes the result of a method as a whole. -/
def resultField (depth : Nat) (m : Method) : Field :=
  src.field depth
    { name := resultName, type := m.returnType, description := m.returnDescription }

/-- The fields of the result of a method. -/
def response (depth : Nat) (m : Method) : List Field :=
  if m.returnType.isVoid then []
  else if src.isObject m.returnType then
    (src.expand depth m.returnType []).1.getD [src.resultField depth m]
  else [src.resultField depth m]

/-- The documentation of a method. -/
def entry (depth : Nat) (m : Method) : MethodEntry where
  name := m.name
  package := m.package
  declaringType := m.declaringType
  returnType := m.returnType
  parameters := parameterList m.parameters
  description := m.description
  request := m.parameters.map (src.field depth)
  response := src.response depth m

/-- Why a method cannot be documented. -/
inductive LookupError where
  /-- The type is not known. -/
  | unknownType (type : String)
  /-- The type declares no method of that name. -/
  | unknownMethod (type method : String)
deriving DecidableEq, Repr

/-- The methods that a type declares. -/
def methodsOf (type : String) : Except LookupError (List Method) :=
  match src.methods? type with
  | some methods => .ok methods
  | none         => .error (.unknownType type)

/-- The documentation of every method of a type. -/
def entries (depth : Nat) (type : String) : Except LookupError (List MethodEntry) := do
  return (← src.methodsOf type).map (src.entry depth)

/-- The documentation of every method of that name on a type. -/
def entriesNamed (depth : Nat) (type method : String) :
    Except LookupError (List MethodEntry) := do
  match (← src.methodsOf type).filter (·.name = method) with
  | []      => throw (.unknownMethod type method)
  | m :: ms => return (m :: ms).map (src.entry depth)

end TypeSource

end ServiceDocs
