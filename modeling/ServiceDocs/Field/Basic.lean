import ServiceDocs.Json.Basic
import ServiceDocs.TypeExpr.Basic

/-!
# Payload fields

The fields of a request or a response form a tree. A field is shown as a literal, as an object
with named members or as an array; the children of an object or an array are the fields of the
object, or of the elements of the array.
-/

namespace ServiceDocs

/-- How a field appears in a payload. -/
inductive Shape where
  /-- A single value: a number, a text, a date. -/
  | literal
  /-- An object with named members. -/
  | object
  /-- An array or another collection. -/
  | array
deriving DecidableEq, Inhabited, Repr

/-- A field of a payload with the fields below it. -/
structure Field where
  name : String
  type : TypeExpr
  shape : Shape
  /-- The type of the elements of an array. -/
  element : Option TypeExpr := none
  required : Bool := false
  range : Option String := none
  description : Option String := none
  /-- A sample of a literal, or of an element of an array of terminal values. -/
  sample : Option Json := none
  /-- The type, or the type of the elements, could not be resolved. -/
  opaqueType : Bool := false
  children : List Field := []
deriving Inhabited, Repr

namespace Field

/-- The field has fields below it. -/
def hasChildren (f : Field) : Bool :=
  !f.children.isEmpty

/-- The field is an array of terminal values. -/
def isTerminalArray (f : Field) : Bool :=
  f.shape = .array && f.sample.isSome

/-- The field is an object, or an array of something that is not terminal. -/
def isCompound (f : Field) : Bool :=
  match f.shape with
  | .literal => false
  | .object  => true
  | .array   => !f.isTerminalArray

mutual

/-- The number of fields in the tree, its root included. -/
def count : Field → Nat
  | ⟨_, _, _, _, _, _, _, _, _, children⟩ => 1 + countAll children
termination_by structural f => f

/-- The number of fields in a list of trees. -/
def countAll : List Field → Nat
  | []      => 0
  | f :: fs => f.count + countAll fs
termination_by structural fs => fs

end

theorem count_eq (f : Field) : f.count = 1 + countAll f.children := by
  cases f; rfl

end Field

/-- The documentation of one method. -/
structure MethodEntry where
  name : String
  package : String
  /-- The simple name of the type that declares the method. -/
  declaringType : String
  returnType : TypeExpr
  /-- The parameter list as it is declared. -/
  parameters : String
  description : Option String := none
  /-- One field for each parameter. -/
  request : List Field
  /-- The fields of the result. -/
  response : List Field
deriving Inhabited, Repr

/-- The coordinates under which the documented interface is published. -/
structure Coordinates where
  groupId : Option String := none
  artifactId : Option String := none
  version : Option String := none
deriving DecidableEq, Inhabited, Repr

/-- No coordinate is given. -/
def Coordinates.isEmpty (c : Coordinates) : Bool :=
  c.groupId.isNone && c.artifactId.isNone && c.version.isNone

end ServiceDocs
