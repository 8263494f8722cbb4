import ServiceDocs.TypeExpr.Basic

/-!
# Members and methods

What the documentation needs to know about a field, a parameter and a method.
-/

namespace ServiceDocs

/-- A field of a type, or a parameter of a method. -/
structure Member where
  name : String
  type : TypeExpr
  /-- The source marks the member as mandatory. -/
  required : Bool := false
  /-- The values that the source allows, in words. -/
  range : Option String := none
  description : Option String := none
deriving DecidableEq, Inhabited, Repr

/-- A method as it is declared. -/
structure Method where
  name : String
  package : String
  /-- The simple name of the type that declares the method. -/
  declaringType : String
  returnType : TypeExpr
  parameters : List Member
  description : Option String := none
  /-- What the method returns, in words. -/
  returnDescription : Option String := none
deriving DecidableEq, Inhabited, Repr

/-- A parameter as it is written in a declaration. -/
def Member.declaration (m : Member) : String :=
  m.type.display ++ " " ++ m.name

/-- A parameter list as it is written in a declaration, such as `(long id, String name)`. -/
def parameterList (parameters : List Member) : String :=
  "(" ++ String.intercalate ", " (parameters.map Member.declaration) ++ ")"

end ServiceDocs
