import ServiceDocs.Signature
import ServiceDocs.Terminal

/-!
# Sources of types

Documentation is built from the answers to a few questions about types: which methods a type
declares, which members it has, whether it is a collection or a terminal type. Anything that
answers them is a `TypeSource`; the last three questions have answers that do not depend on
declarations.
-/

namespace ServiceDocs

namespace TypeExpr

/-- The type of the elements of an array or a container. A container without arguments holds
elements of an unknown type. -/
def element? : TypeExpr → Option TypeExpr
  | .array t         => some t
  | .named name args => if Terminal.isContainer name then some (args.headD .unknown) else none
  | .unknown         => none

/-- The type has the name of a terminal type. -/
def isTerminal : TypeExpr → Bool
  | .named name _ => Terminal.isTerminal name
  | .array _      => false
  | .unknown      => false

/-- The sample value of the type that has this name; an array has none. -/
def sample (t : TypeExpr) : Json :=
  match t.simpleName? with
  | some name => Terminal.sample name
  | none      => .null

end TypeExpr

/-- What can be asked about types. -/
structure TypeSource where
  /-- The methods that a type declares, in order; `none` if the type is not known. -/
  methods? : String → Option (List Method)
  /-- The members of a compound type, inherited ones first; `none` if it cannot be resolved. -/
  members? : TypeExpr → Option (List Member)
  /-- The type of the elements of an array or a collection. -/
  element? : TypeExpr → Option TypeExpr := TypeExpr.element?
  /-- The type stands for a single value. -/
  isTerminal : TypeExpr → Bool := TypeExpr.isTerminal
  /-- The sample value of a terminal type. -/
  sample : TypeExpr → Json := TypeExpr.sample

/-- The first method of that name on a type. -/
def TypeSource.method? (src : TypeSource) (type method : String) : Option Method := do
  (← src.methods? type).find? (·.name = method)

end ServiceDocs
