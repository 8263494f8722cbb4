import ServiceDocs.Java.Declaration
import ServiceDocs.Java.Parser.Unit
import ServiceDocs.TypeSource

/-!
# Catalogs of declarations

A catalog holds the declarations of any number of sources, by simple name and in the order in
which they were added. The first declaration of a name is kept; later ones are passed over.

A catalog answers the questions of a `TypeSource`. The members of a type are the fields of its
superclasses and its own, with type parameters replaced by the arguments.
-/

namespace ServiceDocs

namespace Declaration

/-- The types for the type parameters of a declaration: arguments by position, unknown types
where arguments are missing. Of two parameters of one name the later one counts. -/
def bindings (d : Declaration) (args : List TypeExpr) : TypeExpr.Bindings :=
  (d.typeParameters.mapIdx fun i p => (p, args.getD i .unknown)).reverse

/-- The own fields of a declaration for the given arguments. -/
def ownFields (d : Declaration) (args : List TypeExpr) : List Member :=
  d.fields.map fun m => { m with type := m.type.substitute (d.bindings args) }

/-- The name of the type with its package. -/
def qualifiedName (d : Declaration) : String :=
  if d.package = "" then d.name else d.package ++ "." ++ d.name

end Declaration

/-- Declarations by simple name, in the order in which they were added. -/
structure Catalog where
  declarations : List Declaration := []
deriving DecidableEq, Inhabited, Repr

namespace Catalog

/-! ### Adding declarations -/

/-- The number of declarations. -/
def size (c : Catalog) : Nat :=
  c.declarations.length

/-- The names of the declarations, in order. -/
def names (c : Catalog) : List String :=
  c.declarations.map (·.name)

/-- The declaration of that name. -/
def get? (c : Catalog) (name : String) : Option Declaration :=
  c.declarations.find? (·.name = name)

/-- Add a declaration, unless there is one of its name. -/
def insert (c : Catalog) (d : Declaration) : Catalog :=
  if c.names.contains d.name then c else ⟨c.declarations ++ [d]⟩

/-- Add declarations in order. -/
def insertAll (c : Catalog) (ds : List Declaration) : Catalog :=
  ds.foldl insert c

/-- The declarations of a source, those of a name that is already there included. -/
def declarationsOf (path source : String) : List Declaration :=
  (Java.Tree.ofSource source).declarations path

/-- Add the declarations of a source. -/
def addSource (c : Catalog) (path source : String) : Catalog :=
  c.insertAll (declarationsOf path source)

/-! ### Members -/

/-- The fields of a class and its superclasses, the topmost ones first. `visited` are the classes
below it; a class that is met again adds nothing. The names of a catalog that have not been
visited bound the number of steps. -/
def fieldsFrom (c : Catalog) : Nat → List String → TypeExpr → Option (List Member)
  | 0,        _,       _ => some []
  | fuel + 1, visited, t =>
    match t with
    | .named name args =>
      match c.get? name with
      | none   => none
      | some d =>
        if d.kind = .enumType || visited.contains name then some []
        else
          let inherited := d.superclass.bind fun s =>
            fieldsFrom c fuel (name :: visited) (s.substitute (d.bindings args))
          some (inherited.getD [] ++ d.ownFields args)
    | _ => none

/-- The members of a type, inherited ones first; `none` for types that are not declared. -/
def members? (c : Catalog) (t : TypeExpr) : Option (List Member) :=
  c.fieldsFrom (c.size + 1) [] t

/-! ### The catalog as a source of types -/

/-- The declaration of the enum that a type names. -/
def enum? (c : Catalog) : TypeExpr → Option Declaration
  | .named name _ => (c.get? name).filter (·.kind = .enumType)
  | _             => none

/-- Enums are terminal like the types that are always terminal. -/
def isTerminal (c : Catalog) (t : TypeExpr) : Bool :=
  t.isTerminal || (c.enum? t).isSome

/-- The sample of an enum is its first constant. -/
def sample (c : Catalog) (t : TypeExpr) : Json :=
  match c.enum? t with
  | some d => .str (d.constants.headD "")
  | none   => t.sample

/-- The answers of a catalog. -/
def source (c : Catalog) : TypeSource where
  methods? name := (c.get? name).map (·.methods)
  members? := c.members?
  isTerminal := c.isTerminal
  sample := c.sample

end Catalog

end ServiceDocs
