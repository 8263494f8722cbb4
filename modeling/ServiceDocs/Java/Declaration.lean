import ServiceDocs.Constraint
import ServiceDocs.DocComment
import ServiceDocs.Java.Tree
import ServiceDocs.Signature

/-!
# Declarations

What a syntax tree declares: its classes, interfaces, enums and records, at the top and in the
bodies of other declarations, each with its own fields, methods and constants.

Trees are read without judging them: a comment among type arguments, for instance, counts as a
type that cannot be read.
-/

namespace ServiceDocs

/-- The kinds of declarations. -/
inductive DeclarationKind where
  | classType
  | interfaceType
  | enumType
  | recordType
deriving DecidableEq, Inhabited, Repr

/-- The keyword of a kind of declaration. -/
def DeclarationKind.word : DeclarationKind → String
  | .classType     => "class"
  | .interfaceType => "interface"
  | .enumType      => "enum"
  | .recordType    => "record"

/-- A type as it is declared. -/
structure Declaration where
  name : String
  package : String
  kind : DeclarationKind
  typeParameters : List String := []
  superclass : Option TypeExpr := none
  /-- The fields of an object of this type; for a record its components come first. -/
  fields : List Member := []
  methods : List Method := []
  /-- The constants of an enum. -/
  constants : List String := []
  description : Option String := none
  /-- The file in which the type is declared. -/
  path : String
deriving DecidableEq, Inhabited, Repr

namespace Java

/-! ### Types -/

namespace Tree

/-- The number of opening brackets in a text. -/
def bracketCount (text : String) : Nat :=
  text.toList.count '['

/-- An array of arrays of the given depth. -/
def nestArray : Nat → TypeExpr → TypeExpr
  | 0,     t => t
  | n + 1, t => .array (nestArray n t)

/-- Apply the brackets of a dimensions node, if there is one. -/
def withDimensions (t : TypeExpr) (dims : Option Tree) : TypeExpr :=
  nestArray ((dims.map fun d => bracketCount d.text).getD 0) t

/-- The text behind the last dot, without white space around it. -/
def lastName (text : String) : String :=
  String.ofList (Text.trim (Text.afterLast '.' text.toList))

/-- The name that one of the children of a generic type gives to it, the last one counts. -/
def genericName? (ts : List Tree) : Option String :=
  ts.foldl (fun name t => match t.kind with
    | .typeIdentifier       => some t.text
    | .scopedTypeIdentifier => some (lastName t.text)
    | _                     => name) none

mutual

/-- The type that a tree stands for. -/
def type : Tree → TypeExpr
  | .leaf _ kind _ text =>
    match kind with
    | .typeIdentifier | .primitiveType => .ofName text
    | _                                => .unknown
  | .node role kind ts =>
    match kind with
    | .typeIdentifier | .primitiveType => .ofName (Tree.node role kind ts).text
    | .scopedTypeIdentifier => .ofName (lastName (Tree.node role kind ts).text)
    | .genericType =>
      match genericName? ts with
      | some name => .named name (genericArguments ts)
      | none      => .unknown
    | .arrayType =>
      withDimensions (elementType ts) ((Tree.node role kind ts).child? .dimensions)
    | .wildcard | .annotatedType => (boundType? ts).getD (.ofName "Object")
    | _ => .unknown
termination_by structural t => t

/-- The arguments of a generic type; the last list of arguments counts. -/
def genericArguments : List Tree → List TypeExpr
  | []      => []
  | t :: ts =>
    if ts.any (·.kind = .typeArguments) then genericArguments ts
    else if t.kind = .typeArguments then argumentsOf t else genericArguments ts
termination_by structural ts => ts

/-- The types below a list of type arguments. -/
def argumentsOf : Tree → List TypeExpr
  | .leaf _ _ _ _ => []
  | .node _ _ ts  => namedTypes ts
termination_by structural t => t

/-- The types of the trees that are more than punctuation. -/
def namedTypes : List Tree → List TypeExpr
  | []      => []
  | t :: ts => if t.isNamed then t.type :: namedTypes ts else namedTypes ts
termination_by structural ts => ts

/-- The type of the elements of an array. -/
def elementType : List Tree → TypeExpr
  | []      => .unknown
  | t :: ts => if t.role = some .element then t.type else elementType ts
termination_by structural ts => ts

/-- The type that a wildcard or an annotated type is about: the last child that is neither
punctuation, an annotation nor the keyword `super`. -/
def boundType? : List Tree → Option TypeExpr
  | []      => none
  | t :: ts =>
    match boundType? ts with
    | some b => some b
    | none   =>
      if t.isNamed && t.kind ≠ .annotationUse && t.kind ≠ .super then some t.type else none
termination_by structural ts => ts

end

/-! ### Modifiers and comments -/

/-- The modifiers of a declaration. -/
def modifiers? (t : Tree) : Option Tree :=
  t.children.find? (·.kind = .modifiers)

/-- The declaration belongs to its type and not to the objects of the type. -/
def isStatic (t : Tree) : Bool :=
  match t.modifiers? with
  | some ms => ms.children.any fun m => m.kind = .sign && m.text = "static"
  | none    => false

/-- The arguments of an annotation. -/
def annotationArguments (t : Tree) : List (String × String) :=
  match t.child? .arguments with
  | none      => []
  | some list => list.namedChildren.flatMap fun a =>
    if a.kind = .elementValuePair then
      match a.child? .key, a.child? .value with
      | some k, some v => [(k.text, AnnotationUse.unquote v.text)]
      | _,      _      => []
    else [("value", AnnotationUse.unquote a.text)]

/-- The annotation that a tree stands for. -/
def annotationUse? (t : Tree) : Option AnnotationUse :=
  (t.child? .name).map fun n =>
    ⟨String.ofList (Text.afterLast '.' n.text.toList), t.annotationArguments⟩

/-- The annotations of a declaration. -/
def annotations (t : Tree) : List AnnotationUse :=
  match t.modifiers? with
  | some ms => (ms.children.filter (·.kind = .annotationUse)).filterMap annotationUse?
  | none    => []

/-- The documentation comment right in front of a declaration, where `before` are the trees in
front of it, the nearest one first. Other comments are passed over. -/
def docComment? : List Tree → Option DocComment
  | []      => none
  | t :: ts =>
    match t.kind with
    | .blockComment =>
      if DocComment.opening.isPrefixOf t.text.toList then some (.ofText t.text) else docComment? ts
    | .lineComment => docComment? ts
    | _            => none

/-! ### Members -/

/-- A parameter or a record component, described by `doc`. -/
def parameter? (doc : DocComment) (t : Tree) : Option Member := do
  let name := (← t.child? .name).text
  let type := (← t.child? .type).type
  return {
    name
    type := withDimensions type (t.child? .dimensions)
    required := AnnotationUse.anyRequired t.annotations
    range := AnnotationUse.rangeText? t.annotations
    description := doc.parameter? name }

/-- A parameter that takes any number of arguments is an array. Its type is the first child that
is neither the modifiers nor the variable. -/
def spreadParameter? (doc : DocComment) (t : Tree) : Option Member := do
  let type ← t.namedChildren.find? fun c => c.kind ≠ .modifiers && c.kind ≠ .variableDeclarator
  let declarator ← t.namedChildren.find? (·.kind = .variableDeclarator)
  let name := (← declarator.child? .name).text
  return {
    name
    type := .array type.type
    required := AnnotationUse.anyRequired t.annotations
    range := AnnotationUse.rangeText? t.annotations
    description := doc.parameter? name }

/-- The parameters of a method. -/
def parameters (doc : DocComment) (t : Tree) : List Member :=
  match t.child? .parameters with
  | none      => []
  | some list => list.namedChildren.filterMap fun p =>
    match p.kind with
    | .formalParameter => p.parameter? doc
    | .spreadParameter => p.spreadParameter? doc
    | _                => none

/-- The components of a record. -/
def components (t : Tree) : List Member :=
  match t.child? .parameters with
  | none      => []
  | some list =>
    (list.namedChildren.filter (·.kind = .formalParameter)).filterMap (parameter? {})

/-- The fields that a declaration of fields gives rise to, one for each variable. -/
def declaredFields (before : List Tree) (t : Tree) : List Member :=
  match t.child? .type with
  | none      => []
  | some type =>
    let doc := (docComment? before).getD {}
    (t.childrenWith .declarator).filterMap fun d =>
      (d.child? .name).map fun n =>
        { name := n.text
          type := withDimensions type.type (d.child? .dimensions)
          required := AnnotationUse.anyRequired t.annotations
          range := AnnotationUse.rangeText? t.annotations
          description := doc.summary }

/-- The method that a tree declares. -/
def method? (package owner : String) (before : List Tree) (t : Tree) : Option Method := do
  let name := (← t.child? .name).text
  let returnType := (← t.child? .type).type
  let doc := (docComment? before).getD {}
  return {
    name, package, declaringType := owner, returnType
    parameters := t.parameters doc
    description := doc.summary
    returnDescription := doc.returns }

/-! ### Bodies -/

/-- A tree with the trees in front of it, the nearest one first. -/
structure Placed where
  before : List Tree
  tree : Tree
deriving Inhabited, Repr

mutual

/-- The members in the body of a declaration; those behind the constants of an enum count as
members of the body. -/
def members : Tree → List Placed
  | .leaf _ _ _ _ => []
  | .node _ _ ts  => membersBehind [] ts
termination_by structural t => t

/-- The members among some trees, where `before` stand in front of them. -/
def membersBehind (before : List Tree) : List Tree → List Placed
  | []      => []
  | t :: ts =>
    (if t.kind = .enumBodyDeclarations then t.members else [⟨before, t⟩])
      ++ membersBehind (t :: before) ts
termination_by structural ts => ts

end

/-- The fields declared by a member. -/
def Placed.fields (p : Placed) : List Member :=
  if p.tree.kind = .fieldDeclaration && !p.tree.isStatic then p.tree.declaredFields p.before
  else []

/-- The method declared by a member, if it is one. -/
def Placed.method? (package owner : String) (p : Placed) : Option Method :=
  if p.tree.kind = .methodDeclaration && !p.tree.isStatic then
    p.tree.method? package owner p.before
  else none

/-- The enum constant that a member is. -/
def Placed.constant? (p : Placed) : Option String :=
  if p.tree.kind = .enumConstant then (p.tree.child? .name).map text else none

/-! ### Declarations -/

/-- The kind of declaration that a kind of node stands for. -/
def declarationKind? : Kind → Option DeclarationKind
  | .classDeclaration     => some .classType
  | .interfaceDeclaration => some .interfaceType
  | .enumDeclaration      => some .enumType
  | .recordDeclaration    => some .recordType
  | _                     => none

/-- The names of the type parameters of a declaration. -/
def typeParameterNames (t : Tree) : List String :=
  match t.child? .typeParameters with
  | none      => []
  | some list => (list.namedChildren.filter (·.kind = .typeParameter)).filterMap fun p =>
    (p.namedChildren.find? fun c => c.kind = .typeIdentifier || c.kind = .identifier).map text

/-- The superclass of a class. -/
def superclass? (t : Tree) : Option TypeExpr := do
  let s ← t.child? .superclass
  let type ← s.namedChildren.head?
  return type.type

/-- The declaration of the type `name`, with the members of its own body. -/
def declaration (package path : String) (kind : DeclarationKind) (name : String)
    (before : List Tree) (t : Tree) : Declaration :=
  let ms := match t.child? .body with
    | some b => b.members
    | none   => []
  { name, package, kind, path
    typeParameters := t.typeParameterNames
    superclass := if kind = .classType then t.superclass? else none
    fields := (if kind = .recordType then t.components else []) ++ ms.flatMap Placed.fields
    methods := ms.filterMap (Placed.method? package name)
    constants := ms.filterMap Placed.constant?
    description := (docComment? before).bind (·.summary) }

mutual

/-- The declarations that a tree gives rise to, if it declares a type: first those in its body,
then its own. -/
def declarationsAt (package path : String) (before : List Tree) : Tree → List Declaration
  | .leaf _ _ _ _ => []
  | .node role kind ts =>
    let t := Tree.node role kind ts
    match declarationKind? kind, t.child? .name with
    | some k, some name =>
      bodyDeclarations package path ts ++ [declaration package path k name.text before t]
    | _, _ => []
termination_by structural t => t

/-- The declarations in the first body among some trees. -/
def bodyDeclarations (package path : String) : List Tree → List Declaration
  | []      => []
  | t :: ts =>
    if t.role = some .body then declarationsIn package path t else bodyDeclarations package path ts
termination_by structural ts => ts

/-- The declarations in a body. -/
def declarationsIn (package path : String) : Tree → List Declaration
  | .leaf _ _ _ _ => []
  | .node _ _ ts  => declarationsBehind package path [] ts
termination_by structural t => t

/-- The declarations among some members, where `before` stand in front of them. -/
def declarationsBehind (package path : String) (before : List Tree) :
    List Tree → List Declaration
  | []      => []
  | t :: ts =>
    (if t.kind = .enumBodyDeclarations then declarationsIn package path t
     else declarationsAt package path before t)
      ++ declarationsBehind package path (t :: before) ts
termination_by structural ts => ts

end

/-- The name of the package of a compilation unit, as it is written. -/
def packageName (unit : Tree) : String :=
  match unit.namedChildren.find? (·.kind = .packageDeclaration) with
  | none   => ""
  | some p =>
    ((p.namedChildren.find? fun c => c.kind = .scopedIdentifier || c.kind = .identifier).map
      text).getD ""

/-- The declarations of a compilation unit. -/
def declarations (path : String) (unit : Tree) : List Declaration :=
  declarationsIn unit.packageName path unit

end Tree

end Java

end ServiceDocs
