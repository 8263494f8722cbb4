/-!
# Syntax trees

The concrete syntax tree of a Java source. A leaf is a token or a comment with the white space
in front of it, so the text of a node can be read off its leaves. Punctuation and keywords are
anonymous leaves; every other node has a kind of its own. A node may have a role in the node
above it.

A comment may stand anywhere. It belongs to the lowest node that has tokens on both sides of it.
-/

namespace ServiceDocs.Java

/-- The kinds of nodes. -/
inductive Kind where
  /-- Punctuation or a keyword. -/
  | sign
  | lineComment
  | blockComment
  /-- Text that is no part of a declaration, such as a statement. -/
  | other
  /-- An expression or the initial value of a variable. -/
  | expression
  | program
  | packageDeclaration
  | identifier
  | scopedIdentifier
  | classDeclaration
  | interfaceDeclaration
  | enumDeclaration
  | recordDeclaration
  /-- The body of a declaration of a type. -/
  | body
  /-- The members of an enum behind its constants. -/
  | enumBodyDeclarations
  | enumConstant
  | fieldDeclaration
  /-- A field of an interface. -/
  | constantDeclaration
  | methodDeclaration
  | variableDeclarator
  | formalParameters
  | formalParameter
  /-- A parameter that takes any number of arguments. -/
  | spreadParameter
  /-- The object on which a method is called, written as a parameter. -/
  | receiverParameter
  | modifiers
  | annotationUse
  | annotationArguments
  | elementValuePair
  | typeParameters
  | typeParameter
  | typeBound
  | superclass
  /-- A primitive type or `void`. -/
  | primitiveType
  | typeIdentifier
  | scopedTypeIdentifier
  | genericType
  | typeArguments
  | arrayType
  | dimensions
  | wildcard
  | annotatedType
  /-- The keyword `super`. -/
  | super
deriving DecidableEq, Inhabited, Repr

/-- The roles that a node may have in the node above it. -/
inductive Role where
  | name
  | type
  | body
  | superclass
  | parameters
  | typeParameters
  | declarator
  | dimensions
  | element
  | arguments
  | key
  | value
deriving DecidableEq, Inhabited, Repr

/-- A syntax tree. -/
inductive Tree where
  /-- A token or a comment, with the white space in front of it. -/
  | leaf (role : Option Role) (kind : Kind) (gap text : String)
  | node (role : Option Role) (kind : Kind) (children : List Tree)
deriving Inhabited, Repr

namespace Tree

/-! ### Parts of a tree -/

/-- The role of a tree in the node above it. -/
def role : Tree → Option Role
  | .leaf r _ _ _ => r
  | .node r _ _   => r

/-- The kind of a tree. -/
def kind : Tree → Kind
  | .leaf _ k _ _ => k
  | .node _ k _   => k

/-- The trees directly below the root. -/
def children : Tree → List Tree
  | .leaf _ _ _ _ => []
  | .node _ _ ts  => ts

/-- Give a role to a tree. -/
def withRole (r : Role) : Tree → Tree
  | .leaf _ k g t => .leaf (some r) k g t
  | .node _ k ts  => .node (some r) k ts

/-- The tree is more than punctuation or a keyword. -/
def isNamed (t : Tree) : Bool :=
  t.kind ≠ .sign

/-- The tree is a comment. -/
def isComment (t : Tree) : Bool :=
  t.kind = .lineComment || t.kind = .blockComment

/-- The trees directly below the root, without punctuation and keywords. -/
def namedChildren (t : Tree) : List Tree :=
  t.children.filter isNamed

/-- The first tree below the root that has the given role. -/
def child? (t : Tree) (r : Role) : Option Tree :=
  t.children.find? (·.role = some r)

/-- The trees below the root that have the given role. -/
def childrenWith (t : Tree) (r : Role) : List Tree :=
  t.children.filter (·.role = some r)

/-! ### Text -/

mutual

/-- The text of a tree with the white space in front of it. -/
def fullText : Tree → String
  | .leaf _ _ gap text => gap ++ text
  | .node _ _ ts       => fullTextAll ts
termination_by structural t => t

/-- The text of several trees in a row. -/
def fullTextAll : List Tree → String
  | []      => ""
  | t :: ts => t.fullText ++ fullTextAll ts
termination_by structural ts => ts

end

/-- The text of a tree, from its first to its last character. -/
def text : Tree → String
  | .leaf _ _ _ text    => text
  | .node _ _ []        => ""
  | .node _ _ (t :: ts) => t.text ++ fullTextAll ts

end Tree

/-! ### Pieces -/

/-- A comment with the white space in front of it. -/
structure Comment where
  isBlock : Bool
  gap : String
  text : String
deriving DecidableEq, Inhabited, Repr

/-- The leaf of a comment. -/
def Comment.tree (c : Comment) : Tree :=
  .leaf none (if c.isBlock then .blockComment else .lineComment) c.gap c.text

/-- A tree with the comments in front of it, which do not belong to it. -/
structure Piece where
  comments : List Comment
  tree : Tree
deriving Inhabited, Repr

namespace Piece

/-- Give a role to the tree of a piece. -/
def withRole (r : Role) (p : Piece) : Piece :=
  { p with tree := p.tree.withRole r }

/-- The tree with its comments in front. -/
def trees (p : Piece) : List Tree :=
  p.comments.map Comment.tree ++ [p.tree]

/-- Join pieces into a node. The comments in front of the first piece stay in front of the node;
all other comments become children of the node. -/
def node (kind : Kind) : List Piece → Piece
  | []      => ⟨[], .node none kind []⟩
  | p :: ps => ⟨p.comments, .node none kind (p.tree :: ps.flatMap trees)⟩

end Piece

end ServiceDocs.Java
