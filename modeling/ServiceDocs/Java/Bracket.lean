import ServiceDocs.Java.Token

/-!
# Bracketed tokens

Before declarations are recognised, tokens are grouped by their brackets, so that a block or a
parameter list is a single item among its neighbours. Angle brackets are signs like any other.

Brackets need not match: a closing brace closes what is still open inside its braces, the end of
the source closes everything, and a closing bracket without an opening one counts as a sign.
-/

namespace ServiceDocs.Java

/-- A token, or a pair of brackets with the items between them. -/
inductive Item where
  | token (t : Token)
  | group (opening : Token) (items : List Item) (closing : Option Token)
deriving Inhabited, Repr

namespace Item

/-! ### Grouping -/

/-- An opening bracket with the items in front of it, in reverse. -/
structure Frame where
  opening : Token
  before : List Item
deriving Inhabited, Repr

/-- The token is a sign with the given text. -/
def isSignToken (t : Token) (s : String) : Bool :=
  t.cls = .sign && t.text = s

/-- The token opens a bracket. -/
def opens (t : Token) : Bool :=
  isSignToken t "(" || isSignToken t "[" || isSignToken t "\x7b"

/-- The token closes the bracket that `opening` opens. -/
def closes (opening t : Token) : Bool :=
  (isSignToken opening "(" && isSignToken t ")")
    || (isSignToken opening "[" && isSignToken t "]")
    || (isSignToken opening "\x7b" && isSignToken t "\x7d")

/-- The closing bracket `t` may end a group that `opening` opens although it does not fit: braces
reach over parentheses and brackets, parentheses over brackets. -/
def reaches (opening t : Token) : Bool :=
  (isSignToken t "\x7d" && !isSignToken opening "\x7b")
    || (isSignToken t ")" && isSignToken opening "[")

/-- Close the innermost bracket that `t` fits, and everything inside it; `none` if `t` fits no
bracket. The items read last are `items`, in reverse. -/
def closeWith (t : Token) (items : List Item) : List Frame → Option (List Item × List Frame)
  | []      => none
  | f :: fs =>
    if closes f.opening t then
      some (.group f.opening items.reverse (some t) :: f.before, fs)
    else if reaches f.opening t then
      closeWith t (.group f.opening items.reverse none :: f.before) fs
    else none

/-- Close all open brackets. -/
def closeAll (items : List Item) : List Frame → List Item
  | []      => items.reverse
  | f :: fs => closeAll (.group f.opening items.reverse none :: f.before) fs

/-- Group tokens by their brackets, where `items` have been read behind the last open bracket. -/
def groupFrom (items : List Item) (frames : List Frame) : List Token → List Item
  | []      => closeAll items frames
  | t :: ts =>
    if opens t then groupFrom [] (⟨t, items⟩ :: frames) ts
    else match closeWith t items frames with
      | some (items, frames) => groupFrom items frames ts
      | none                 => groupFrom (.token t :: items) frames ts

/-- Group tokens by their brackets. -/
def ofTokens (ts : List Token) : List Item :=
  groupFrom [] [] ts

/-! ### Looking at items -/

/-- The text of a word. -/
def word? : Item → Option String
  | .token t     => if t.cls = .word then some t.text else none
  | .group _ _ _ => none

/-- The item is the given word. -/
def isWord (s : String) (i : Item) : Bool :=
  i.word? = some s

/-- The item is the given sign. -/
def isSign (s : String) : Item → Bool
  | .token t     => isSignToken t s
  | .group _ _ _ => false

/-- The item is a group in the given brackets. -/
def isGroup (s : String) : Item → Bool
  | .token _           => false
  | .group opening _ _ => isSignToken opening s

/-! ### Pieces -/

mutual

/-- The tokens of an item, as anonymous leaves. -/
def pieces : Item → List Piece
  | .token t                           => [t.piece .sign]
  | .group opening items none          => opening.piece .sign :: piecesAll items
  | .group opening items (some closing) =>
    opening.piece .sign :: piecesAll items ++ [closing.piece .sign]
termination_by structural i => i

/-- The tokens of items, as anonymous leaves. -/
def piecesAll : List Item → List Piece
  | []      => []
  | i :: is => i.pieces ++ piecesAll is
termination_by structural is => is

end

end Item

end ServiceDocs.Java
