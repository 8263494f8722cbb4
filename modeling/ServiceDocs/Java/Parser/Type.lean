import ServiceDocs.Java.Bracket

/-!
# Annotations and types

Recognisers for annotations, types, type arguments and type parameters. A recogniser takes the
items that are left and gives the piece it has found with the items behind it, or `none`.

Recursion is bounded by an amount of fuel; the number of tokens of a source, with a factor for
the calls that take no token, is always enough.
-/

namespace ServiceDocs.Java.Parser

/-! ### Single items -/

/-- An item as a leaf of the given kind; a group becomes a node. -/
def leaf (kind : Kind) : Item → Piece
  | .token t            => t.piece kind
  | .group opening is c => .node .other (Item.group opening is c).pieces

/-- An anonymous leaf. -/
def sign : Item → Piece :=
  leaf .sign

/-- The first item is the given sign. -/
def startsWith (s : String) : List Item → Bool
  | i :: _ => i.isSign s
  | []     => false

/-- The first item is the given word. -/
def startsWithWord (s : String) : List Item → Bool
  | i :: _ => i.isWord s
  | []     => false

/-- The first item is a group in the given brackets. -/
def startsWithGroup (s : String) : List Item → Bool
  | i :: _ => i.isGroup s
  | []     => false

/-! ### Names and annotations -/

/-- The parts of a name behind its first word. -/
def nameRest : List Item → List Piece × List Item
  | dot :: w :: is =>
    if dot.isSign "." && w.word?.isSome then
      let (ps, rest) := nameRest is
      (sign dot :: leaf .identifier w :: ps, rest)
    else ([], dot :: w :: is)
  | is => ([], is)

/-- A name, which may be qualified. -/
def name? : List Item → Option (Piece × List Item)
  | w :: is =>
    if w.word?.isSome then
      match nameRest is with
      | ([], rest) => some (leaf .identifier w, rest)
      | (ps, rest) => some (.node .scopedIdentifier (leaf .identifier w :: ps), rest)
    else none
  | [] => none

/-- Cut items at commas; each part but the last comes with the comma behind it. -/
def splitCommas : List Item → List (List Item × Option Item)
  | []      => [([], none)]
  | i :: is =>
    if i.isSign "," then ([], some i) :: splitCommas is
    else match splitCommas is with
      | (part, comma) :: parts => (i :: part, comma) :: parts
      | []                     => [([i], none)]

/-- Items whose structure does not matter, as one node; no items give no node. -/
def span (kind : Kind) (is : List Item) : List Piece :=
  if is.isEmpty then [] else [.node kind (Item.piecesAll is)]

/-- An argument of an annotation: a key with a value, or a value alone. -/
def annotationArgument : List Item → List Piece
  | k :: eq :: v :: vs =>
    if k.word?.isSome && eq.isSign "=" then
      [.node .elementValuePair <|
        [(leaf .identifier k).withRole .key, sign eq]
          ++ (span .expression (v :: vs)).map (Piece.withRole .value)]
    else span .expression (k :: eq :: v :: vs)
  | is => span .expression is

/-- The arguments between the parentheses of an annotation. A single argument may hold commas
only if it starts with no key. -/
def annotationArguments (is : List Item) : List Piece :=
  let keyed := match is with
    | k :: eq :: _ => k.word?.isSome && eq.isSign "="
    | _            => false
  if keyed then
    (splitCommas is).flatMap fun (part, comma) =>
      annotationArgument part ++ comma.toList.map sign
  else span .expression is

/-- An annotation. -/
def annotationUse? : List Item → Option (Piece × List Item)
  | sgn :: is =>
    if sgn.isSign "@" then
      match name? is with
      | some (n, .group o args c :: rest) =>
        let parts := [sign sgn, n.withRole .name]
        if Item.isSignToken o "(" then
          let list := Piece.node .annotationArguments <|
            o.piece .sign :: annotationArguments args ++ c.toList.map (Token.piece · .sign)
          some (.node .annotationUse (parts ++ [list.withRole .arguments]), rest)
        else some (.node .annotationUse parts, .group o args c :: rest)
      | some (n, rest) => some (.node .annotationUse [sign sgn, n.withRole .name], rest)
      | none           => none
    else none
  | [] => none

/-- All annotations at the beginning. -/
def annotations : Nat → List Item → List Piece × List Item
  | 0,        is => ([], is)
  | fuel + 1, is =>
    match annotationUse? is with
    | some (a, rest) =>
      let (as, rest) := annotations fuel rest
      (a :: as, rest)
    | none => ([], is)

/-! ### Dimensions -/

/-- The brackets of an array without anything between them. -/
def emptyBrackets : Item → Bool
  | .group o is _ => Item.isSignToken o "[" && is.isEmpty
  | .token _      => false

/-- All pairs of empty brackets at the beginning, each with its annotations. -/
def dimensionPieces : Nat → List Item → List Piece × List Item
  | 0,        is => ([], is)
  | fuel + 1, is =>
    match annotations fuel is with
    | (as, b :: rest) =>
      if emptyBrackets b then
        let (ps, rest) := dimensionPieces fuel rest
        (as ++ b.pieces ++ ps, rest)
      else ([], is)
    | _ => ([], is)

/-- The dimensions of an array; no brackets give no node. -/
def dimensions (fuel : Nat) (is : List Item) : List Piece × List Item :=
  match dimensionPieces fuel is with
  | ([], rest) => ([], rest)
  | (ps, rest) => ([(Piece.node .dimensions ps).withRole .dimensions], rest)

/-! ### Types -/

/-- The words for primitive types and `void`. -/
def primitives : List String :=
  ["void", "byte", "short", "int", "long", "char", "float", "double", "boolean"]

mutual

/-- A type without annotations in front of it. -/
def plainType? : Nat → List Item → Option (Piece × List Item)
  | 0,        _  => none
  | fuel + 1, is =>
    match is with
    | w :: rest =>
      match w.word? with
      | none      => none
      | some text =>
        let (base, rest) :=
          if primitives.contains text then (leaf .primitiveType w, rest)
          else typeSuffix fuel false (leaf .typeIdentifier w) rest
        match dimensions fuel rest with
        | ([], rest) => some (base, rest)
        | (ds, rest) => some (.node .arrayType (base.withRole .element :: ds), rest)
    | [] => none
termination_by structural fuel => fuel

/-- Continue a type by type arguments, unless it ends with some, and by the names behind dots. -/
def typeSuffix : Nat → Bool → Piece → List Item → Piece × List Item
  | 0,        _,      p, is => (p, is)
  | fuel + 1, hasArgs, p, is =>
    if startsWith "<" is && !hasArgs then
      match typeArguments? fuel is with
      | some (args, rest) => typeSuffix fuel true (.node .genericType [p, args]) rest
      | none              => (p, is)
    else match is with
      | dot :: rest =>
        if dot.isSign "." then
          match annotations fuel rest with
          | (as, w :: rest) =>
            if w.word?.isSome then
              typeSuffix fuel false
                (.node .scopedTypeIdentifier (p :: sign dot :: as ++ [leaf .typeIdentifier w])) rest
            else (p, is)
          | _ => (p, is)
        else (p, is)
      | [] => (p, is)
termination_by structural fuel => fuel

/-- Type arguments between angle brackets. -/
def typeArguments? : Nat → List Item → Option (Piece × List Item)
  | 0,        _  => none
  | fuel + 1, is =>
    match is with
    | open' :: close :: rest =>
      if open'.isSign "<" then
        if close.isSign ">" then some (.node .typeArguments [sign open', sign close], rest)
        else match typeArgumentList? fuel (close :: rest) with
          | some (ps, rest) => some (.node .typeArguments (sign open' :: ps), rest)
          | none            => none
      else none
    | _ => none
termination_by structural fuel => fuel

/-- The arguments up to the closing angle bracket. -/
def typeArgumentList? : Nat → List Item → Option (List Piece × List Item)
  | 0,        _  => none
  | fuel + 1, is =>
    match typeArgument? fuel is with
    | some (a, s :: rest) =>
      if s.isSign ">" then some ([a, sign s], rest)
      else if s.isSign "," then
        match typeArgumentList? fuel rest with
        | some (ps, rest) => some (a :: sign s :: ps, rest)
        | none            => none
      else none
    | _ => none
termination_by structural fuel => fuel

/-- A type argument: a type or a wildcard. -/
def typeArgument? : Nat → List Item → Option (Piece × List Item)
  | 0,        _  => none
  | fuel + 1, is =>
    match annotations fuel is with
    | (as, q :: rest) =>
      if q.isSign "?" then
        match rest with
        | b :: rest' =>
          if b.isWord "extends" || b.isWord "super" then
            let keyword := if b.isWord "super" then leaf .super b else sign b
            match type? fuel rest' with
            | some (t, rest) => some (.node .wildcard (as ++ [sign q, keyword, t]), rest)
            | none           => none
          else some (.node .wildcard (as ++ [sign q]), rest)
        | [] => some (.node .wildcard (as ++ [sign q]), rest)
      else type? fuel is
    | _ => none
termination_by structural fuel => fuel

/-- A type, which may have annotations in front of it. -/
def type? : Nat → List Item → Option (Piece × List Item)
  | 0,        _  => none
  | fuel + 1, is =>
    match annotations fuel is with
    | ([], is) => plainType? fuel is
    | (as, is) =>
      match plainType? fuel is with
      | some (t, rest) => some (.node .annotatedType (as ++ [t]), rest)
      | none           => none
termination_by structural fuel => fuel

end

/-! ### Type parameters -/

/-- The types behind `extends` in a type parameter. -/
def boundTypes? : Nat → List Item → Option (List Piece × List Item)
  | 0,        _  => none
  | fuel + 1, is =>
    match type? fuel is with
    | some (t, amp :: rest) =>
      if amp.isSign "&" then
        match boundTypes? fuel rest with
        | some (ts, rest) => some (t :: sign amp :: ts, rest)
        | none            => none
      else some ([t], amp :: rest)
    | some (t, []) => some ([t], [])
    | none         => none

/-- A type parameter with its bound. -/
def typeParameter? (fuel : Nat) (is : List Item) : Option (Piece × List Item) :=
  match annotations fuel is with
  | (as, w :: rest) =>
    if w.word?.isSome then
      match rest with
      | e :: rest' =>
        if e.isWord "extends" then
          match boundTypes? fuel rest' with
          | some (ts, rest) =>
            some (.node .typeParameter
              (as ++ [leaf .typeIdentifier w, .node .typeBound (sign e :: ts)]), rest)
          | none => none
        else some (.node .typeParameter (as ++ [leaf .typeIdentifier w]), rest)
      | [] => some (.node .typeParameter (as ++ [leaf .typeIdentifier w]), rest)
    else none
  | _ => none

/-- Type parameters up to the closing angle bracket. -/
def typeParameterList? : Nat → List Item → Option (List Piece × List Item)
  | 0,        _  => none
  | fuel + 1, is =>
    match typeParameter? fuel is with
    | some (p, s :: rest) =>
      if s.isSign ">" then some ([p, sign s], rest)
      else if s.isSign "," then
        match typeParameterList? fuel rest with
        | some (ps, rest) => some (p :: sign s :: ps, rest)
        | none            => none
      else none
    | _ => none

/-- The type parameters of a declaration, if there are any. -/
def typeParameters? (fuel : Nat) (is : List Item) : Option (List Piece × List Item) :=
  match is with
  | open' :: rest =>
    if open'.isSign "<" then
      match typeParameterList? fuel rest with
      | some (ps, rest) =>
        some ([(Piece.node .typeParameters (sign open' :: ps)).withRole .typeParameters], rest)
      | none => none
    else some ([], is)
  | [] => some ([], is)

end ServiceDocs.Java.Parser
