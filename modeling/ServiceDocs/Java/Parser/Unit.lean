import ServiceDocs.Java.Parser.Member

/-!
# Declarations of types and compilation units

Recognisers for classes, interfaces, enums and records with the members in their bodies, and for
a whole source. What is no declaration is passed over up to the next semicolon, block or word
that begins a declaration, so the declarations behind it are still found.
-/

namespace ServiceDocs.Java.Parser

/-! ### Passing over what is not recognised -/

/-- The items that are passed over behind the first one, and the items behind them. -/
def brokenRest : Item → List Item → List Item × List Item
  | _,        []      => ([], [])
  | previous, i :: is =>
    if i.isSign ";" || i.isGroup "\x7b" then ([i], is)
    else if beginsAnew (some previous) i then ([], i :: is)
    else
      let (broken, rest) := brokenRest i is
      (i :: broken, rest)

/-- Pass over what is not recognised; at least the first item is taken. -/
def broken : List Item → List Piece × List Item
  | []      => ([], [])
  | i :: is =>
    if i.isSign ";" || i.isGroup "\x7b" then ([leaf .other i], is)
    else
      let (more, rest) := brokenRest i is
      (span .other (i :: more), rest)

/-! ### Declarations of types -/

/-- The superclass of a class, if there is one. -/
def superclass (fuel : Nat) (is : List Item) : List Piece × List Item :=
  match is with
  | e :: rest =>
    if e.isWord "extends" then
      match type? fuel rest with
      | some (t, rest) => ([(Piece.node .superclass [sign e, t]).withRole .superclass], rest)
      | none           => ([], is)
    else ([], is)
  | [] => ([], is)

/-- The constants of an enum, with the commas behind them. -/
def enumConstants : Nat → List Item → List Piece × List Item
  | 0,        is => ([], is)
  | fuel + 1, is =>
    match modifiers fuel is with
    | (ms, w :: rest) =>
      if w.word?.isSome then
        let (args, rest) := match rest with
          | a :: rest' => if a.isGroup "(" then ([leaf .other a], rest') else ([], rest)
          | []         => ([], [])
        let (body, rest) := match rest with
          | b :: rest' => if b.isGroup "\x7b" then ([leaf .other b], rest') else ([], rest)
          | []         => ([], [])
        let constant : Piece :=
          .node .enumConstant (ms ++ (leaf .identifier w).withRole .name :: args ++ body)
        match rest with
        | comma :: rest' =>
          if comma.isSign "," then
            let (cs, rest) := enumConstants fuel rest'
            (constant :: sign comma :: cs, rest)
          else ([constant], rest)
        | [] => ([constant], [])
      else ([], is)
    | _ => ([], is)

/-- The members behind the constants of an enum; a semicolon in front of them makes them a node. -/
def behindConstants (members : List Item → List Piece) : List Item → List Piece
  | []      => []
  | s :: is =>
    if s.isSign ";" then [.node .enumBodyDeclarations (sign s :: members is)]
    else members (s :: is)

mutual

/-- The declaration of a type behind its modifiers. -/
def typeDeclaration? : Nat → List Piece → List Item → Option (Piece × List Item)
  | 0,        _,  _  => none
  | fuel + 1, ms, is =>
    match is with
    | keyword :: w :: rest =>
      match keyword.word?, w.word? with
      | some "class", some _ => do
        let (tps, rest) ← typeParameters? fuel rest
        let (sup, rest) := superclass fuel rest
        typeEnd? fuel .classDeclaration .fieldDeclaration
          (ms ++ [sign keyword, (leaf .identifier w).withRole .name] ++ tps ++ sup) rest
      | some "interface", some _ => do
        let (tps, rest) ← typeParameters? fuel rest
        typeEnd? fuel .interfaceDeclaration .constantDeclaration
          (ms ++ [sign keyword, (leaf .identifier w).withRole .name] ++ tps) rest
      | some "record", some _ => do
        let (tps, rest) ← typeParameters? fuel rest
        let (params, rest) ← parameters? fuel rest
        typeEnd? fuel .recordDeclaration .fieldDeclaration
          (ms ++ [sign keyword, (leaf .identifier w).withRole .name] ++ tps ++ [params]) rest
      | some "enum", some _ => do
        let (clauses, rest) := upToBlock rest
        match rest with
        | .group o is c :: rest =>
          let (cs, members) := enumConstants fuel is
          let ds := behindConstants (memberPieces fuel .fieldDeclaration) members
          let body : Piece := .node .body <|
            o.piece .sign :: (cs ++ ds) ++ c.toList.map (Token.piece · .sign)
          return (.node .enumDeclaration
            (ms ++ [sign keyword, (leaf .identifier w).withRole .name] ++ span .other clauses
              ++ [body.withRole .body]), rest)
        | _ => none
      | some "@interface", some _ =>
        match upToBlock rest with
        | (_, b :: rest) =>
          if b.isGroup "\x7b" then
            some (.node .other (ms ++ [sign keyword, leaf .identifier w] ++ b.pieces), rest)
          else none
        | _ => none
      | _, _ => none
    | _ => none
termination_by structural fuel => fuel

/-- The clauses and the body behind the head of a declaration of a type. Its fields become nodes
of the kind `fields`. -/
def typeEnd? : Nat → Kind → Kind → List Piece → List Item → Option (Piece × List Item)
  | 0,        _,    _,      _,    _  => none
  | fuel + 1, kind, fields, head, is =>
    let (clauses, rest) := upToBlock is
    match rest with
    | .group o is c :: rest =>
      let body : Piece := .node .body <|
        o.piece .sign :: memberPieces fuel fields is ++ c.toList.map (Token.piece · .sign)
      some (.node kind (head ++ span .other clauses ++ [body.withRole .body]), rest)
    | _ => none
termination_by structural fuel => fuel

/-- A member of a type. Its fields become nodes of the kind `fields`. -/
def member? : Nat → Kind → List Item → Option (Piece × List Item)
  | 0,        _,      _  => none
  | fuel + 1, fields, is =>
    let (ms, rest) := modifiers fuel is
    typeDeclaration? fuel ms rest
      <|> initializer? ms rest
      <|> method? fuel ms rest
      <|> constructor? fuel ms rest
      <|> field? fuel fields ms rest
termination_by structural fuel => fuel

/-- The members in the body of a type. -/
def memberPieces : Nat → Kind → List Item → List Piece
  | 0,        _,      _  => []
  | fuel + 1, fields, is =>
    if is.isEmpty then []
    else match member? fuel fields is with
      | some (p, rest) => p :: memberPieces fuel fields rest
      | none           =>
        let (ps, rest) := broken is
        ps ++ memberPieces fuel fields rest
termination_by structural fuel => fuel

end

/-! ### Compilation units -/

/-- The declaration of the package. -/
def package? (fuel : Nat) (is : List Item) : Option (Piece × List Item) := do
  let (as, rest) := annotations fuel is
  match rest with
  | p :: rest =>
    guard (p.isWord "package")
    let (n, rest) ← name? rest
    let (end', rest) := semicolon rest
    return (.node .packageDeclaration (as ++ [sign p, n] ++ end'), rest)
  | [] => none

/-- An import, up to its semicolon. -/
def import? (is : List Item) : Option (Piece × List Item) :=
  if startsWithWord "import" is then
    let (path, rest) := (is.takeWhile fun i => !i.isSign ";", is.dropWhile fun i => !i.isSign ";")
    let (end', rest) := semicolon rest
    some (.node .other (Item.piecesAll path ++ end'), rest)
  else none

/-- The declarations of a source. -/
def unitPieces : Nat → List Item → List Piece
  | 0,        _  => []
  | fuel + 1, is =>
    if is.isEmpty then []
    else match package? fuel is <|> import? is <|> member? fuel .other is with
      | some (p, rest) => p :: unitPieces fuel rest
      | none           =>
        let (ps, rest) := broken is
        ps ++ unitPieces fuel rest

/-- The syntax tree of some tokens, with the comments behind the last one. -/
def unit (ts : List Token) (comments : List Comment) : Tree :=
  let fuel := 8 * ts.length + 64
  let pieces := unitPieces fuel (Item.ofTokens ts)
  .node none .program (pieces.flatMap Piece.trees ++ comments.map Comment.tree)

end ServiceDocs.Java.Parser

namespace ServiceDocs.Java

/-- The syntax tree of a source. -/
def Tree.ofSource (source : String) : Tree :=
  let (ts, comments) := Token.ofSource source
  Parser.unit ts comments

end ServiceDocs.Java
