import ServiceDocs.Java.Parser.Type

/-!
# Members

Recognisers for modifiers, parameters, fields and methods. A missing semicolon at the end of a
field or a method is overlooked.
-/

namespace ServiceDocs.Java.Parser

/-! ### Modifiers -/

/-- The words that are always modifiers. -/
def modifierWords : List String :=
  ["public", "protected", "private", "abstract", "static", "final", "strictfp", "default",
   "synchronized", "native", "transient", "volatile", "non-sealed"]

/-- The words that begin the declaration of a type. -/
def typeWords : List String :=
  ["class", "interface", "enum", "@interface"]

/-- The item is one of the given words. -/
def isWordOf (ws : List String) (i : Item) : Bool :=
  match i.word? with
  | some w => ws.contains w
  | none   => false

/-- The first item is a modifier. The word `sealed` is one only in front of other words that
belong to the declaration of a type. -/
def startsWithModifier : List Item → Bool
  | i :: j :: _ =>
    isWordOf modifierWords i
      || (i.isWord "sealed" && (isWordOf modifierWords j || isWordOf typeWords j))
  | [i]         => isWordOf modifierWords i
  | []          => false

/-- All modifiers and annotations at the beginning. -/
def modifierPieces : Nat → List Item → List Piece × List Item
  | 0,        is => ([], is)
  | fuel + 1, is =>
    match annotationUse? is with
    | some (a, rest) =>
      let (ps, rest) := modifierPieces fuel rest
      (a :: ps, rest)
    | none =>
      match is with
      | i :: rest =>
        if startsWithModifier is then
          let (ps, rest) := modifierPieces fuel rest
          (sign i :: ps, rest)
        else ([], is)
      | [] => ([], is)

/-- The modifiers of a declaration; none give no node. -/
def modifiers (fuel : Nat) (is : List Item) : List Piece × List Item :=
  match modifierPieces fuel is with
  | ([], rest) => ([], rest)
  | (ps, rest) => ([.node .modifiers ps], rest)

/-! ### Values and declarators -/

/-- The item begins something new, although no semicolon stands in front of it. -/
def beginsAnew (previous : Option Item) (i : Item) : Bool :=
  match previous with
  | none                => false
  | some (.token t)     =>
    if t.cls = .number || t.cls = .quoted then i.word?.isSome && !i.isWord "instanceof"
    else isWordOf (modifierWords ++ typeWords) i && !(t.cls = .sign && (t.text = "." || t.text = "::"))
  | some (.group _ _ _) => isWordOf (modifierWords ++ typeWords) i

/-- The items of a value, up to a comma or a semicolon. Type arguments may hold commas. -/
def valuePieces : Nat → Option Item → List Item → List Piece × List Item
  | 0,        _,        is => ([], is)
  | fuel + 1, previous, is =>
    match is with
    | []      => ([], [])
    | i :: rest =>
      if i.isSign "," || i.isSign ";" || beginsAnew previous i then ([], is)
      else match typeArguments? fuel is with
        | some (p, rest) =>
          let (ps, rest) := valuePieces fuel none rest
          (p :: ps, rest)
        | none =>
          let (ps, rest) := valuePieces fuel (some i) rest
          (i.pieces ++ ps, rest)

/-- The initial value of a variable, if there is one. -/
def initialValue (fuel : Nat) (is : List Item) : List Piece × List Item :=
  match is with
  | eq :: rest =>
    if eq.isSign "=" then
      match valuePieces fuel none rest with
      | ([], rest) => ([sign eq], rest)
      | (ps, rest) => ([sign eq, (Piece.node .expression ps).withRole .value], rest)
    else ([], is)
  | [] => ([], is)

/-- A variable with its dimensions and its value. -/
def declarator? (fuel : Nat) : List Item → Option (Piece × List Item)
  | w :: rest =>
    if w.word?.isSome then
      let (ds, rest) := dimensions fuel rest
      let (vs, rest) := initialValue fuel rest
      some (.node .variableDeclarator ((leaf .identifier w).withRole .name :: ds ++ vs), rest)
    else none
  | [] => none

/-- Variables with commas between them. -/
def declarators? : Nat → List Item → Option (List Piece × List Item)
  | 0,        _  => none
  | fuel + 1, is =>
    match declarator? fuel is with
    | some (d, s :: rest) =>
      let d := d.withRole .declarator
      if s.isSign "," then
        match declarators? fuel rest with
        | some (ds, rest) => some (d :: sign s :: ds, rest)
        | none            => some ([d], s :: rest)
      else some ([d], s :: rest)
    | some (d, []) => some ([d.withRole .declarator], [])
    | none         => none

/-- A semicolon, if there is one. -/
def semicolon : List Item → List Piece × List Item
  | s :: rest => if s.isSign ";" then ([sign s], rest) else ([], s :: rest)
  | []        => ([], [])

/-! ### Parameters -/

/-- A parameter with its modifiers: an ordinary one, one that takes any number of arguments, or
the receiver, which has no modifiers. -/
def parameter? (fuel : Nat) (is : List Item) : Option (Piece × List Item) := do
  let (ms, rest) := modifiers fuel is
  let (type, rest) ← plainType? fuel rest
  let (as, afterAnnotations) := annotations fuel rest
  match afterAnnotations with
  | dots :: afterDots =>
    if dots.isSign "..." then
      let (bs, rest) := annotations fuel afterDots
      let (d, rest) ← declarator? fuel rest
      return (.node .spreadParameter (ms ++ [type] ++ as ++ [sign dots] ++ bs ++ [d]), rest)
  | [] => pure ()
  match rest with
  | w :: rest =>
    let text ← w.word?
    if ms.isEmpty && (text = "this" || startsWith "." rest) then
      let (ps, rest) := nameRest rest
      return (.node .receiverParameter ([type, leaf .identifier w] ++ ps), rest)
    else
      let (ds, rest) := dimensions fuel rest
      return (.node .formalParameter
        (ms ++ [type.withRole .type, (leaf .identifier w).withRole .name] ++ ds), rest)
  | [] => none

/-- Parameters with commas between them. What is no parameter is kept up to the next comma. -/
def parameterPieces (fuel : Nat) (is : List Item) : List Piece :=
  (splitParameters fuel is).flatMap id
where
  /-- The pieces of each parameter, with the comma behind it. -/
  splitParameters : Nat → List Item → List (List Piece)
    | 0,        _  => []
    | fuel + 1, is =>
      if is.isEmpty then []
      else
        let (ps, rest) := match parameter? fuel is with
          | some (p, rest) => ([p], rest)
          | none           => ([], is)
        let stray := rest.takeWhile fun i => !i.isSign ","
        match rest.dropWhile fun i => !i.isSign "," with
        | comma :: rest => (ps ++ span .other stray ++ [sign comma]) :: splitParameters fuel rest
        | []            => [ps ++ span .other stray]

/-- A parameter list in parentheses. -/
def parameters? (fuel : Nat) : List Item → Option (Piece × List Item)
  | .group o is c :: rest =>
    if Item.isSignToken o "(" then
      let ps := o.piece .sign :: parameterPieces fuel is ++ c.toList.map (Token.piece · .sign)
      some ((Piece.node .formalParameters ps).withRole .parameters, rest)
    else none
  | _ => none

/-! ### Fields and methods -/

/-- The items up to a block or a semicolon. -/
def upToBlock (is : List Item) : List Item × List Item :=
  let stops (i : Item) := i.isGroup "\x7b" || i.isSign ";"
  (is.takeWhile fun i => !stops i, is.dropWhile fun i => !stops i)

/-- The part of a method behind its parameters: exceptions, and a block or a semicolon. -/
def methodEnd (is : List Item) : List Piece × List Item :=
  let (exceptions, rest) := if startsWithWord "throws" is then upToBlock is else ([], is)
  match rest with
  | b :: rest' =>
    if b.isGroup "\x7b" then (span .other exceptions ++ [(leaf .other b).withRole .body], rest')
    else
      let (end', rest) := semicolon rest
      (span .other exceptions ++ end', rest)
  | [] => (span .other exceptions, [])

/-- A method behind its modifiers. -/
def method? (fuel : Nat) (ms : List Piece) (is : List Item) : Option (Piece × List Item) := do
  let (tps, rest) ← typeParameters? fuel is
  let (as, rest) := if tps.isEmpty then ([], rest) else annotations fuel rest
  let (type, rest) ← plainType? fuel rest
  match rest with
  | w :: rest =>
    guard w.word?.isSome
    let (params, rest) ← parameters? fuel rest
    let (ds, rest) := dimensions fuel rest
    let (end', rest) := methodEnd rest
    return (.node .methodDeclaration
      (ms ++ tps ++ as ++ [type.withRole .type, (leaf .identifier w).withRole .name, params]
        ++ ds ++ end'), rest)
  | [] => none

/-- A field behind its modifiers, as a node of the given kind. -/
def field? (fuel : Nat) (kind : Kind) (ms : List Piece) (is : List Item) :
    Option (Piece × List Item) := do
  let (type, rest) ← plainType? fuel is
  let (ds, rest) ← declarators? fuel rest
  let (end', rest) := semicolon rest
  return (.node kind (ms ++ [type.withRole .type] ++ ds ++ end'), rest)

/-- A constructor behind its modifiers; a compact one has no parameters. -/
def constructor? (fuel : Nat) (ms : List Piece) (is : List Item) : Option (Piece × List Item) := do
  let (tps, rest) ← typeParameters? fuel is
  match rest with
  | w :: rest =>
    guard w.word?.isSome
    match parameters? fuel rest with
    | some (params, rest) =>
      let (end', rest) := methodEnd rest
      return (.node .other (ms ++ tps ++ [leaf .identifier w, params] ++ end'), rest)
    | none =>
      guard (startsWithGroup "\x7b" rest)
      let (end', rest) := methodEnd rest
      return (.node .other (ms ++ leaf .identifier w :: end'), rest)
  | [] => none

/-- A block of a type, or a static one, behind its modifiers. -/
def initializer? (ms : List Piece) : List Item → Option (Piece × List Item)
  | b :: rest => if b.isGroup "\x7b" then some (.node .other (ms ++ b.pieces), rest) else none
  | []        => none

end ServiceDocs.Java.Parser
