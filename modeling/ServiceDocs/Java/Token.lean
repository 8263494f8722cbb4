import ServiceDocs.Java.Letter
import ServiceDocs.Java.Tree

/-!
# Tokens

A source is cut into lexemes: white space, comments, words, numbers, quoted literals and signs.
Each token then takes the white space and the comments in front of it along.

Nothing is lost: the lexemes of a source make up its text.
-/

namespace ServiceDocs.Java

/-- The classes of lexemes. -/
inductive LexemeClass where
  | blank
  | lineComment
  | blockComment
  /-- An identifier or a keyword. -/
  | word
  | number
  /-- A string, a text block or a character. -/
  | quoted
  | sign
deriving DecidableEq, Inhabited, Repr

/-- The modifier that is a word although it has a hyphen. -/
def nonSealed : List Char :=
  "non-sealed".toList

/-- The keyword that is a word although it starts with a sign. -/
def atInterface : List Char :=
  "@interface".toList

/-- The text may be that of a word. -/
def isWord (text : List Char) : Bool :=
  text.all isIdentifierPart || text = nonSealed || text = atInterface

/-- The class and the text of a lexeme. -/
structure Lexeme where
  cls : LexemeClass
  text : List Char
  isWord_text : cls = .word → isWord text
deriving DecidableEq, Repr

namespace Lexeme

/-- A lexeme that is no word. -/
def plain (cls : LexemeClass) (text : List Char) (h : cls ≠ .word := by decide) : Lexeme :=
  ⟨cls, text, fun hcls => absurd hcls h⟩

instance : Inhabited Lexeme :=
  ⟨plain .blank []⟩

/-! ### Scanning -/

/-- The white space between tokens. -/
def isGap (c : Char) : Bool :=
  c = ' ' || (0x09 ≤ c.toNat && c.toNat ≤ 0x0D)

/-- The rest of a block comment, up to its closing delimiter. -/
def scanBlockComment : List Char → Option (List Char × List Char)
  | '*' :: '/' :: cs => some (['*', '/'], cs)
  | c :: cs          => (scanBlockComment cs).map fun (t, r) => (c :: t, r)
  | []               => none

/-- The rest of a literal that ends with the quote `q` on the same line. -/
def scanQuoted (q : Char) : List Char → Option (List Char × List Char)
  | '\\' :: c :: cs => (scanQuoted q cs).map fun (t, r) => ('\\' :: c :: t, r)
  | c :: cs         =>
    if c = q then some ([c], cs)
    else if c = '\n' then none
    else (scanQuoted q cs).map fun (t, r) => (c :: t, r)
  | []              => none

/-- The rest of a text block, up to its closing quotes. -/
def scanTextBlock : List Char → Option (List Char × List Char)
  | '\\' :: c :: cs        => (scanTextBlock cs).map fun (t, r) => ('\\' :: c :: t, r)
  | '"' :: '"' :: '"' :: cs => some (['"', '"', '"'], cs)
  | c :: cs                => (scanTextBlock cs).map fun (t, r) => (c :: t, r)
  | []                     => none

theorem isWord_run {c : Char} (hc : isIdentifierStart c) (cs : List Char) :
    isWord (c :: cs.takeWhile isIdentifierPart) := by
  simp [isWord, isIdentifierPart, hc]

/-- The word of a text that starts with `c`, and the text behind it. -/
def scanWord (c : Char) (hc : isIdentifierStart c) (cs : List Char) : Lexeme × List Char :=
  let rest := cs.dropWhile isIdentifierPart
  if nonSealed.isPrefixOf (c :: cs) && cs.takeWhile isIdentifierPart = ['o', 'n'] then
    (⟨.word, nonSealed, fun _ => rfl⟩, rest.drop "-sealed".length)
  else (⟨.word, c :: cs.takeWhile isIdentifierPart, fun _ => isWord_run hc cs⟩, rest)

/-- The first lexeme of a text that starts with `c`, and the text behind it. A delimiter that is
never closed counts as a sign. -/
def scan (c : Char) (cs : List Char) : Lexeme × List Char :=
  let sign : Lexeme × List Char := (plain .sign [c], cs)
  let quoted (opening : List Char) (rest : Option (List Char × List Char)) :
      Lexeme × List Char :=
    match rest with
    | some (t, r) => (plain .quoted (opening ++ t), r)
    | none        => sign
  if isGap c then (plain .blank (c :: cs.takeWhile isGap), cs.dropWhile isGap)
  else if hc : isIdentifierStart c then scanWord c hc cs
  else if c.isDigit then
    (plain .number (c :: cs.takeWhile isIdentifierPart), cs.dropWhile isIdentifierPart)
  else match c, cs with
    | '/',  '/' :: _         =>
      (plain .lineComment (c :: cs.takeWhile (· ≠ '\n')), cs.dropWhile (· ≠ '\n'))
    | '/',  '*' :: r         =>
      match scanBlockComment r with
      | some (t, r) => (plain .blockComment (['/', '*'] ++ t), r)
      | none        => sign
    | '"',  '"' :: '"' :: r  => quoted ['"', '"', '"'] (scanTextBlock r)
    | '"',  r                => quoted ['"'] (scanQuoted '"' r)
    | '\'', r                => quoted ['\''] (scanQuoted '\'' r)
    | '.',  '.' :: '.' :: r  => (plain .sign ['.', '.', '.'], r)
    | ':',  ':' :: r         => (plain .sign [':', ':'], r)
    | '-',  '>' :: r         => (plain .sign ['-', '>'], r)
    | '=',  '=' :: r         => (plain .sign ['=', '='], r)
    | '@',  'i' :: 'n' :: 't' :: 'e' :: 'r' :: 'f' :: 'a' :: 'c' :: 'e' :: r =>
      (⟨.word, atInterface, fun _ => rfl⟩, r)
    | _,    _                => sign

/-- The lexemes of a text of less than `fuel` characters. -/
def scanAll : Nat → List Char → List Lexeme
  | 0,        _       => []
  | _ + 1,    []      => []
  | fuel + 1, c :: cs =>
    let (l, rest) := scan c cs
    l :: scanAll fuel rest

/-- The lexemes of a source. A byte order mark at its beginning is passed over. -/
def ofSource (source : String) : List Lexeme :=
  match source.toList with
  | '\uFEFF' :: cs => scanAll (cs.length + 1) cs
  | cs             => scanAll (cs.length + 1) cs

end Lexeme

/-! ### Tokens -/

/-- A token with everything in front of it. -/
structure Token where
  /-- The comments in front of the token. -/
  comments : List Comment
  /-- The white space right in front of the token. -/
  gap : String
  lexeme : Lexeme
deriving Inhabited, Repr

namespace Token

/-- The class of a token. -/
def cls (t : Token) : LexemeClass :=
  t.lexeme.cls

/-- The text of a token. -/
def text (t : Token) : String :=
  String.ofList t.lexeme.text

/-- The tokens that some lexemes make up, and the comments behind the last one; `comments` and
`gap` have been read but belong to no token yet. -/
def ofLexemes (comments : List Comment) (gap : String) :
    List Lexeme → List Token × List Comment
  | []      => ([], comments)
  | l :: ls =>
    let text := String.ofList l.text
    match l.cls with
    | .blank        => ofLexemes comments (gap ++ text) ls
    | .lineComment  => ofLexemes (comments ++ [⟨false, gap, text⟩]) "" ls
    | .blockComment => ofLexemes (comments ++ [⟨true, gap, text⟩]) "" ls
    | _             =>
      let (ts, rest) := ofLexemes [] "" ls
      (⟨comments, gap, l⟩ :: ts, rest)

/-- The tokens of a source, and the comments behind the last one. -/
def ofSource (source : String) : List Token × List Comment :=
  ofLexemes [] "" (Lexeme.ofSource source)

/-- The token as a leaf of the given kind, with the comments in front of it. -/
def piece (t : Token) (kind : Kind) : Piece :=
  ⟨t.comments, .leaf none kind t.gap t.text⟩

end Token

end ServiceDocs.Java
