import ServiceDocs.Json.Basic

/-!
# JSON text

The compact form of a value has no spaces. The pretty form puts each item and each member on a
line of its own, indented by two spaces for each level, and writes an empty array or object as
`[]` or `{}`.

In strings the quote, the backslash and the control characters below U+0020 are escaped, and
nothing else is.
-/

namespace ServiceDocs.Json

/-! ### Strings -/

/-- The lower case hexadecimal digit of `n < 16`. -/
def hexDigit (n : Nat) : Char :=
  if n < 10 then Char.ofNat (48 + n) else Char.ofNat (87 + n)

/-- The text of a character inside a string. -/
def escapeChar (c : Char) : List Char :=
  if c = '"' then ['\\', '"']
  else if c = '\\' then ['\\', '\\']
  else if c = '\n' then ['\\', 'n']
  else if c = '\r' then ['\\', 'r']
  else if c = '\t' then ['\\', 't']
  else if c.toNat = 0x08 then ['\\', 'b']
  else if c.toNat = 0x0C then ['\\', 'f']
  else if c.toNat < 0x20 then
    ['\\', 'u', '0', '0', hexDigit (c.toNat / 16), hexDigit (c.toNat % 16)]
  else [c]

/-- A string between quotes. -/
def quote (s : String) : List Char :=
  '"' :: s.toList.flatMap escapeChar ++ ['"']

/-! ### Compact form -/

mutual

/-- The characters of the compact form. -/
def compactChars : Json → List Char
  | .null    => ['n', 'u', 'l', 'l']
  | .bool b  => if b then ['t', 'r', 'u', 'e'] else ['f', 'a', 'l', 's', 'e']
  | .num n   => (toString n).toList
  | .real l  => l.toList
  | .str s   => quote s
  | .arr xs  => '[' :: compactItems xs ++ [']']
  | .obj ms  => '{' :: compactMembers ms ++ ['}']
termination_by structural x => x

/-- The items of an array, with commas between them. -/
def compactItems : List Json → List Char
  | []           => []
  | [x]          => x.compactChars
  | x :: y :: xs => x.compactChars ++ ',' :: compactItems (y :: xs)
termination_by structural x => x

/-- The members of an object, with commas between them. -/
def compactMembers : List (String × Json) → List Char
  | []                => []
  | [(k, v)]          => quote k ++ ':' :: v.compactChars
  | (k, v) :: m :: ms => quote k ++ ':' :: v.compactChars ++ ',' :: compactMembers (m :: ms)
termination_by structural x => x

end

/-- The compact form of a value. -/
def compact (j : Json) : String :=
  String.ofList j.compactChars

/-! ### Pretty form -/

/-- A line break followed by the indentation of `level`. -/
def newline (level : Nat) : List Char :=
  '\n' :: List.replicate (2 * level) ' '

mutual

/-- The characters of the pretty form, for a value that stands at `level`. -/
def prettyChars (level : Nat) : Json → List Char
  | .arr []        => ['[', ']']
  | .arr (x :: xs) =>
    '[' :: newline (level + 1) ++ prettyItems (level + 1) (x :: xs) ++ newline level ++ [']']
  | .obj []        => ['{', '}']
  | .obj (m :: ms) =>
    '{' :: newline (level + 1) ++ prettyMembers (level + 1) (m :: ms) ++ newline level ++ ['}']
  | .null          => compactChars .null
  | .bool b        => compactChars (.bool b)
  | .num n         => compactChars (.num n)
  | .real l        => compactChars (.real l)
  | .str s         => compactChars (.str s)
termination_by structural x => x

/-- The items of an array at `level`, each on its own line. -/
def prettyItems (level : Nat) : List Json → List Char
  | []           => []
  | [x]          => x.prettyChars level
  | x :: y :: xs => x.prettyChars level ++ ',' :: newline level ++ prettyItems level (y :: xs)
termination_by structural x => x

/-- The members of an object at `level`, each on its own line. -/
def prettyMembers (level : Nat) : List (String × Json) → List Char
  | []                => []
  | [(k, v)]          => quote k ++ ':' :: ' ' :: v.prettyChars level
  | (k, v) :: m :: ms =>
    quote k ++ ':' :: ' ' :: v.prettyChars level ++ ',' :: newline level
      ++ prettyMembers level (m :: ms)
termination_by structural x => x

end

/-- The pretty form of a value. -/
def pretty (j : Json) : String :=
  String.ofList (j.prettyChars 0)

end ServiceDocs.Json
