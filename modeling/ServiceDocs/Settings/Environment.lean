import ServiceDocs.Json.Basic
import ServiceDocs.Text.Blank
import ServiceDocs.Text.Numeral

/-!
# Environment variables

Some settings can be given by environment variables. Their values are typed by the way they are
written: `true` and `false`, numbers, quoted text, lists in brackets and records in braces. Any
other value is a text, without the white space around it.

The names of variables are compared without regard to case.
-/

namespace ServiceDocs

/-- Environment variables with their values. -/
abbrev Environment := List (String × String)

namespace Environment

/-- There is a variable of that name. -/
def has (env : Environment) (name : String) : Bool :=
  (env.lookup name).isSome

/-! ### Typed values -/

/-- White space between the parts of a value. -/
def isSpace (c : Char) : Bool :=
  c = ' ' || c = '\t' || c = '\n' || c = '\x0c' || c = '\r'

/-- Pass over white space. -/
def skipSpace (cs : List Char) : List Char :=
  cs.dropWhile isSpace

/-- The character ends a value that is not quoted. -/
def isSeparator (c : Char) : Bool :=
  c = ',' || c = '{' || c = '}' || c = '[' || c = ']'

/-- The value of a text that is not quoted. -/
def plainValue (cs : List Char) : Json :=
  if cs.contains '.' && Text.isDecimal cs then .real (String.ofList cs)
  else
    match Text.natural? cs with
    | some n => .num n
    | none   =>
      match Text.negative? cs with
      | some n => .num n
      | none   => .str (String.ofList cs)

/-- The character of a one-letter escape. -/
def simpleEscape? : Char → Option Char
  | '"'  => some '"'
  | '\\' => some '\\'
  | 'b'  => some '\x08'
  | 'f'  => some '\x0c'
  | 'n'  => some '\n'
  | 'r'  => some '\r'
  | 't'  => some '\t'
  | _    => none

/-- The character whose number is written by hexadecimal digits. -/
def hexChar? (cs : List Char) : Option Char := do
  let n ← cs.foldlM (fun n c => (Text.hexDigit? c).map (16 * n + ·)) 0
  if n.isValidChar then return Char.ofNat n else none

/-- The character may stand in quoted text as it is. -/
def isQuotable (c : Char) : Bool :=
  c = '\t' || (0x20 ≤ c.toNat && c.toNat ≠ 0x7F)

/-- Read quoted text behind its opening quote. -/
def readQuoted : List Char → Option (List Char × List Char)
  | '"' :: cs => some ([], cs)
  | '\\' :: 'u' :: a :: b :: c :: d :: cs => do
    let x ← hexChar? [a, b, c, d]
    let (s, r) ← readQuoted cs
    return (x :: s, r)
  | '\\' :: 'U' :: a :: b :: c :: d :: e :: f :: g :: h :: cs => do
    let x ← hexChar? [a, b, c, d, e, f, g, h]
    let (s, r) ← readQuoted cs
    return (x :: s, r)
  | '\\' :: c :: cs => do
    let x ← simpleEscape? c
    let (s, r) ← readQuoted cs
    return (x :: s, r)
  | c :: cs =>
    if c = '\\' || !isQuotable c then none
    else do
      let (s, r) ← readQuoted cs
      return (c :: s, r)
  | [] => none

/-- The character may stand in a key that is not quoted. -/
def isKeyChar (c : Char) : Bool :=
  c.isAlphanum || c = '_' || c = '-'

/-- Read the key of a record. -/
def readKey : List Char → Option (List Char × List Char)
  | '"' :: cs => readQuoted cs
  | cs        =>
    if (cs.takeWhile isKeyChar).isEmpty then none
    else some (cs.takeWhile isKeyChar, cs.dropWhile isKeyChar)

mutual

/-- Read a value and the white space around it. -/
def readValue : Nat → List Char → Option (Json × List Char)
  | 0,        _  => none
  | fuel + 1, cs =>
    match skipSpace cs with
    | 't' :: 'r' :: 'u' :: 'e' :: r        => some (.bool true, skipSpace r)
    | 'f' :: 'a' :: 'l' :: 's' :: 'e' :: r => some (.bool false, skipSpace r)
    | '"' :: r => (readQuoted r).map fun (s, r) => (.str (String.ofList s), skipSpace r)
    | '[' :: r => (readItems fuel r).map fun (xs, r) => (.arr xs, skipSpace r)
    | '{' :: r => (readMembers fuel r).map fun (ms, r) => (.ofMembers ms, skipSpace r)
    | r =>
      let plain := Text.trim (r.takeWhile fun c => !isSeparator c)
      some (plainValue plain, r.dropWhile fun c => !isSeparator c)
termination_by structural fuel => fuel

/-- Read the items of a list up to its closing bracket. -/
def readItems : Nat → List Char → Option (List Json × List Char)
  | 0,        _         => none
  | _ + 1,    ']' :: r  => some ([], r)
  | fuel + 1, cs        =>
    match readValue fuel cs with
    | some (x, ',' :: r) => (readItems fuel r).map fun (xs, r) => (x :: xs, r)
    | some (x, ']' :: r) => some ([x], r)
    | _                  => none
termination_by structural fuel => fuel

/-- Read the members of a record up to its closing brace. -/
def readMembers : Nat → List Char → Option (List (String × Json) × List Char)
  | 0,        _         => none
  | _ + 1,    '}' :: r  => some ([], r)
  | fuel + 1, cs        =>
    match readKey (skipSpace cs) with
    | none        => none
    | some (k, r) =>
      match skipSpace r with
      | '=' :: r =>
        match readValue fuel r with
        | some (v, ',' :: r) =>
          (readMembers fuel r).map fun (ms, r) => ((String.ofList k, v) :: ms, r)
        | some (v, '}' :: r) => some ([(String.ofList k, v)], r)
        | _                  => none
      | _ => none
termination_by structural fuel => fuel

end

/-- The value of a variable. A text that cannot be read to its end is taken as it is. -/
def value (text : String) : Json :=
  let cs := Text.trim text.toList
  match readValue (2 * cs.length + 2) cs with
  | some (v, []) => v
  | _            => .str (String.ofList cs)

/-! ### Settings from variables -/

/-- How the names of the variables for settings begin. -/
def namePrefix : String := "apigen_"

/-- The variables for settings, without the beginning, and the parts of the settings. -/
def settingNames : List (String × String) :=
  [("out_dir", "outDir"), ("format", "format"), ("max_depth", "maxDepth")]

/-- The part of the settings that a variable gives. -/
def setting? (name : String) : Option String :=
  (settingNames.find? fun s => namePrefix ++ s.1 = name.map Char.toLower).map (·.2)

/-- The settings that are given by variables. -/
def settings (env : Environment) : Json :=
  .ofMembers (env.filterMap fun (name, text) => (setting? name).map fun s => (s, value text))

end Environment

end ServiceDocs
