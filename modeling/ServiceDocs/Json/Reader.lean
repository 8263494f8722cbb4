import ServiceDocs.Json.Basic
import ServiceDocs.Text.Numeral

/-!
# Reading JSON text

A reader for the JSON grammar. A text is refused when it is no JSON value, when something other
than white space follows the value, when a string holds a bare control character or half of a
surrogate pair, when a number is too large for a double, and when arrays and objects are nested
more than `maxNesting` deep.
-/

namespace ServiceDocs.Json

/-! ### White space and numbers -/

/-- The white space of the JSON grammar. -/
def isSpace (c : Char) : Bool :=
  c = ' ' || c = '\n' || c = '\t' || c = '\r'

/-- Pass over white space. -/
def skipSpace (cs : List Char) : List Char :=
  cs.dropWhile isSpace

/-- The parts of a number as they are written. -/
structure NumberText where
  negative : Bool
  whole : List Char
  fraction : List Char
  /-- The sign and the digits of the exponent. -/
  exponent : Option (Bool × List Char)
deriving Repr

/-- The greatest number that still rounds down to the greatest double, and one more half of the
distance between the last two doubles: from here on a number rounds to infinity. -/
def doubleBound : Nat := Nat.pow 2 1024 - Nat.pow 2 970

/-- The number is beyond the range of a double. -/
def NumberText.overflows (t : NumberText) : Bool :=
  let digits := Text.ofDigits (t.whole ++ t.fraction)
  let places := t.fraction.length
  if digits = 0 then false else
    match t.exponent with
    | some (true, e) =>
      let power := Text.ofDigits e + places
      if (t.whole ++ t.fraction).length < power then false
      else decide (doubleBound * Nat.pow 10 power ≤ digits)
    | some (false, e) =>
      let power := Text.ofDigits e
      if power > 400 + places then true
      else decide (doubleBound * Nat.pow 10 places ≤ digits * Nat.pow 10 power)
    | none => decide (doubleBound * Nat.pow 10 places ≤ digits)

/-- The value of a number: an integer when it is written as one, is not a negative zero and has
64 bits. -/
def NumberText.value (t : NumberText) (literal : List Char) : Json :=
  let n := Text.ofDigits t.whole
  if !t.fraction.isEmpty || t.exponent.isSome then .real (String.ofList literal)
  else if !t.negative && n < Text.wordBound then .num n
  else if t.negative && 0 < n && n ≤ Text.halfBound then .num (-(n : Int))
  else .real (String.ofList literal)

/-- Read an exponent, if there is one. -/
def takeExponent : List Char → Option (Option (Bool × List Char) × List Char)
  | c :: cs =>
    if c = 'e' || c = 'E' then
      let (negative, rest) := match cs with
        | '-' :: r => (true, r)
        | '+' :: r => (false, r)
        | r        => (false, r)
      let digits := rest.takeWhile Char.isDigit
      if digits.isEmpty then none
      else some (some (negative, digits), rest.dropWhile Char.isDigit)
    else some (none, c :: cs)
  | [] => some (none, [])

/-- Read the digits behind a point, if there is one. -/
def takeFraction : List Char → Option (List Char × List Char)
  | '.' :: cs =>
    let digits := cs.takeWhile Char.isDigit
    if digits.isEmpty then none else some (digits, cs.dropWhile Char.isDigit)
  | cs => some ([], cs)

/-- Read a number: no digit follows a leading zero, and a point has digits on both sides. -/
def readNumber (cs : List Char) : Option (Json × List Char) := do
  let (negative, body) := match cs with
    | '-' :: r => (true, r)
    | r        => (false, r)
  let whole := body.takeWhile Char.isDigit
  guard (!whole.isEmpty && (whole.length = 1 || whole.head? ≠ some '0'))
  let (fraction, afterFraction) ← takeFraction (body.dropWhile Char.isDigit)
  let (exponent, rest) ← takeExponent afterFraction
  let text : NumberText := ⟨negative, whole, fraction, exponent⟩
  guard (!text.overflows)
  return (text.value (cs.take (cs.length - rest.length)), rest)

/-! ### Strings -/

/-- The number of four hexadecimal digits. -/
def hexUnit? (a b c d : Char) : Option Nat := do
  return (← Text.hexDigit? a) * 4096 + (← Text.hexDigit? b) * 256 + (← Text.hexDigit? c) * 16
    + (← Text.hexDigit? d)

/-- The number is the first half of a surrogate pair. -/
def isHighSurrogate (n : Nat) : Bool := 0xD800 ≤ n && n < 0xDC00

/-- The number is the second half of a surrogate pair. -/
def isLowSurrogate (n : Nat) : Bool := 0xDC00 ≤ n && n < 0xE000

/-- The character of a one-letter escape. -/
def simpleEscape? : Char → Option Char
  | '"'  => some '"'
  | '\\' => some '\\'
  | '/'  => some '/'
  | 'b'  => some '\x08'
  | 'f'  => some '\x0c'
  | 'n'  => some '\n'
  | 'r'  => some '\r'
  | 't'  => some '\t'
  | _    => none

/-- Read a string behind its opening quote. -/
def readString : List Char → Option (List Char × List Char)
  | '"' :: cs => some ([], cs)
  | '\\' :: 'u' :: a :: b :: c :: d :: cs =>
    match hexUnit? a b c d with
    | none => none
    | some unit =>
      if isLowSurrogate unit then none
      else if isHighSurrogate unit then
        match cs with
        | '\\' :: 'u' :: a' :: b' :: c' :: d' :: rest =>
          match hexUnit? a' b' c' d' with
          | none => none
          | some low =>
            if isLowSurrogate low then
              (readString rest).map fun (s, r) =>
                (Char.ofNat (0x10000 + (unit - 0xD800) * 1024 + (low - 0xDC00)) :: s, r)
            else none
        | _ => none
      else (readString cs).map fun (s, r) => (Char.ofNat unit :: s, r)
  | '\\' :: c :: cs =>
    match simpleEscape? c with
    | none   => none
    | some e => (readString cs).map fun (s, r) => (e :: s, r)
  | c :: cs =>
    if c = '\\' || c.toNat < 0x20 then none
    else (readString cs).map fun (s, r) => (c :: s, r)
  | [] => none

/-! ### Values -/

/-- Arrays and objects may be nested this deep. -/
def maxNesting : Nat := 127

mutual

/-- Read a value that may still hold `depth` levels of arrays and objects. -/
def readValue : Nat → Nat → List Char → Option (Json × List Char)
  | 0,        _,     _  => none
  | fuel + 1, depth, cs =>
    match skipSpace cs with
    | 'n' :: 'u' :: 'l' :: 'l' :: r        => some (.null, r)
    | 't' :: 'r' :: 'u' :: 'e' :: r        => some (.bool true, r)
    | 'f' :: 'a' :: 'l' :: 's' :: 'e' :: r => some (.bool false, r)
    | '"' :: r => (readString r).map fun (s, r) => (.str (String.ofList s), r)
    | '[' :: r =>
      match depth with
      | 0         => none
      | depth + 1 =>
        match skipSpace r with
        | ']' :: r => some (.arr [], r)
        | r        => (readItems fuel depth r).map fun (xs, r) => (.arr xs, r)
    | '{' :: r =>
      match depth with
      | 0         => none
      | depth + 1 =>
        match skipSpace r with
        | '}' :: r => some (.obj [], r)
        | r        => (readMembers fuel depth r).map fun (ms, r) => (.ofMembers ms, r)
    | r => readNumber r
termination_by structural fuel => fuel

/-- Read the items of a nonempty array up to its closing bracket. -/
def readItems : Nat → Nat → List Char → Option (List Json × List Char)
  | 0,        _,     _  => none
  | fuel + 1, depth, cs =>
    match readValue fuel depth cs with
    | none        => none
    | some (x, r) =>
      match skipSpace r with
      | ']' :: r => some ([x], r)
      | ',' :: r => (readItems fuel depth r).map fun (xs, r) => (x :: xs, r)
      | _        => none
termination_by structural fuel => fuel

/-- Read the members of a nonempty object up to its closing brace. -/
def readMembers : Nat → Nat → List Char → Option (List (String × Json) × List Char)
  | 0,        _,     _  => none
  | fuel + 1, depth, cs =>
    match skipSpace cs with
    | '"' :: r =>
      match readString r with
      | none        => none
      | some (k, r) =>
        match skipSpace r with
        | ':' :: r =>
          match readValue fuel depth r with
          | none        => none
          | some (v, r) =>
            match skipSpace r with
            | '}' :: r => some ([(String.ofList k, v)], r)
            | ',' :: r =>
              (readMembers fuel depth r).map fun (ms, r) => ((String.ofList k, v) :: ms, r)
            | _        => none
        | _ => none
    | _ => none
termination_by structural fuel => fuel

end

/-- The value of a JSON text. -/
def ofText? (text : String) : Option Json :=
  let cs := text.toList
  match readValue (cs.length + 1) maxNesting cs with
  | some (j, r) => if (skipSpace r).isEmpty then some j else none
  | none        => none

end ServiceDocs.Json
