/-!
# Numerals

Reading numbers that are written with decimal or hexadecimal digits.
-/

namespace ServiceDocs.Text

/-- The first number that has no 64 bits. -/
def wordBound : Nat := 0x10000000000000000

/-- Half of it: the integers of 64 bits reach from its negative up to it. -/
def halfBound : Nat := 0x8000000000000000

/-- The number written by decimal digits. -/
def ofDigits (cs : List Char) : Nat :=
  cs.foldl (fun n c => 10 * n + (c.toNat - 48)) 0

/-- The number written by a text of decimal digits. -/
def digits? (cs : List Char) : Option Nat :=
  if !cs.isEmpty && cs.all Char.isDigit then some (ofDigits cs) else none

/-- A natural number of 64 bits, with or without a plus sign. -/
def natural? (cs : List Char) : Option Nat := do
  let n ← digits? (match cs with
    | '+' :: r => r
    | r        => r)
  guard (n < wordBound)
  return n

/-- A negative integer of 64 bits, or zero, with a minus sign. -/
def negative? : List Char → Option Int
  | '-' :: cs => do
    let n ← digits? cs
    guard (n ≤ halfBound)
    return -(n : Int)
  | _ => none

/-- The value of a hexadecimal digit. -/
def hexDigit? (c : Char) : Option Nat :=
  if c.isDigit then some (c.toNat - 48)
  else if 'a' ≤ c ∧ c ≤ 'f' then some (c.toNat - 87)
  else if 'A' ≤ c ∧ c ≤ 'F' then some (c.toNat - 55)
  else none

/-- An exponent: a letter, a sign if there is one, and digits. -/
def isExponent : List Char → Bool
  | [] => true
  | c :: cs =>
    let digits := match cs with
      | '+' :: r => r
      | '-' :: r => r
      | r        => r
    (c = 'e' || c = 'E') && (digits? digits).isSome

/-- The text writes a number with a decimal point, where digits may be missing on one side of the
point, and with an exponent or without. -/
def isDecimal (cs : List Char) : Bool :=
  let body := match cs with
    | '+' :: r => r
    | '-' :: r => r
    | r        => r
  match body.dropWhile Char.isDigit with
  | '.' :: r =>
    (body.takeWhile Char.isDigit ++ r.takeWhile Char.isDigit) ≠ []
      && isExponent (r.dropWhile Char.isDigit)
  | _ => false

end ServiceDocs.Text
