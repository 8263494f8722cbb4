import ServiceDocs.Json.Basic
import ServiceDocs.Text.Numeral

/-!
# Records as JSON

A record is written as an object with a member for each of its parts. It may also be given as
the array of its parts in order, where parts at the end may be left out.

Reading fails with `none` when a part has the wrong kind of value.
-/

namespace ServiceDocs.Json

/-! ### Height -/

mutual

/-- The number of levels of arrays and objects, with one for the value at the bottom. -/
def height : Json → Nat
  | .arr xs => heightItems xs + 1
  | .obj ms => heightMembers ms + 1
  | .null   => 1
  | .bool _ => 1
  | .num _  => 1
  | .real _ => 1
  | .str _  => 1
termination_by structural x => x

/-- The greatest height among the items of an array. -/
def heightItems : List Json → Nat
  | []      => 0
  | x :: xs => max x.height (heightItems xs)
termination_by structural x => x

/-- The greatest height among the members of an object. -/
def heightMembers : List (String × Json) → Nat
  | []           => 0
  | (_, v) :: ms => max v.height (heightMembers ms)
termination_by structural x => x

end

/-! ### Parts of a record -/

/-- The parts of a record by name. -/
abbrev Parts := List (String × Json)

/-- The parts of a record with the given names. -/
def parts? (names : List String) : Json → Option Parts
  | .obj ms => some ms
  | .arr xs => if xs.length ≤ names.length then some (names.zip xs) else none
  | _       => none

/-- Every part has one of the given names. -/
def Parts.within (ps : Parts) (names : List String) : Bool :=
  ps.all fun p => names.contains p.1

/-- A part that must be there. -/
def Parts.required {α : Type} (ps : Parts) (name : String) (read : Json → Option α) : Option α := do
  read (← ps.lookup name)

/-- A part that may be missing, in which case it has a default value. -/
def Parts.optional {α : Type} (ps : Parts) (name : String) (default : α)
    (read : Json → Option α) : Option α :=
  match ps.lookup name with
  | some v => read v
  | none   => some default

/-- A part that may be missing or `null`. -/
def Parts.nullable {α : Type} (ps : Parts) (name : String) (read : Json → Option α) :
    Option (Option α) :=
  match ps.lookup name with
  | some .null => some none
  | some v     => (read v).map some
  | none       => some none

/-! ### Values -/

/-- A text. -/
def asString? : Json → Option String
  | .str s => some s
  | _      => none

/-- A truth value. -/
def asBool? : Json → Option Bool
  | .bool b => some b
  | _       => none

/-- A natural number of 64 bits. -/
def asCount? : Json → Option Nat
  | .num n => if 0 ≤ n ∧ n < Text.wordBound then some n.toNat else none
  | _      => none

/-- A list of values, each read in the same way. -/
def asList? {α : Type} (read : Json → Option α) : Json → Option (List α)
  | .arr xs => xs.mapM read
  | _       => none

/-- One of a fixed set of words, written as a text or as an object whose only member has that
word as its key and `null` as its value. -/
def asWord? {α : Type} (read : String → Option α) : Json → Option α
  | .str s             => read s
  | .obj [(s, .null)]  => read s
  | _                  => none

/-- The member that a present value gives rise to. -/
def someMember (name : String) : Option Json → List (String × Json)
  | some v => [(name, v)]
  | none   => []

end ServiceDocs.Json
