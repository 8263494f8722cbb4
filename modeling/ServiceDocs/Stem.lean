/-!
# File stems

Documents are named after their methods. The first method of a name gets the bare name; a later
one gets the name with `_2`, `_3` and so on, where a stem that has already been given is passed
over.
-/

namespace ServiceDocs.Stem

/-- The name with a number behind it. -/
def numbered (name : String) (k : Nat) : String :=
  name ++ "_" ++ toString k

/-- The stems that have been given so far, and the last number tried for each name. -/
structure Issued where
  stems : List String := []
  counters : List (String × Nat) := []
deriving DecidableEq, Inhabited, Repr

/-- The last number tried for a name. -/
def Issued.counter (s : Issued) (name : String) : Nat :=
  (s.counters.lookup name).getD 1

/-- The least number above `k` whose stem is free. Among `fuel` numbers one is free if fewer
than `fuel` stems have been given. -/
def nextFree (stems : List String) (name : String) : Nat → Nat → Nat
  | 0,        k => k + 1
  | fuel + 1, k =>
    if stems.contains (numbered name (k + 1)) then nextFree stems name fuel (k + 1) else k + 1

/-- Give a stem to a method of that name. -/
def Issued.issue (s : Issued) (name : String) : String × Issued :=
  if s.stems.contains name then
    let k := nextFree s.stems name (s.stems.length + 1) (s.counter name)
    let stem := numbered name k
    (stem, ⟨stem :: s.stems, (name, k) :: s.counters⟩)
  else (name, { s with stems := name :: s.stems })

/-- The stems of methods, where some stems have been given before. -/
def issueAll (s : Issued) : List String → List String
  | []            => []
  | name :: names =>
    let (stem, s') := s.issue name
    stem :: issueAll s' names

/-- The stems of methods with the given names. -/
def ofNames (names : List String) : List String :=
  issueAll {} names

end ServiceDocs.Stem
