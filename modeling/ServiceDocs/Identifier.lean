import ServiceDocs.Text.Blank
import ServiceDocs.Text.Letter

/-!
# Qualified names

Names of types and methods may be given with a package in front. Every segment of a name starts
with a letter, an underscore or a dollar sign and goes on with letters, numbers, underscores and
dollar signs. Declarations are looked up by the last segment.
-/

namespace ServiceDocs.Identifier

/-! ### Segments -/

/-- The character may begin a segment. -/
def isStart (c : Char) : Bool :=
  Text.isAlphabetic c || c = '_' || c = '$'

/-- The character may stand inside a segment. -/
def isPart (c : Char) : Bool :=
  Text.isAlphanumeric c || c = '_' || c = '$'

/-- The text is one segment of a name. -/
def isSegment : List Char → Bool
  | []      => false
  | c :: cs => isStart c && cs.all isPart

/-- Why a text is no name. -/
inductive NameError where
  | empty
  | emptySegment (name : String)
  /-- A segment starts with a character that may not stand there. -/
  | badStart (name : String)
  /-- A segment holds a character that may not stand there. -/
  | badCharacter (name : String)
deriving DecidableEq, Repr

/-- The text of an error. -/
def NameError.message : NameError → String
  | .empty             => "Name cannot be empty"
  | .emptySegment name => "Name contains an empty segment: '" ++ name ++ "'"
  | .badStart name     =>
    "Name must start with a letter, underscore, or dollar sign: '" ++ name ++ "'"
  | .badCharacter name =>
    "Name can only contain letters, numbers, underscores, or dollar signs: '" ++ name ++ "'"

/-- What is wrong with a segment of a name. -/
def fault? (name : String) : List Char → Option NameError
  | []      => some (.emptySegment name)
  | c :: cs =>
    if !isStart c then some (.badStart name)
    else if !cs.all isPart then some (.badCharacter name)
    else none

/-- Segments are the texts without a fault. -/
theorem fault?_eq_none_iff {name : String} {cs : List Char} :
    fault? name cs = none ↔ isSegment cs = true := by
  cases cs with
  | nil => simp [fault?, isSegment]
  | cons c cs =>
    cases hs : isStart c <;> cases hp : cs.all isPart <;> simp [fault?, isSegment, hs, hp]

/-! ### Names -/

/-- The last segment of a name. -/
structure SimpleName where
  text : String
  isSegment : isSegment text.toList = true
deriving DecidableEq, Repr

/-- The segments of a name. -/
def segments (name : String) : List (List Char) :=
  Text.pieces (· = '.') name.toList

/-- The last segment of a qualified name. The first fault from the left is reported. -/
def parse (name : String) : Except NameError SimpleName :=
  if name = "" then .error .empty
  else
    match h : (segments name).findSome? (fault? name) with
    | some e => .error e
    | none   => .ok {
        text := String.ofList ((segments name).getLast (Text.pieces_ne_nil _ _))
        isSegment := by
          rw [String.toList_ofList]
          exact fault?_eq_none_iff.1
            (List.findSome?_eq_none_iff.1 h _ (List.getLast_mem (Text.pieces_ne_nil _ _))) }

end ServiceDocs.Identifier
