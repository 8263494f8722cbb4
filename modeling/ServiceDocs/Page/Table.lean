import ServiceDocs.Field.Basic
import ServiceDocs.Page.Cell

/-!
# Parameter tables

A table has a row for each field of a tree, in depth-first order. A row starts with one marker
for each level above it, and the names of objects and of arrays of objects are emphasised.
-/

namespace ServiceDocs.Page

/-- The sign in front of a row, once for each level above it. -/
def levelMarker : Char := '└'

/-- The type of a field as it stands in its row. -/
def typeText (f : Field) : String :=
  match f.shape, f.element, f.opaqueType with
  | .literal, _,      _     => f.type.display
  | .object,  _,      true  => "Object"
  | .object,  _,      false => f.type.display
  | .array,   some e, false => e.display ++ "[]"
  | .array,   _,      _     => "Object[]"

/-- The name of a field as it stands in its row. -/
def nameText (f : Field) : String :=
  if f.isCompound then "**" ++ f.name ++ "**" else f.name

/-- The row of a field with `level` fields above it. -/
def row (level : Nat) (f : Field) : String :=
  String.ofList (List.replicate level levelMarker) ++ nameText f
    ++ "|" ++ cell (typeText f)
    ++ "|" ++ (if f.required then "Y" else "N")
    ++ "|" ++ (f.range.map cell).getD ""
    ++ "|" ++ (f.description.map cell).getD ""

mutual

/-- The rows of a field and of the fields below it. -/
def rows (level : Nat) : Field → List String
  | ⟨name, type, shape, element, required, range, description, sample, opaqueType, children⟩ =>
    row level ⟨name, type, shape, element, required, range, description, sample, opaqueType,
      children⟩ :: rowsAll (level + 1) children
termination_by structural f => f

/-- The rows of a list of fields. -/
def rowsAll (level : Nat) : List Field → List String
  | []      => []
  | f :: fs => rows level f ++ rowsAll level fs
termination_by structural fs => fs

end

theorem rows_eq (level : Nat) (f : Field) :
    rows level f = row level f :: rowsAll (level + 1) f.children := by
  cases f; rfl

/-- The two lines above the rows of a table. -/
def tableHead : List String :=
  ["Name|Type|Required|Range|Description", "--|--|--|--|--"]

/-- The lines of the table of a list of fields. -/
def tableLines (fields : List Field) : List String :=
  tableHead ++ rowsAll 0 fields

end ServiceDocs.Page
