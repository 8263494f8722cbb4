import ServiceDocs.Text.Blank

/-!
# Constraints on values

Some annotations say that a value is mandatory or which values are allowed. The allowed values
are put into words: first the bounds of a number, then the patterns, then the bounds of a length.
-/

namespace ServiceDocs

/-- An annotation with its arguments as they are written. An argument without a key has the key
`value`. -/
structure AnnotationUse where
  name : String
  arguments : List (String × String)
deriving DecidableEq, Inhabited, Repr

namespace AnnotationUse

/-- The first argument with the given key. -/
def argument? (a : AnnotationUse) (key : String) : Option String :=
  a.arguments.lookup key

/-- The names of annotations that make a value mandatory. -/
def requiredNames : List String :=
  ["NotNull", "NonNull", "Nonnull", "NotBlank", "NotEmpty"]

/-- One of the annotations makes the value mandatory. -/
def anyRequired (as : List AnnotationUse) : Bool :=
  as.any fun a => requiredNames.contains a.name

/-- The text of an argument without white space around it and without its quotes. -/
def unquote (text : String) : String :=
  let cs := Text.trim text.toList
  match Text.dropStart? ['"'] cs with
  | some inner => String.ofList ((Text.dropEnd? ['"'] inner).getD cs)
  | none       => String.ofList cs

end AnnotationUse

/-- Bounds from below and from above, each as it is written. -/
structure Bounds where
  low : Option String := none
  high : Option String := none
deriving DecidableEq, Inhabited, Repr

/-- Bounds in words. -/
def Bounds.text? (b : Bounds) : Option String :=
  match b.low, b.high with
  | some l, some h => some ("[" ++ l ++ ", " ++ h ++ "]")
  | some l, none   => some (">= " ++ l)
  | none,   some h => some ("<= " ++ h)
  | none,   none   => none

/-- What annotations say about the values that are allowed. -/
structure Constraint where
  value : Bounds := {}
  patterns : List String := []
  length : Bounds := {}
deriving DecidableEq, Inhabited, Repr

namespace Constraint

/-- Take an annotation into account. A bound on one side replaces what was said about that side,
a range replaces the sides that it mentions, and a length replaces both sides. -/
def add (c : Constraint) (a : AnnotationUse) : Constraint :=
  match a.name with
  | "Min" | "DecimalMin" => { c with value := { c.value with low := a.argument? "value" } }
  | "Max" | "DecimalMax" => { c with value := { c.value with high := a.argument? "value" } }
  | "Range" =>
    { c with value :=
      ⟨(a.argument? "min").or c.value.low, (a.argument? "max").or c.value.high⟩ }
  | "Size" | "Length" => { c with length := ⟨a.argument? "min", a.argument? "max"⟩ }
  | "Pattern" =>
    { c with patterns := c.patterns ++ (a.argument? "regexp").toList }
  | _ => c

/-- What a list of annotations says. -/
def ofAnnotations (as : List AnnotationUse) : Constraint :=
  as.foldl add {}

/-- The constraint in words, part by part. -/
def parts (c : Constraint) : List String :=
  c.value.text?.toList ++ c.patterns.map ("pattern: " ++ ·)
    ++ (c.length.text?.map ("length " ++ ·)).toList

/-- The constraint in words; `none` if it does not restrict anything. -/
def text? (c : Constraint) : Option String :=
  if c.parts.isEmpty then none else some (String.intercalate "; " c.parts)

end Constraint

/-- The allowed values in words, as given by a list of annotations. -/
def AnnotationUse.rangeText? (as : List AnnotationUse) : Option String :=
  (Constraint.ofAnnotations as).text?

end ServiceDocs
