import ServiceDocs.Text.Blank

/-!
# Table cells

The text of a cell is written on one line, and the characters that have a meaning in tables or
in HTML are escaped, so that `Page<Product>` is not taken for a tag.
-/

namespace ServiceDocs.Page

/-- What is written for a character that has a meaning of its own. -/
structure Escape where
  character : Char
  text : List Char
deriving DecidableEq, Repr

/-- The characters with a meaning in HTML. -/
def entities : List Escape :=
  [⟨'&', ['&', 'a', 'm', 'p', ';']⟩, ⟨'<', ['&', 'l', 't', ';']⟩, ⟨'>', ['&', 'g', 't', ';']⟩]

/-- The sign between the cells of a row. -/
def escapedBar : Escape :=
  ⟨'|', ['\\', '|']⟩

/-- All characters with a meaning, in the order in which they are escaped: the ampersand comes
first, since others are written with one. -/
def escapes : List Escape :=
  entities ++ [escapedBar]

/-- The characters of a cell. -/
def cellChars (cs : List Char) : List Char :=
  escapes.foldl (fun cs e => Text.replace [e.character] e.text cs) (Text.flatten cs)

/-- The text of a cell. -/
def cell (text : String) : String :=
  String.ofList (cellChars text.toList)

end ServiceDocs.Page
