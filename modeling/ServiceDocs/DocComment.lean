import ServiceDocs.Text.Blank

/-!
# Documentation comments

A documentation comment has a summary, which is its first paragraph, and block tags behind it. Of
the tags only those that describe a parameter or the result are kept. Inline tags are reduced to
their content.
-/

namespace ServiceDocs

/-- What a documentation comment says. -/
structure DocComment where
  /-- The first paragraph. -/
  summary : Option String := none
  /-- The names of parameters with their descriptions, in the order of the comment. -/
  parameters : List (String × String) := []
  /-- The description of the result. -/
  returns : Option String := none
deriving DecidableEq, Inhabited, Repr

namespace DocComment

open Text

/-! ### Lines -/

/-- The opening delimiter of a documentation comment. -/
def opening : List Char := ['/', '*', '*']

/-- The closing delimiter of a comment. -/
def closing : List Char := ['*', '/']

/-- The text between the delimiters; either of them may be missing. -/
def body (raw : List Char) : List Char :=
  let cs := trim raw
  let cs := (dropStart? opening cs).getD cs
  (dropEnd? closing cs).getD cs

/-- A line without its margin: white space and one asterisk. -/
def stripMargin (line : List Char) : List Char :=
  match trim line with
  | '*' :: cs => trim cs
  | cs        => cs

/-- The lines of a comment without delimiters and margins. -/
def contentLines (raw : List Char) : List (List Char) :=
  (endedLines (body raw)).map stripMargin

/-! ### Inline tags -/

/-- Replace each inline tag by its content. While a tag is open, its text so far is kept in
reverse; a tag that is never closed stays as it is. -/
def reduceFrom : Option (List Char) → List Char → List Char
  | none,     []               => []
  | none,     '{' :: '@' :: cs => reduceFrom (some []) cs
  | none,     c :: cs          => c :: reduceFrom none cs
  | some tag, []               => '{' :: '@' :: tag.reverse
  | some tag, '}' :: cs        => (splitTag tag.reverse).2 ++ reduceFrom none cs
  | some tag, c :: cs          => reduceFrom (some (c :: tag)) cs

/-- Replace each inline tag, from its opening to the first closing brace, by its content. -/
def reduceTags : List Char → List Char :=
  reduceFrom none

/-- A description on one line: inline tags are reduced and the words joined by single spaces. -/
def clean (cs : List Char) : List Char :=
  flatten (reduceTags cs)

/-! ### Summary -/

/-- The line has nothing but white space. -/
def isBlankLine (line : List Char) : Bool :=
  (trim line).isEmpty

/-- The first paragraph of some lines, where paragraph marks are ignored. -/
def summaryOf (ls : List (List Char)) : Option String :=
  let ls := ls.map fun l => erase ['<', '/', 'p', '>'] (erase ['<', 'p', '>'] l)
  let paragraph := (ls.dropWhile isBlankLine).takeWhile fun l => !isBlankLine l
  match clean (join [' '] paragraph) with
  | []      => none
  | c :: cs => some (String.ofList (c :: cs))

/-! ### Block tags -/

/-- A block tag: its name, and the text behind it. -/
structure BlockTag where
  name : List Char
  text : List Char
deriving DecidableEq, Repr

/-- Continue a tag with a line; blank lines add nothing. -/
def BlockTag.append (t : BlockTag) (line : List Char) : BlockTag :=
  if line.isEmpty then t
  else if t.text.isEmpty then { t with text := line }
  else { t with text := t.text ++ ' ' :: line }

/-- The line opens a block tag. -/
def isTagLine (line : List Char) : Bool :=
  line.head? = some '@'

/-- The tag that a line opens. -/
def BlockTag.ofLine (line : List Char) : BlockTag :=
  let (name, text) := splitTag (line.drop 1)
  ⟨name, text⟩

/-- Take a line in: it opens a new tag or continues the last one. The last tag comes first. -/
def addLine (tags : List BlockTag) (line : List Char) : List BlockTag :=
  if isTagLine line then .ofLine line :: tags
  else match tags with
    | []        => []
    | t :: rest => t.append line :: rest

/-- The block tags of a comment, in order. -/
def blockTags (ls : List (List Char)) : List BlockTag :=
  (ls.foldl addLine []).reverse

/-- The lines in front of the first block tag. -/
def leadingLines (ls : List (List Char)) : List (List Char) :=
  ls.takeWhile fun l => !isTagLine l

/-- Record what a block tag says. -/
def apply (doc : DocComment) (t : BlockTag) : DocComment :=
  if t.name = ['p', 'a', 'r', 'a', 'm'] then
    let (name, text) := splitTag t.text
    if name.isEmpty || text.isEmpty then doc
    else { doc with
      parameters := doc.parameters ++ [(String.ofList name, String.ofList (clean text))] }
  else if t.name = ['r', 'e', 't', 'u', 'r', 'n'] ∨ t.name = ['r', 'e', 't', 'u', 'r', 'n', 's'] then
    if t.text.isEmpty then doc else { doc with returns := some (String.ofList (clean t.text)) }
  else doc

/-! ### Reading -/

/-- Read a documentation comment, with or without its delimiters. -/
def ofText (raw : String) : DocComment :=
  let ls := contentLines raw.toList
  (blockTags ls).foldl apply { summary := summaryOf (leadingLines ls) }

/-- The description of the parameter of that name. -/
def parameter? (doc : DocComment) (name : String) : Option String :=
  doc.parameters.lookup name

end DocComment

end ServiceDocs
