import ServiceDocs.Field.Codec
import ServiceDocs.Page.Basic
import ServiceDocs.Stem

/-!
# Documents

A batch of methods is rendered as one page for each method, as one JSON model of them all, or as
both.
-/

namespace ServiceDocs

/-- The text of a file, with the name of the file in the output directory. -/
structure Document where
  fileName : String
  contents : String
deriving DecidableEq, Inhabited, Repr

/-- What is written for a batch of methods. -/
inductive OutputFormat where
  /-- One Markdown page for each method. -/
  | markdown
  /-- The JSON model of all methods. -/
  | json
  /-- The pages and the model. -/
  | both
deriving DecidableEq, Inhabited, Repr

namespace OutputFormat

/-- The word for a format. -/
def word : OutputFormat → String
  | .markdown => "md"
  | .json     => "json"
  | .both     => "both"

/-- The format that a word stands for. -/
def ofWord? : String → Option OutputFormat
  | "md"   => some .markdown
  | "json" => some .json
  | "both" => some .both
  | _      => none

@[simp] theorem ofWord?_word (f : OutputFormat) : ofWord? f.word = some f := by
  cases f <;> rfl

/-- The format includes pages. -/
def includesPages : OutputFormat → Bool
  | .markdown | .both => true
  | .json             => false

/-- The format includes the model. -/
def includesModel : OutputFormat → Bool
  | .json | .both => true
  | .markdown     => false

end OutputFormat

namespace Document

/-- The pages of methods, named after them. -/
def pages (entries : List MethodEntry) (coordinates : Coordinates) : List Document :=
  List.zipWith (fun e stem => ⟨stem ++ ".md", Page.render e coordinates⟩)
    entries (Stem.ofNames (entries.map (·.name)))

/-- The documents for a batch of methods. The model is named `modelStem`. -/
def ofEntries (entries : List MethodEntry) (format : OutputFormat) (coordinates : Coordinates)
    (modelStem : String) : List Document :=
  (if format.includesPages then pages entries coordinates else [])
    ++ (if format.includesModel then [⟨modelStem ++ ".json", modelText entries⟩] else [])

end Document

end ServiceDocs
