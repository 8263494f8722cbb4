import ServiceDocs.Expansion
import ServiceDocs.FileTree.Basic

/-!
# Failures

The ways in which building documentation, reading settings and running a command can fail, with
the text that is shown for each.
-/

namespace ServiceDocs

/-! ### Building and writing documentation -/

/-- Why documentation could not be built or written. -/
inductive DocError where
  /-- An access to the path failed. -/
  | io (path : String) (error : IoError)
  /-- The temporary file in a directory could not be made. -/
  | temporary (directory : String) (error : IoError)
  /-- A source could not be parsed. -/
  | parse (path message : String)
  /-- A type or a method is not known. -/
  | lookup (error : TypeSource.LookupError)
  | other (message : String)
deriving DecidableEq, Repr

/-- The text of a failed look-up. -/
def TypeSource.LookupError.message : TypeSource.LookupError → String
  | .unknownType t     => "type '" ++ t ++ "' not found in indexed sources"
  | .unknownMethod t m => "method '" ++ m ++ "' not found on type '" ++ t ++ "'"

namespace DocError

/-- The parse error with several diagnostics. -/
def ofDiagnostics (path : String) (diagnostics : List String) : DocError :=
  .parse path (String.intercalate "; " diagnostics)

/-- The text of an error. -/
def message : DocError → String
  | .io path e         => "I/O failure on '" ++ path ++ "': " ++ e.text
  | .temporary dir e   => "I/O failure on '" ++ dir ++ "': " ++ e.text
  | .parse path text   => "failed to parse source '" ++ path ++ "': " ++ text
  | .lookup e          => e.message
  | .other text        => text

end DocError

/-! ### Settings -/

/-- Why settings cannot be used. -/
inductive SettingsError where
  | notFound (path : String)
  | alreadyExists (path : String)
  | missingField (field hint : String)
  | invalidValue (field value hint : String)
deriving DecidableEq, Repr

/-- The text of an error. -/
def SettingsError.message : SettingsError → String
  | .notFound path =>
    "Config file not found: " ++ path ++ "\n\nHint: Run 'apigen init' or fix the --config path"
  | .alreadyExists path =>
    "Config file already exists: " ++ path ++ "\n\nHint: Pass --force to overwrite it"
  | .missingField field hint =>
    "Missing required field: " ++ field ++ "\n\nHint: " ++ hint
  | .invalidValue field value hint =>
    "Invalid value for '" ++ field ++ "': " ++ value ++ "\n\nHint: " ++ hint

/-! ### Commands -/

/-- Why a command failed. -/
inductive CommandError where
  | settings (error : SettingsError)
  | documentation (error : DocError)
  | fileNotFound (path : String)
  | io (error : IoError)
  | json (text : String)
  /-- Some of the documents could not be written. -/
  | writeFailed (failed total : Nat)
deriving DecidableEq, Repr

namespace CommandError

/-- The text of an error. -/
def message : CommandError → String
  | .settings e        => "Configuration error: " ++ e.message
  | .documentation e   => e.message
  | .fileNotFound path => "File not found: " ++ path
  | .io e              => "I/O error: " ++ e.text
  | .json text         => "JSON error: " ++ text
  | .writeFailed n k   =>
    toString n ++ " of " ++ toString k ++ " documents could not be written"

/-- The text that is shown to the user, with a hint where a name was not found. -/
def report : CommandError → String
  | .documentation (.lookup (.unknownType t)) =>
    "Type '" ++ t ++ "' not found in indexed sources\n\nHint: Check the source paths, or run "
      ++ "'apigen list <SOURCES>' to see indexed types"
  | .documentation (.lookup (.unknownMethod t m)) =>
    "Method '" ++ m ++ "' not found on type '" ++ t ++ "'\n\nHint: Run 'apigen list <SOURCES> "
      ++ "--class " ++ t ++ "' to see its methods"
  | e => e.message

/-- The error of an access to the path, where a missing entry is reported with its path. -/
def ofAccess (path : String) (e : IoError) : CommandError :=
  if e.kind = .notFound then .fileNotFound path else .io e

/-- The error seen as one of an access to the path. -/
def withPath (path : String) : CommandError → CommandError
  | .io e => ofAccess path e
  | e     => e

end CommandError

end ServiceDocs
