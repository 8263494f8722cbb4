import ServiceDocs.CommandLine.Basic
import ServiceDocs.Generation
import ServiceDocs.Notice
import ServiceDocs.Settings.Schema

/-!
# Running commands

A command is run on a file tree. It leaves a file tree, an output and notices for the user, and
it succeeds or fails.
-/

namespace ServiceDocs

/-- How running a command ends. -/
structure Outcome where
  tree : FileTree
  output : String := ""
  notices : List Notice := []
  result : Except CommandError Unit := .ok ()

namespace Outcome

/-- The command has failed, and nothing has changed. -/
def failed (fs : FileTree) (e : CommandError) : Outcome where
  tree := fs
  result := .error e

/-- Lines of output. -/
def outputLines (lines : List String) : String :=
  String.join (lines.map (· ++ "\n"))

end Outcome

namespace Command

/-! ### Documentation -/

/-- Document the methods of a type. -/
def runGenerate (devices : Nat → Device) (fs : FileTree) (env : Environment) (type : String)
    (method : Option String) (overrides : Overrides) (settingsFile : Option String) : Outcome :=
  match Generation.plan fs env settingsFile overrides type method with
  | .error e => .failed fs e
  | .ok g    =>
    if g.documents.isEmpty then
      { tree := fs
        notices := [.warning ("Type '" ++ type ++ "' declares no methods to document")] }
    else
      let (tree, report) := g.publish devices fs
      if report.isSuccess then
        { tree
          notices := [.success ("Wrote " ++ counted report.written.length "document" ++ " to "
            ++ g.outDirectory)] }
      else
        { tree
          notices := report.failures.map fun (name, e) => .failure (name ++ ": " ++ e.message)
          result := .error (.writeFailed report.failures.length g.documents.length) }

/-! ### Listings -/

/-- The width of the column with the kinds of declarations. -/
def kindWidth : Nat := 9

/-- The line for a declaration: its kind, its name and its description. -/
def declarationLine (d : Declaration) : String :=
  d.kind.word ++ "".pushn ' ' (kindWidth - d.kind.word.length) ++ " " ++ d.qualifiedName
    ++ (match d.description with
        | some text => "  " ++ text
        | none      => "")

/-- The line for a method: its declaration without modifiers. -/
def methodLine (m : Method) : String :=
  m.returnType.display ++ " " ++ m.name ++ parameterList m.parameters

/-- Show the types of the sources, or the methods of one type. -/
def runList (fs : FileTree) (sources : List String) (type : Option String) : Outcome :=
  match Catalog.ofSources fs sources with
  | .error e => .failed fs e
  | .ok c    =>
    match type with
    | none      =>
      { tree := fs
        output := Outcome.outputLines (c.declarations.map declarationLine)
        notices := [.information (counted c.size "type")] }
    | some type =>
      match c.source.methodsOf type with
      | .error e    => .failed fs (.documentation (.lookup e))
      | .ok methods =>
        { tree := fs
          output := Outcome.outputLines (methods.map methodLine)
          notices := [.information (counted methods.length "method" ++ " on " ++ type)] }

/-! ### Settings -/

/-- Write a text to a file. -/
def writeOut (fs : FileTree) (path text : String) (notices : List Notice) : Outcome :=
  match fs.writeText path text with
  | .ok tree => { tree, notices }
  | .error e => .failed fs (.ofAccess path e)

/-- Write a settings file to start with. One that is there is replaced only by force. -/
def runInit (fs : FileTree) (force : Bool) : Outcome :=
  if fs.pathExists Settings.fileName && !force then
    .failed fs (.settings (.alreadyExists Settings.fileName))
  else
    writeOut fs Settings.fileName (Settings.starterText ++ "\n")
      [.success ("Created " ++ Settings.fileName),
       .information "Edit 'sources' and 'artifact', then run: apigen generate --class <NAME>"]

/-- Show the schema of settings, or write it to a file. -/
def runSchema (fs : FileTree) : Option String → Outcome
  | none      => { tree := fs, output := Settings.schemaText ++ "\n" }
  | some path =>
    writeOut fs path (Settings.schemaText ++ "\n") [.success ("Wrote schema to " ++ path)]

/-! ### All commands -/

/-- Run a command. -/
def run (devices : Nat → Device) (fs : FileTree) (env : Environment) : Command → Outcome
  | .generate type method overrides settingsFile =>
    runGenerate devices fs env type.text (method.map (·.text)) overrides settingsFile
  | .list sources type => runList fs sources (type.map (·.text))
  | .init force        => runInit fs force
  | .schema output     => runSchema fs output

end Command

end ServiceDocs
