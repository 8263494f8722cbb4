import ServiceDocs.CommandLine.Reader
import ServiceDocs.Run

/-!
# The program

Reads the files below the working directory, runs the command on them and writes back the files
that it changes. The permission bits of files cannot be read here, so the usual ones stand for them
in the tree, and a file that is replaced is written in its place, where it keeps those it has.
-/

namespace ServiceDocs.Program

/-- How many levels of directories are read. -/
def maxLevels : Nat := 256

/-- The entries below a directory. What cannot be read is left out. Links to files are read as links,
together with files that stand outside of `base`, and links to directories as the directories. -/
def entriesBelow (base : Place) :
    Nat → IO.FS.DirEntry → Place → IO (List (Place × Entry))
  | 0,          _,   _ => return []
  | levels + 1, dir, p => do
    let mut entries := []
    for entry in ← (try dir.path.readDir catch _ => pure #[]) do
      let q := p ++ [entry.fileName]
      try
        match (← entry.path.metadata).type with
        | .dir  =>
          entries := entries ++ (q, .directory 0o755) :: (← entriesBelow base levels entry q)
        | .file =>
          let bytes ← IO.FS.readBinFile entry.path
          let file := Entry.file (.ofBytes bytes.toList) 0o644
          if (← entry.path.symlinkMetadata).type == .symlink then
            let target := Path.parts (← IO.FS.realPath entry.path).toString
            entries := entries ++ [(q, .link target)]
            if !base.isPrefixOf target then entries := entries ++ [(target, file)]
          else entries := entries ++ [(q, file)]
        | _     => pure ()
      catch _ => pure ()
    return entries

/-- The path of a place. -/
def pathOf (p : Place) : String :=
  "/" ++ Path.ofComponents p

/-- Write an entry that is new or has changed. A new file is first written under another name; one
that replaces another keeps the permission bits of that one. -/
def writeEntry (replaces : Bool) (p : Place) : Entry → IO Unit
  | .directory _          => IO.FS.createDirAll (pathOf p)
  | .file (.text text) _  => do
    let path := pathOf p
    if replaces then IO.FS.writeFile path text
    else
      let temporary := pathOf (p.dropLast ++ [Naming.stem ++ "new"])
      IO.FS.writeFile temporary text
      IO.FS.rename temporary path
  | .file (.bytes _) _    => return ()
  | .link _               => return ()

/-- The entry is a file. -/
def isFile : Option Entry → Bool
  | some (.file _ _) => true
  | _                => false

/-- The variables for settings that are set. -/
def environment : IO Environment := do
  let mut env := []
  for (key, _) in Environment.settingNames do
    let name := Environment.namePrefix ++ key
    for spelling in [name, name.map Char.toUpper] do
      if let some text ← IO.getEnv spelling then env := env ++ [(spelling, text)]
  return env

/-- The files and directories below the working directory, and the directories above it. -/
def currentTree : IO FileTree := do
  let base := Path.parts (← IO.currentDir).toString
  let above := base.mapIdx fun i _ => (base.take (i + 1), Entry.directory 0o755)
  return {
    entries := above ++ (← entriesBelow base maxLevels ⟨".", "."⟩ base)
    workingDirectory := base }

/-- Run a command in the working directory. -/
def execute (command : Command) : IO UInt32 := do
  let fs ← currentTree
  let outcome := command.run (fun _ => {}) fs (← environment)
  for (p, e) in outcome.tree.entries do
    if fs.get? p ≠ some e then writeEntry (isFile (fs.get? p)) p e
  IO.print outcome.output
  for notice in outcome.notices do
    IO.eprintln notice.line
  match outcome.result with
  | .ok ()   => return 0
  | .error e =>
    IO.eprintln ("Error: " ++ e.report)
    return 1

/-- A summary of the command line. -/
def usage : String :=
  "Usage: apigen [-v | -q] [--no-color] <generate | list | init | schema> [ARGUMENTS]"

end ServiceDocs.Program

open ServiceDocs in
/-- Run the command that the arguments ask for. -/
def main (arguments : List String) : IO UInt32 := do
  match Invocation.ofArguments arguments with
  | .ok invocation => Program.execute invocation.command
  | .error reason  =>
    match reason with
    | .help    => IO.println Program.usage
    | .version => IO.println ("apigen " ++ modelVersion)
    | _        => IO.eprintln Program.usage
    return UInt32.ofNat reason.exitStatus
