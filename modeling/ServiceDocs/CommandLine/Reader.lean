import ServiceDocs.CommandLine.Level

/-!
# Reading the command line

The parameters of the program and of its commands.
-/

namespace ServiceDocs

namespace CommandLine

/-! ### Values -/

/-- A name of a type or a method. -/
def nameValue (text : String) : Except Interruption Identifier.SimpleName :=
  match Identifier.parse text with
  | .ok name => .ok name
  | .error _ => .error .unreadableValue

/-- A path, which is not empty. -/
def pathValue (text : String) : Except Interruption String :=
  if text = "" then .error .badValue else .ok text

/-- The word for an output format. -/
def formatValue (text : String) : Except Interruption OutputFormat :=
  match OutputFormat.ofWord? text with
  | some f => .ok f
  | none   => .error .badValue

/-- A natural number of 64 bits. -/
def countValue (text : String) : Except Interruption UInt64 :=
  match Text.natural? text.toList with
  | some n => .ok (UInt64.ofNat n)
  | none   => .error .unreadableValue

/-! ### Drafts -/

/-- The arguments of a level with the switches that stand among them. -/
structure Draft (α : Type) where
  switches : Switches := {}
  arguments : α

namespace Draft

variable {α : Type}

/-- The draft with other arguments. -/
def mapArguments (f : α → α) (d : Draft α) : Draft α :=
  { d with arguments := f d.arguments }

/-- The parameter that asks for help. -/
def helpParameter : Parameter (Draft α) :=
  { letter := some 'h', name := "help", effect := .interrupt .help }

/-- The parameters that every level has. -/
def commonParameters : List (Parameter (Draft α)) :=
  [{ letter := some 'v', name := "verbose", isGiven := (·.switches.verbose),
     effect := .switch fun d => { d with switches.verbose := true } },
   { letter := some 'q', name := "quiet", isGiven := (·.switches.quiet),
     effect := .switch fun d => { d with switches.quiet := true } },
   { name := "no-color", isGiven := (·.switches.noColor),
     effect := .switch fun d => { d with switches.noColor := true } },
   helpParameter]

/-- Enter what is read from a word into the arguments. -/
def wordEntry {β : Type} (read : String → Except Interruption β) (set : α → β → α) :
    Draft α → String → Except Interruption (Draft α) :=
  fun d text => do
    let v ← read text
    return d.mapArguments (set · v)

/-- The switches of a level do not exclude each other. -/
def checkSwitches (d : Draft α) : Except Interruption Unit :=
  if d.switches.verbose && d.switches.quiet then .error .conflict else .ok ()

end Draft

/-- The effect of an option whose value is read and then entered into the arguments. -/
def Effect.reading {α β : Type} (read : String → Except Interruption β) (set : α → β → α) :
    Effect (Draft α) :=
  .value (Draft.wordEntry read set)

/-! ### Commands -/

/-- The arguments of `generate`. -/
structure GenerateArguments where
  type : Option Identifier.SimpleName := none
  method : Option Identifier.SimpleName := none
  overrides : Overrides := {}
  settingsFile : Option String := none
deriving DecidableEq, Repr

/-- The parameters of `generate`. -/
def generateLevel : Level (Draft GenerateArguments) where
  parameters :=
    [{ letter := some 'c', name := "class", isGiven := (·.arguments.type.isSome),
       effect := .reading nameValue fun a v => { a with type := some v } },
     { letter := some 'm', name := "method", isGiven := (·.arguments.method.isSome),
       effect := .reading nameValue fun a v => { a with method := some v } },
     { letter := some 'd', name := "out-dir",
       isGiven := (·.arguments.overrides.outDirectory.isSome),
       effect := .reading pathValue fun a v => { a with overrides.outDirectory := some v } },
     { letter := some 'f', name := "format", isGiven := (·.arguments.overrides.format.isSome),
       effect := .reading formatValue fun a v => { a with overrides.format := some v } },
     { name := "max-depth", isGiven := (·.arguments.overrides.maxDepth.isSome),
       effect := .reading countValue fun a v => { a with overrides.maxDepth := some v } },
     { name := "group-id", isGiven := (·.arguments.overrides.coordinates.groupId.isSome),
       effect := .reading .ok fun a v =>
         { a with overrides.coordinates.groupId := some v } },
     { name := "artifact-id", isGiven := (·.arguments.overrides.coordinates.artifactId.isSome),
       effect := .reading .ok fun a v =>
         { a with overrides.coordinates.artifactId := some v } },
     { name := "artifact-version", isGiven := (·.arguments.overrides.coordinates.version.isSome),
       effect := .reading .ok fun a v =>
         { a with overrides.coordinates.version := some v } },
     { name := "config", isGiven := (·.arguments.settingsFile.isSome),
       effect := .reading pathValue fun a v => { a with settingsFile := some v } }]
      ++ Draft.commonParameters
  enterWord? := some <| Draft.wordEntry pathValue fun a v =>
    { a with overrides.sources := a.overrides.sources ++ [v] }

/-- The command `generate`, which needs a type. -/
def GenerateArguments.command (a : GenerateArguments) : Except Interruption Command :=
  match a.type with
  | some type => .ok (.generate type a.method a.overrides a.settingsFile)
  | none      => .error .missingArgument

/-- The arguments of `list`. -/
structure ListArguments where
  sources : List String := []
  type : Option Identifier.SimpleName := none
deriving DecidableEq, Repr

/-- The parameters of `list`. -/
def listLevel : Level (Draft ListArguments) where
  parameters :=
    { letter := some 'c', name := "class", isGiven := (·.arguments.type.isSome),
      effect := .reading nameValue fun a v => { a with type := some v } }
      :: Draft.commonParameters
  enterWord? := some <| Draft.wordEntry pathValue fun a v => { a with sources := a.sources ++ [v] }

/-- The command `list`, which needs a source. -/
def ListArguments.command (a : ListArguments) : Except Interruption Command :=
  if a.sources.isEmpty then .error .missingArgument else .ok (.list a.sources a.type)

/-- The parameters of `init`, where the argument says whether a file is replaced. -/
def initLevel : Level (Draft Bool) where
  parameters :=
    { name := "force", isGiven := (·.arguments),
      effect := .switch (Draft.mapArguments fun _ => true) } :: Draft.commonParameters

/-- The parameters of `schema`, where the argument is the file to write. -/
def schemaLevel : Level (Draft (Option String)) where
  parameters :=
    { letter := some 'o', name := "output", isGiven := (·.arguments.isSome),
      effect := .reading pathValue fun _ v => some v } :: Draft.commonParameters

/-- The names of the commands. -/
def commandNames : List String :=
  ["generate", "list", "init", "schema"]

/-- The word that asks for help on a command. -/
def helpName : String := "help"

/-- The parameters in front of the command. -/
def programLevel : Level (Draft Unit) where
  parameters :=
    { letter := some 'V', name := "version", effect := .interrupt .version }
      :: Draft.commonParameters
  commands := helpName :: commandNames

/-! ### Reading -/

/-- Read the arguments of a command. -/
def readArguments {α : Type} (level : Level (Draft α)) (empty : α)
    (command : α → Except Interruption Command) (arguments : List String) :
    Except Interruption Invocation := do
  let (d, _) ← level.read { arguments := empty } arguments
  d.checkSwitches
  return { switches := d.switches, command := ← command d.arguments }

/-- Read the arguments of the command with the given name. -/
def readCommand (name : String) (arguments : List String) : Except Interruption Invocation :=
  match name with
  | "generate" => readArguments generateLevel {} GenerateArguments.command arguments
  | "list"     => readArguments listLevel {} ListArguments.command arguments
  | "init"     => readArguments initLevel false (fun force => .ok (.init force)) arguments
  | "schema"   => readArguments schemaLevel none (fun output => .ok (.schema output)) arguments
  | _          => .error .unknownCommand

/-- Help is given on the program, on one command or on help itself. -/
def readHelp : List String → Interruption
  | []     => .help
  | [name] => if name = helpName || commandNames.contains name then .help else .unknownCommand
  | _      => .unknownCommand

end CommandLine

open CommandLine in
/-- Read a command line. -/
def Invocation.ofArguments (arguments : List String) : Except Interruption Invocation := do
  let (d, rest) ← programLevel.read { arguments := () } arguments
  match rest with
  | none              =>
    throw (if d.switches = {} then .nothingGiven else .missingCommand)
  | some (name, rest) =>
    if name = helpName then throw (readHelp rest)
    else
      let inner ← readCommand name rest
      d.checkSwitches
      return { inner with switches := d.switches.union inner.switches }

end ServiceDocs
