import ServiceDocs.Identifier
import ServiceDocs.Settings.Layer

/-!
# Commands

What can be asked for on the command line, and why a command line asks for nothing that can be
done.
-/

namespace ServiceDocs

/-- A command with its arguments. -/
inductive Command where
  /-- Document the methods of a type, or only those of one name. -/
  | generate (type : Identifier.SimpleName) (method : Option Identifier.SimpleName)
      (overrides : Overrides) (settingsFile : Option String)
  /-- Show the types of the sources, or the methods of one type. -/
  | list (sources : List String) (type : Option Identifier.SimpleName)
  /-- Write a settings file to start with. -/
  | init (force : Bool)
  /-- Show the schema of settings, or write it to a file. -/
  | schema (output : Option String)
deriving DecidableEq, Repr

/-- The switches that may stand in front of a command or behind it. -/
structure Switches where
  verbose : Bool := false
  quiet : Bool := false
  noColor : Bool := false
deriving DecidableEq, Inhabited, Repr

/-- The switches that are set in either place. -/
def Switches.union (s t : Switches) : Switches where
  verbose := s.verbose || t.verbose
  quiet := s.quiet || t.quiet
  noColor := s.noColor || t.noColor

/-- A command line that has been read. -/
structure Invocation where
  switches : Switches
  command : Command
deriving DecidableEq, Repr

/-- Why a command line gives no command to run. -/
inductive Interruption where
  /-- Help is asked for. -/
  | help
  /-- The version is asked for. -/
  | version
  /-- There are no arguments at all. -/
  | nothingGiven
  | missingCommand
  | unknownCommand
  | missingArgument
  | unknownArgument
  /-- An argument is given twice, or together with one that it excludes. -/
  | conflict
  /-- A value is given to a switch. -/
  | needlessValue
  /-- A value is missing, empty where it may not be, or none of the possible ones. -/
  | badValue
  /-- A value cannot be read as what it has to be. -/
  | unreadableValue
deriving DecidableEq, Repr

/-- The status with which the program ends. -/
def Interruption.exitStatus : Interruption → Nat
  | .help | .version => 0
  | _                => 2

end ServiceDocs
