import ServiceDocs.Settings.Environment

/-!
# Notices

The lines that tell the user how a command went. They are kept apart from the output of the
command.
-/

namespace ServiceDocs

/-- A line for the user. -/
inductive Notice where
  | success (text : String)
  | information (text : String)
  | warning (text : String)
  | failure (text : String)
deriving DecidableEq, Repr

/-- The line as it is shown, with a sign in front that tells its kind. -/
def Notice.line : Notice → String
  | .success text     => "✓ " ++ text
  | .information text => "ℹ " ++ text
  | .warning text     => "⚠ " ++ text
  | .failure text     => "✗ " ++ text

/-- A number with what it counts: `1 type`, `2 types`. -/
def counted (n : Nat) (noun : String) : String :=
  toString n ++ " " ++ noun ++ (if n = 1 then "" else "s")

/-- Notices are coloured. Two variables decide this, whatever their values; without them it
depends on whether a terminal shows the notices. -/
def Environment.usesColor (env : Environment) (attended : Bool) : Bool :=
  if env.has "NO_COLOR" then false
  else if env.has "FORCE_COLOR" then true
  else attended

end ServiceDocs
