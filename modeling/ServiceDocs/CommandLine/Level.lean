import ServiceDocs.CommandLine.Basic

/-!
# Levels of a command line

A command line has two levels: the switches in front of the command, and the arguments of the
command. A level is read from left to right into a draft.

A value that stands in an argument of its own, and words that are no options, are put off: they
are checked and entered when the next option begins or the level ends. So an option that is not
known is reported before a bad value in front of it.
-/

namespace ServiceDocs.CommandLine

/-! ### Arguments -/

/-- The forms of an argument. -/
inductive Form where
  /-- Two hyphens, behind which every argument is a word. -/
  | terminator
  /-- Two hyphens, a name and perhaps a value behind an equals sign. -/
  | long (name : List Char) (value : Option String)
  /-- One hyphen and letters. -/
  | short (letters : List Char)
  /-- Anything else, a single hyphen included. -/
  | word
deriving DecidableEq, Repr

/-- The form of an argument. -/
def Form.of (argument : String) : Form :=
  match argument.toList with
  | ['-', '-']       => .terminator
  | '-' :: '-' :: cs =>
    .long (cs.takeWhile (· ≠ '='))
      (match cs.dropWhile (· ≠ '=') with
       | _ :: v => some (String.ofList v)
       | []     => none)
  | '-' :: c :: cs   => .short (c :: cs)
  | _                => .word

/-! ### Parameters -/

/-- What is entered into a draft. -/
inductive Effect (α : Type) where
  /-- A switch is set. -/
  | switch (set : α → α)
  /-- A value is entered. -/
  | value (set : α → String → Except Interruption α)
  /-- Reading comes to an end. -/
  | interrupt (reason : Interruption)

/-- A parameter that is given by a name or a letter. -/
structure Parameter (α : Type) where
  letter : Option Char := none
  name : String
  /-- The parameter has been entered; it may be given once. -/
  isGiven : α → Bool := fun _ => false
  effect : Effect α

/-- The parameters of a level. -/
structure Level (α : Type) where
  parameters : List (Parameter α)
  /-- How a word is entered, where words are allowed. -/
  enterWord? : Option (α → String → Except Interruption α) := none
  /-- The words that end the level and begin a command. -/
  commands : List String := []

namespace Level

variable {α : Type} (level : Level α)

/-- The parameter of that name. -/
def ofName? (name : List Char) : Option (Parameter α) :=
  level.parameters.find? (·.name.toList = name)

/-- The parameter with that letter. -/
def ofLetter? (letter : Char) : Option (Parameter α) :=
  level.parameters.find? (·.letter = some letter)

/-- Why a word cannot stand here. -/
def strayWord (trailing : Bool) (word : String) : Interruption :=
  if level.commands.isEmpty || (trailing && level.commands.contains word) then .unknownArgument
  else .unknownCommand

end Level

/-! ### Reading -/

/-- What has been put off. -/
inductive Pending (α : Type) where
  | nothing
  /-- An option that takes a value, with the value if it has been met. -/
  | option (p : Parameter α) (value : Option String)
  /-- Words, in order. -/
  | words (ws : List String)

/-- The draft of a level and what has been put off. -/
structure Progress (α : Type) where
  draft : α
  pending : Pending α := .nothing

namespace Progress

variable {α : Type} (level : Level α) (st : Progress α)

/-- The next word is the value of an option. -/
def awaitsValue : Bool :=
  match st.pending with
  | .option _ none => true
  | _              => false

/-- Enter a parameter, which may have a value. -/
def enter (p : Parameter α) (value : Option String) (draft : α) : Except Interruption α :=
  match p.effect, value with
  | .value _,     none   => .error .badValue
  | .value set,   some v => if p.isGiven draft then .error .conflict else set draft v
  | .switch set,  _      => if p.isGiven draft then .error .conflict else .ok (set draft)
  | .interrupt r, _      => .error r

/-- The draft with what has been put off. -/
def settle : Except Interruption α :=
  match st.pending with
  | .nothing    => .ok st.draft
  | .option p v => enter p v st.draft
  | .words ws   =>
    match level.enterWord? with
    | some enterWord => ws.foldlM enterWord st.draft
    | none           => .ok st.draft

/-- Enter a parameter behind what has been put off. -/
def give (p : Parameter α) (value : Option String) : Except Interruption (Progress α) := do
  return { draft := ← enter p value (← st.settle level) }

/-- Put off an option whose value is still to come. -/
def await (p : Parameter α) : Except Interruption (Progress α) := do
  return { draft := ← st.settle level, pending := .option p none }

/-- Read an argument with a name. -/
def readLong (name : List Char) (value : Option String) : Except Interruption (Progress α) :=
  match level.ofName? name with
  | none   => .error .unknownArgument
  | some p =>
    match p.effect, value with
    | .value _, none   => st.await level p
    | .value _, some v => st.give level p (some v)
    | _,        none   => st.give level p none
    | _,        some _ => .error .needlessValue

/-- Read the letters of an argument. What follows the letter of an option is its value, without
an equals sign in front. -/
def readLetters (st : Progress α) : List Char → Except Interruption (Progress α)
  | []      => .ok st
  | c :: cs =>
    match level.ofLetter? c with
    | none   => .error .unknownArgument
    | some p =>
      match p.effect, cs with
      | .value _, []        => st.await level p
      | .value _, '=' :: cs => st.give level p (some (String.ofList cs))
      | .value _, cs        => st.give level p (some (String.ofList cs))
      | _,        cs        => do readLetters (← st.give level p none) cs

/-- Read a word that is not the value of an option. -/
def readWord (trailing : Bool) (word : String) : Except Interruption (Progress α) :=
  if level.enterWord?.isNone then .error (level.strayWord trailing word)
  else
    match st.pending with
    | .words ws => .ok { st with pending := .words (ws ++ [word]) }
    | _         => do return { draft := ← st.settle level, pending := .words [word] }

end Progress

namespace Level

variable {α : Type} (level : Level α)

/-- Read arguments up to the end or to a command, which is returned with the arguments behind
it. Behind a terminator every argument is a word. -/
def readFrom (trailing : Bool) (st : Progress α) :
    List String → Except Interruption (α × Option (String × List String))
  | []          => do return (← st.settle level, none)
  | arg :: args =>
    if trailing then do readFrom true (← st.readWord level true arg) args
    else if !st.awaitsValue && level.commands.contains arg then do
      return (← st.settle level, some (arg, args))
    else
      match Form.of arg with
      | .terminator   => readFrom true st args
      | .long name v  => do readFrom false (← st.readLong level name v) args
      | .short cs     => do readFrom false (← st.readLetters level cs) args
      | .word         =>
        match st.pending with
        | .option p none => readFrom false { st with pending := .option p (some arg) } args
        | _              => do readFrom false (← st.readWord level false arg) args

/-- Read arguments, beginning with an empty draft. -/
def read (draft : α) (arguments : List String) :
    Except Interruption (α × Option (String × List String)) :=
  level.readFrom false { draft } arguments

end Level

end ServiceDocs.CommandLine
