import ImportContext.Path.Basic
import ImportContext.Text.Number

/-!
# Reading arguments

Arguments are options with a long name and perhaps a short one, and operands, which are told by
their position. They are read from left to right. An option that takes a value, or an operand,
stays open until the next argument is handled, and only then its value is checked; so of several
faults the first one that is noticed decides.

Main definitions: `ArgumentSpec`, `Reading.settle`, `scanArguments`.
-/

namespace ImportContext

/-- Why arguments cannot be read, or what is shown instead. -/
inductive UsageError where
  | help
  | version
  /-- Nothing at all was given. -/
  | nothingGiven
  /-- A value is missing, empty where it may not be, or not one of a list. -/
  | invalidValue
  /-- A value has not the form that it needs. -/
  | malformedValue
  /-- A flag was given a value. -/
  | surplusValue
  /-- An option that may be given once was given again. -/
  | repeated
  | unknownArgument
  | missingOperand
  | unknownCommand
  | missingCommand
deriving DecidableEq, Repr

/-- What a value may be. -/
inductive ValueKind where
  | text
  | path
  | number
  /-- A label and a path, as `LABEL=PATH`. -/
  | labelled
  /-- One of some names. -/
  | oneOf (names : List String)
deriving DecidableEq, Repr

/-- A label and a path, divided by the first `=`; neither may be empty. -/
def parseLabelled? (s : String) : Option (String × Path) :=
  let label := Text.trim (String.ofList (s.toList.takeWhile (· != '=')))
  let path := String.ofList ((s.toList.dropWhile (· != '=')).drop 1)
  if label == "" || path == "" then none else some (label, ⟨path⟩)

/-- What is wrong with a value. -/
def ValueKind.fault? (k : ValueKind) (value : String) : Option UsageError :=
  match k with
  | text => none
  | path => if value == "" then some .invalidValue else none
  | number => if (Text.parseNumber value).toOption.isNone then some .malformedValue else none
  | labelled => if (parseLabelled? value).isNone then some .malformedValue else none
  | oneOf names => if names.contains value then none else some .invalidValue

/-- What an argument does. -/
inductive ArgumentKind where
  /-- Shows the help. -/
  | help
  /-- Shows the version. -/
  | version
  /-- Stands alone, once. -/
  | flag
  /-- Stands alone, any number of times. -/
  | counter
  /-- Takes a value, once. -/
  | single (value : ValueKind)
  /-- Takes a value, any number of times. -/
  | many (value : ValueKind)
deriving DecidableEq, Repr

def ArgumentKind.takesValue : ArgumentKind → Bool
  | single _ => true
  | many _ => true
  | _ => false

/-- An argument that a command knows. -/
structure ArgumentSpec where
  name : String
  short : Option Char := none
  kind : ArgumentKind
deriving DecidableEq, Repr

/-- The arguments of one command. -/
structure CommandSpec where
  options : List ArgumentSpec
  /-- The operands, all of them required, in order. -/
  operands : List ArgumentSpec := []
  /-- The names of commands below this one. -/
  commands : List String := []
deriving Repr, Inhabited

namespace CommandSpec

def option? (s : CommandSpec) (name : String) : Option ArgumentSpec :=
  s.options.find? (·.name == name)

def shortOption? (s : CommandSpec) (c : Char) : Option ArgumentSpec :=
  s.options.find? (·.short == some c)

/-- What an operand too many amounts to. Behind `--` the name of a command is no command. -/
def surplusFault (s : CommandSpec) (behindDashes : Bool) (arg : String) : UsageError :=
  if s.commands.isEmpty || (behindDashes && s.commands.contains arg) then .unknownArgument
  else .unknownCommand

end CommandSpec

/-- What has been read so far. -/
structure Reading where
  /-- The arguments that were given, with their values, in order. -/
  given : List (String × String) := []
  /-- The argument that is open, with its value if it is there. -/
  pending : Option (ArgumentSpec × Option String) := none
  /-- The operands that are still to come. -/
  operands : List ArgumentSpec := []
deriving Repr, Inhabited

namespace Reading

/-- Notes an argument without a value. -/
def note (r : Reading) (name : String) : Reading :=
  { r with given := r.given ++ [(name, "")] }

def has (r : Reading) (name : String) : Bool :=
  r.given.any (·.1 == name)

/-- The values of an argument, in order. -/
def values (r : Reading) (name : String) : List String :=
  (r.given.filter (·.1 == name)).map (·.2)

/-- The value of an argument. -/
def value? (r : Reading) (name : String) : Option String :=
  (r.values name).head?

/-- Checks and notes a value. -/
def noteValue (r : Reading) (name : String) (kind : ValueKind) (value : String) :
    Except UsageError Reading :=
  match kind.fault? value with
  | some fault => .error fault
  | none => .ok { r with given := r.given ++ [(name, value)] }

/-- Notes an argument that is complete. -/
def accept (r : Reading) (a : ArgumentSpec) (value : Option String) : Except UsageError Reading :=
  match a.kind, value with
  | .help, _ => .error .help
  | .version, _ => .error .version
  | .flag, _ => if r.has a.name then .error .repeated else .ok (r.note a.name)
  | .counter, _ => .ok (r.note a.name)
  | .single _, none => .error .invalidValue
  | .single kind, some v => if r.has a.name then .error .repeated else r.noteValue a.name kind v
  | .many _, none => .error .invalidValue
  | .many kind, some v => r.noteValue a.name kind v

/-- Closes the open argument. -/
def settle (r : Reading) : Except UsageError Reading :=
  match r.pending with
  | none => .ok r
  | some (a, value) => { r with pending := none }.accept a value

/-- Closes the open argument, then notes one that is complete. -/
def add (r : Reading) (a : ArgumentSpec) (value : Option String) : Except UsageError Reading := do
  (← r.settle).accept a value

/-- Closes the open argument and opens another one. -/
def openNext (r : Reading) (a : ArgumentSpec) (value : Option String) :
    Except UsageError Reading := do
  .ok { (← r.settle) with pending := some (a, value) }

/-- Takes an operand. -/
def takeOperand (r : Reading) (s : CommandSpec) (behindDashes : Bool) (arg : String) :
    Except UsageError Reading :=
  match r.operands with
  | [] => .error (s.surplusFault behindDashes arg)
  | a :: rest => { r with operands := rest }.openNext a (some arg)

/-- The option that waits for its value. -/
def awaiting? (r : Reading) : Option ArgumentSpec :=
  match r.pending with
  | some (a, none) => some a
  | _ => none

end Reading

/-- Reads an option by its long name, with the value behind its `=`. -/
def readLong (s : CommandSpec) (r : Reading) (name : String) (value : Option String) :
    Except UsageError Reading :=
  match s.option? name, value with
  | none, _ => .error .unknownArgument
  | some a, some v => if a.kind.takesValue then r.add a (some v) else .error .surplusValue
  | some a, none => if a.kind.takesValue then r.openNext a none else r.add a none

/-- Reads options by their short names. All that follows one with a value is its value, a first
`=` apart. -/
def readShorts (s : CommandSpec) (r : Reading) : List Char → Except UsageError Reading
  | [] => .ok r
  | c :: rest =>
    match s.shortOption? c with
    | none => .error .unknownArgument
    | some a =>
      if a.kind.takesValue then
        match rest with
        | [] => r.openNext a none
        | '=' :: value => r.add a (some (String.ofList value))
        | value => r.add a (some (String.ofList value))
      else do
        readShorts s (← r.add a none) rest

/-- Whether an argument is written as an option. A dash alone is none. -/
def looksLikeOption (arg : String) : Bool :=
  match arg.toList with
  | '-' :: _ :: _ => true
  | _ => false

/-- Reads one argument that is written as an option. -/
def readOption (s : CommandSpec) (r : Reading) (arg : String) : Except UsageError Reading :=
  match arg.toList with
  | '-' :: '-' :: cs =>
    let value := cs.dropWhile (· != '=')
    readLong s r (String.ofList (cs.takeWhile (· != '=')))
      (if value.isEmpty then none else some (String.ofList (value.drop 1)))
  | _ :: cs => readShorts s r cs
  | [] => .ok r

/-- What was read before a command, and the command with its own arguments. -/
structure Scan where
  reading : Reading
  command : Option (String × List String) := none
deriving Repr, Inhabited

/-- Reads arguments up to the name of a command. An option that waits for its value takes the next
argument, unless that is written as an option. -/
def scanArguments (s : CommandSpec) (r : Reading) : List String → Except UsageError Scan
  | [] => .ok { reading := r }
  | arg :: rest =>
    if arg == "--" then do
      .ok { reading := ← rest.foldlM (fun r arg => r.takeOperand s true arg) r }
    else if looksLikeOption arg then do
      scanArguments s (← readOption s r arg) rest
    else
      match r.awaiting? with
      | some a => scanArguments s { r with pending := some (a, some arg) } rest
      | none =>
        if s.commands.contains arg then .ok { reading := r, command := some (arg, rest) }
        else do
          scanArguments s (← r.takeOperand s false arg) rest

/-- Reads all arguments of a command that has none below it. -/
def readArguments (s : CommandSpec) (args : List String) : Except UsageError Reading := do
  let r ← (← scanArguments s { operands := s.operands } args).reading.settle
  if r.operands.isEmpty then .ok r else .error .missingOperand

end ImportContext
