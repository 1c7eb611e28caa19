import ImportContext.Batch.Run
import ImportContext.CommandLine.Argument
import ImportContext.Locate.Locator

/-!
# Commands

The commands of the program and how they are written.

Main definitions: `Command`, `Invocation`, `parseInvocation`.
-/

namespace ImportContext

/-- How bundles are made, as far as the command line says so. -/
structure EngineArguments where
  tree : Bool := false
  strict : Bool := false
  locator : Option LocatorKind := none
  format : Option BundleFormat := none
  template : Option String := none
  focus : List (String × Path) := []
  ignore : List String := []
  ignoreModules : List String := []
  noIgnoreModules : List String := []
  program : Option String := none
deriving DecidableEq, Repr, Inhabited

structure BundleArguments where
  file : Path
  engine : EngineArguments := {}
  /-- The file that takes the bundle in place of the standard output. -/
  output : Option Path := none
  json : Bool := false
deriving DecidableEq, Repr, Inhabited

structure TreeArguments where
  dir : Path
  ignore : List String := []
  focus : List (String × Path) := []
deriving DecidableEq, Repr, Inhabited

structure BatchArguments where
  dir : Path
  engine : EngineArguments := {}
  /-- How many workers are asked for. Here the files are taken one after the other whatever it is;
  workers take them in some other order, which outputs that meet can show. -/
  jobs : Nat := 0
  options : BatchOptions := {}
  json : Bool := false
deriving DecidableEq, Repr, Inhabited

/-- A shell that words can be completed for. -/
inductive CompletionShell where
  | bash
  | elvish
  | fish
  | powershell
  | zsh
deriving DecidableEq, Repr, Inhabited

/-- The shells by their names. -/
def CompletionShell.names : List (String × CompletionShell) :=
  [("bash", bash), ("elvish", elvish), ("fish", fish), ("powershell", powershell), ("zsh", zsh)]

inductive Command where
  /-- One file with the source of its imports. -/
  | bundle (args : BundleArguments)
  /-- The import declarations of a file. -/
  | imports (file : Path) (json : Bool)
  /-- The module identity of a file. -/
  | module (file : Path)
  /-- A pruned project tree. -/
  | tree (args : TreeArguments)
  /-- Every source file under a directory. -/
  | batch (args : BatchArguments)
  /-- Completions of a shell. -/
  | completions (shell : CompletionShell)
deriving DecidableEq, Repr, Inhabited

/-- A command with what holds for all commands. -/
structure Invocation where
  /-- A configuration file on top of the others. -/
  config : Option Path := none
  verbosity : Nat := 0
  command : Command
deriving DecidableEq, Repr, Inhabited

/-! ## How commands are written -/

/-- The options that stand before and behind the name of a command. -/
def globalOptions : List ArgumentSpec :=
  [{ name := "help", short := some 'h', kind := .help },
    { name := "verbose", short := some 'v', kind := .counter },
    { name := "config", kind := .single .path }]

/-- The options of commands that make bundles. -/
def engineOptions : List ArgumentSpec :=
  [{ name := "tree", kind := .flag },
    { name := "strict", kind := .flag },
    { name := "locator", kind := .single (.oneOf ["static", "dynamic"]) },
    { name := "format", kind := .single (.oneOf ["markdown", "plain"]) },
    { name := "template", kind := .single .text },
    { name := "focus", kind := .many .labelled },
    { name := "ignore", kind := .many .text },
    { name := "ignore-module", kind := .many .text },
    { name := "no-ignore-module", kind := .many .text },
    { name := "python", kind := .single .text }]

def jsonOption : ArgumentSpec :=
  { name := "json", kind := .flag }

/-- The name of every operand. Options have names in lower case. -/
def operandName : String := "OPERAND"

/-- The operand of a command. -/
def operand (kind : ValueKind) : List ArgumentSpec :=
  [{ name := operandName, kind := .single kind }]

/-- The commands and what they take. -/
def commandSpecs : List (String × CommandSpec) :=
  [("bundle", {
      options := globalOptions ++ engineOptions ++
        [jsonOption, { name := "output", short := some 'o', kind := .single .path }]
      operands := operand .path }),
    ("imports", { options := globalOptions ++ [jsonOption], operands := operand .path }),
    ("module", { options := globalOptions, operands := operand .path }),
    ("tree", {
      options := globalOptions ++
        [{ name := "ignore", kind := .many .text }, { name := "focus", kind := .many .labelled }]
      operands := operand .path }),
    ("batch", {
      options := globalOptions ++ engineOptions ++
        [jsonOption,
          { name := "jobs", short := some 'j', kind := .single .number },
          { name := "output-dir", kind := .single .path },
          { name := "include", kind := .many .text }]
      operands := operand .path }),
    ("completions", {
      options := globalOptions
      operands := operand (.oneOf (CompletionShell.names.map (·.1))) })]

/-- The command that tells about the others. -/
def helpCommand : String := "help"

/-- The names of all commands. -/
def commandNames : List String :=
  commandSpecs.map (·.1) ++ [helpCommand]

/-- What stands before the name of a command. -/
def programSpec : CommandSpec where
  options := globalOptions ++ [{ name := "version", short := some 'V', kind := .version }]
  commands := commandNames

/-! ## Reading commands -/

/-- The arguments of the given name that are a label and a path. -/
def labelledValues (r : Reading) (name : String) : List (String × Path) :=
  (r.values name).filterMap parseLabelled?

def pathValue? (r : Reading) (name : String) : Option Path :=
  (r.value? name).map Path.mk

/-- The operand of a command. -/
def operandPath (r : Reading) : Path :=
  (pathValue? r operandName).getD ⟨""⟩

def EngineArguments.ofReading (r : Reading) : EngineArguments where
  tree := r.has "tree"
  strict := r.has "strict"
  locator := (r.value? "locator").bind fun s => (LocatorKind.ofName s).toOption
  format := (r.value? "format").bind fun s => (BundleFormat.ofName s).toOption
  template := r.value? "template"
  focus := labelledValues r "focus"
  ignore := r.values "ignore"
  ignoreModules := r.values "ignore-module"
  noIgnoreModules := r.values "no-ignore-module"
  program := r.value? "python"

/-- Patterns that were given take the place of the usual ones. -/
def BatchOptions.ofReading (r : Reading) : BatchOptions where
  selection := if r.has "include" then r.values "include" else ({} : BatchOptions).selection
  outputDir := pathValue? r "output-dir"

/-- The command of a name with its arguments. -/
def Command.ofReading? (name : String) (r : Reading) : Option Command :=
  match name with
  | "bundle" => some (.bundle {
      file := operandPath r
      engine := .ofReading r
      output := pathValue? r "output"
      json := r.has "json" })
  | "imports" => some (.imports (operandPath r) (r.has "json"))
  | "module" => some (.module (operandPath r))
  | "tree" => some (.tree {
      dir := operandPath r
      ignore := r.values "ignore"
      focus := labelledValues r "focus" })
  | "batch" => some (.batch {
      dir := operandPath r
      engine := .ofReading r
      jobs := ((r.value? "jobs").bind fun s => (Text.parseNumber s).toOption).getD 0
      options := .ofReading r
      json := r.has "json" })
  | "completions" =>
    ((r.value? operandName).bind (List.lookup · CompletionShell.names)).map .completions
  | _ => none

/-- What a request for help comes to; at most one command can be named. -/
def helpAnswer (topics : List String) : UsageError :=
  match topics with
  | [] => .help
  | [topic] => if commandNames.contains topic then .help else .unknownCommand
  | _ => .unknownCommand

/-- Reads a command with its arguments. -/
def parseCommand (name : String) (args : List String) : Except UsageError (Command × Reading) :=
  match commandSpecs.lookup name with
  | none => .error (helpAnswer args)
  | some spec => do
    let r ← readArguments spec args
    match Command.ofReading? name r with
    | some c => .ok (c, r)
    | none => .error .unknownCommand

/-- Reads all arguments of the program. What stands behind the command wins over what stands before
it, which is checked after the command itself. -/
def parseInvocation (args : List String) : Except UsageError Invocation := do
  let scan ← scanArguments programSpec {} args
  match scan.command with
  | some (name, rest) =>
    let (command, inner) ← parseCommand name rest
    let outer ← scan.reading.settle
    .ok {
      config := pathValue? inner "config" <|> pathValue? outer "config"
      verbosity := ((if inner.has "verbose" then inner else outer).values "verbose").length
      command }
  | none =>
    let outer ← scan.reading.settle
    .error (if outer.given.isEmpty then .nothingGiven else .missingCommand)

end ImportContext
