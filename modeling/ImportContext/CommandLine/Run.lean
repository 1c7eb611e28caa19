import ImportContext.CommandLine.Report
import ImportContext.Config.Load

/-!
# Running commands

A command prints a text, perhaps fails, and perhaps changes files.

Main definitions: `EngineArguments.apply`, `EngineArguments.options`, `Invocation.run`.
-/

namespace ImportContext

/-! ## The engine -/

namespace EngineArguments

/-- The configuration with what the command line says. The locator and the interpreter are
replaced if they were given, modules are added. -/
def apply (e : EngineArguments) (c : Config) : Config :=
  { c with
    defaults := { c.defaults with locator := e.locator.map LocatorKind.name <|> c.defaults.locator }
    interpreter := { c.interpreter with program := e.program <|> c.interpreter.program }
    filter := { c.filter with
      ignoreModules := c.filter.ignoreModules ++ e.ignoreModules
      noIgnoreModules := c.filter.noIgnoreModules ++ e.noIgnoreModules } }

/-- The options of a configuration with what the command line says. -/
def override (e : EngineArguments) (o : BundleOptions) : BundleOptions :=
  { o with
    format := e.format.getD o.format
    template := e.template <|> o.template
    showProjectTree := o.showProjectTree || e.tree
    skipWhenError := o.skipWhenError && !e.strict
    ignorePatterns := o.ignorePatterns ++ e.ignore
    focus := o.focus.extend e.focus }

/-- The options that a configuration and the command line ask for. -/
def options (e : EngineArguments) (c : Config) : Except SetupError BundleOptions :=
  (BundleOptions.ofConfig c).map e.override

/-- The bundler that a configuration and the command line ask for. -/
def bundler (e : EngineArguments) (h : Host) (c : Config) : Except SetupError Bundler := do
  let c := e.apply c
  Bundler.ofConfig h c (← e.options c)

end EngineArguments

/-! ## Commands -/

/-- Why a command failed. -/
inductive CommandError where
  | unreadable (file : Path) (cause : OsError)
  | malformed (file : Path) (cause : SyntaxError)
  | module (file : Path) (cause : ResolutionError)
  | config (cause : ConfigError)
  | setup (cause : SetupError)
  | ignore (cause : IgnoreError)
  | tree (cause : TreeError)
  | bundle (file : Path) (cause : BundleError)
  | write (cause : WriteError)
  | batch (cause : BatchError)
  /-- So many files of a batch failed for good. -/
  | fatalFiles (count : Nat)
deriving DecidableEq, Repr

/-- The wording of an error, its causes behind it. -/
def CommandError.message : CommandError → String
  | unreadable file cause => "failed to read " ++ file.text ++ ": " ++ cause.message
  | malformed file cause => "failed to parse " ++ file.text ++ ": " ++ cause.message
  | module file cause => "failed to locate module for " ++ file.text ++ ": " ++ cause.message
  | config cause => cause.message
  | setup cause => cause.message
  | ignore cause => cause.message
  | tree cause => cause.message
  | bundle file cause => "failed to bundle " ++ file.text ++ ": " ++ cause.message
  | write cause => cause.message
  | batch cause => cause.message
  | fatalFiles count => toString count ++ " file(s) failed fatally"

/-- What a command did. -/
structure RunResult where
  stdout : String := ""
  failure : Option CommandError := none
  /-- The host afterwards. -/
  host : Host
deriving Inhabited

/-- The result of a command that changes no file. -/
def RunResult.ofText (h : Host) : Except CommandError String → RunResult
  | .ok text => { stdout := text, host := h }
  | .error e => { failure := some e, host := h }

/-- The declarations of a file, a line for each or as JSON. -/
def importsReport (h : Host) (file : Path) (json : Bool) : Except CommandError String := do
  let source ← (h.readText file).mapError (.unreadable file)
  let declarations ← (extractImports source).mapError (.malformed file)
  .ok (if json then (JsonValue.array (declarations.map ImportDeclaration.toJson)).pretty ++ "\n"
    else String.join (declarations.map ImportDeclaration.line))

/-- The identity of a file. -/
def moduleReport (h : Host) (file : Path) : Except CommandError String :=
  ((PackageLayout.locate {} h file).mapError (.module file)).map ModuleLocation.report

/-- The tree of a directory. -/
def treeReport (h : Host) (c : Config) (args : TreeArguments) : Except CommandError String := do
  let rules ← (IgnoreRuleSet.ofPatterns (c.ignorePatterns ++ args.ignore)).mapError .ignore
  let tree ← (buildTree h args.dir rules (c.focus.extend args.focus) none).mapError .tree
  .ok (tree.render ++ "\n")

/-- The bundle of a file, as it is shown. -/
def bundleReport (h : Host) (c : Config) (args : BundleArguments) :
    Except CommandError String := do
  let bundler ← (args.engine.bundler h c).mapError .setup
  let bundle ← (bundler.bundle h args.file).mapError (.bundle args.file)
  .ok (if args.json then bundle.toJson.pretty else bundle.text)

/-- Makes a bundle and prints or writes it. -/
def runBundle (h : Host) (c : Config) (args : BundleArguments) : RunResult :=
  match bundleReport h c args, args.output with
  | .error e, _ => { failure := some e, host := h }
  | .ok text, none => { stdout := text ++ "\n", host := h }
  | .ok text, some destination =>
    match writeOutput h destination text with
    | (.ok _, h) => { host := h }
    | (.error e, h) => { failure := some (.write e), host := h }

/-- What is printed about a batch. -/
def batchReport (json : Bool) (outcomes : List FileOutcome) : String :=
  if json then (JsonValue.array (outcomes.map FileOutcome.toJson)).pretty ++ "\n"
  else String.join (outcomes.map FileOutcome.line)

/-- A batch fails when a file failed for good. -/
def batchFailure (outcomes : List FileOutcome) : Option CommandError :=
  match outcomes.countP FileOutcome.isFatal with
  | 0 => none
  | n + 1 => some (.fatalFiles (n + 1))

/-- Bundles all files of a directory. -/
def runBatchCommand (h : Host) (c : Config) (args : BatchArguments) : RunResult :=
  match args.engine.bundler h c with
  | .error e => { failure := some (.setup e), host := h }
  | .ok bundler =>
    match runBatch bundler h args.dir args.options with
    | .error e => { failure := some (.batch e), host := h }
    | .ok (outcomes, h) =>
      { stdout := batchReport args.json outcomes, failure := batchFailure outcomes, host := h }

/-- Runs a command that needs the configuration. -/
def withConfig (h : Host) (explicit : Option Path) (f : Config → RunResult) : RunResult :=
  match Config.load h explicit with
  | .error e => { failure := some (.config e), host := h }
  | .ok c => f c

/-- Runs a command. -/
def Invocation.run (i : Invocation) (h : Host) : RunResult :=
  match i.command with
  | .completions shell => { stdout := shell.script, host := h }
  | .imports file json => .ofText h (importsReport h file json)
  | .module file => .ofText h (moduleReport h file)
  | .tree args => withConfig h i.config fun c => .ofText h (treeReport h c args)
  | .bundle args => withConfig h i.config fun c => runBundle h c args
  | .batch args => withConfig h i.config fun c => runBatchCommand h c args

end ImportContext
