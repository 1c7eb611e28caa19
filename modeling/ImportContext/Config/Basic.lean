import ImportContext.Tree.Focus

/-!
# Configuration

Settings come in layers: the built-in ones, then files. A later layer replaces single values and
adds to lists, which are kept sorted and without duplicates.

Main definitions: `Config`, `Config.merge`, `Config.builtin`.
-/

namespace ImportContext

/-- How bundles are made unless the command line says otherwise. -/
structure BundleDefaults where
  locator : Option String := none
  format : Option String := none
  codeName : Option String := none
  tokenModel : Option String := none
  template : Option String := none
  description : Option String := none
  headingLevel : Option Nat := none
  skipWhenError : Option Bool := none
  showProjectTree : Option Bool := none
deriving DecidableEq, Repr, Inhabited

/-- Which imports are left out. -/
structure FilterSettings where
  enabled : Option Bool := none
  minDownloads : Option Nat := none
  ignoreModules : List String := []
  noIgnoreModules : List String := []
  /-- Distributions that count as popular in any case. -/
  popularPackages : List String := []
  downloadsTable : Option Path := none
deriving DecidableEq, Repr, Inhabited

/-- Which interpreter is asked, and where else modules are looked for. -/
structure InterpreterSettings where
  program : Option String := none
  searchPaths : List Path := []
deriving DecidableEq, Repr, Inhabited

/-- All settings of one layer, or of several merged. -/
structure Config where
  defaults : BundleDefaults := {}
  ignorePatterns : List String := []
  filter : FilterSettings := {}
  interpreter : InterpreterSettings := {}
  focus : FocusItems := {}
deriving DecidableEq, Repr, Inhabited

/-! ## Values in force -/

namespace BundleDefaults

def locatorName (d : BundleDefaults) : String :=
  d.locator.getD "static"

def formatName (d : BundleDefaults) : String :=
  d.format.getD "markdown"

def codeNameText (d : BundleDefaults) : String :=
  d.codeName.getD "primary"

def tokenModelName (d : BundleDefaults) : String :=
  d.tokenModel.getD "openai:gpt-4o"

/-- The level of the first heading, between 1 and 6. -/
def level (d : BundleDefaults) : Nat :=
  max 1 (min (d.headingLevel.getD 2) 6)

def skips (d : BundleDefaults) : Bool :=
  d.skipWhenError.getD true

def showsTree (d : BundleDefaults) : Bool :=
  d.showProjectTree.getD false

end BundleDefaults

namespace FilterSettings

def isEnabled (f : FilterSettings) : Bool :=
  f.enabled.getD true

def threshold (f : FilterSettings) : Nat :=
  f.minDownloads.getD 1000000

end FilterSettings

/-- The interpreter that is asked. -/
def InterpreterSettings.programName (i : InterpreterSettings) : String :=
  i.program.getD "python3"

/-! ## Merging -/

/-- A value put in its place in a sorted list. Of it and an equal one that is there already,
`choose` says which one stays. -/
def insertSorted {α : Type} (le : α → α → Bool) (choose : α → α → α) (a : α) : List α → List α
  | [] => [a]
  | b :: rest =>
    if le a b then (if le b a then choose b a :: rest else a :: b :: rest)
    else b :: insertSorted le choose a rest

/-- Values added to a sorted list one after the other. -/
def insertAll {α : Type} (le : α → α → Bool) (choose : α → α → α) (values sorted : List α) :
    List α :=
  values.foldl (fun acc a => insertSorted le choose a acc) sorted

/-- All values of two lists, sorted and each once. Of equal values of `base` the last one is kept;
those of `overlay` are only added. -/
def sortedUnion {α : Type} (le : α → α → Bool) (base overlay : List α) : List α :=
  insertAll le (fun old _ => old) overlay (insertAll le (fun _ new => new) base [])

/-- Texts in the order of their code points. -/
def textLe (a b : String) : Bool :=
  decide (a ≤ b)

def BundleDefaults.merge (base overlay : BundleDefaults) : BundleDefaults where
  locator := overlay.locator <|> base.locator
  format := overlay.format <|> base.format
  codeName := overlay.codeName <|> base.codeName
  tokenModel := overlay.tokenModel <|> base.tokenModel
  template := overlay.template <|> base.template
  description := overlay.description <|> base.description
  headingLevel := overlay.headingLevel <|> base.headingLevel
  skipWhenError := overlay.skipWhenError <|> base.skipWhenError
  showProjectTree := overlay.showProjectTree <|> base.showProjectTree

def FilterSettings.merge (base overlay : FilterSettings) : FilterSettings where
  enabled := overlay.enabled <|> base.enabled
  minDownloads := overlay.minDownloads <|> base.minDownloads
  ignoreModules := sortedUnion textLe base.ignoreModules overlay.ignoreModules
  noIgnoreModules := sortedUnion textLe base.noIgnoreModules overlay.noIgnoreModules
  popularPackages := sortedUnion textLe base.popularPackages overlay.popularPackages
  downloadsTable := overlay.downloadsTable <|> base.downloadsTable

def InterpreterSettings.merge (base overlay : InterpreterSettings) : InterpreterSettings where
  program := overlay.program <|> base.program
  searchPaths := sortedUnion Path.le base.searchPaths overlay.searchPaths

/-- Two layers as one, the second on top. -/
def Config.merge (base overlay : Config) : Config where
  defaults := base.defaults.merge overlay.defaults
  ignorePatterns := sortedUnion textLe base.ignorePatterns overlay.ignorePatterns
  filter := base.filter.merge overlay.filter
  interpreter := base.interpreter.merge overlay.interpreter
  focus := base.focus.extend overlay.focus.items

/-! ## Further steps -/

/-- A relative path of a layer seen from a directory. -/
def anchorPath (dir path : Path) : Path :=
  if path.isAbsolute then path else dir.join path

/-- The layer of a file in the given directory, with its relative paths counted from there. -/
def Config.anchored (c : Config) (dir : Path) : Config :=
  { c with
    interpreter := { c.interpreter with
      searchPaths := c.interpreter.searchPaths.map (anchorPath dir) }
    filter := { c.filter with downloadsTable := c.filter.downloadsTable.map (anchorPath dir) } }

/-- A value of the environment, unless it is empty. -/
def nonEmpty (s : Option String) : Option String :=
  s.filter (· != "")

/-- The configuration with the values that the environment sets. -/
def Config.withEnvironment (c : Config) (env : Environment) : Config :=
  { c with
    defaults := { c.defaults with locator := nonEmpty env.locator <|> c.defaults.locator }
    interpreter := { c.interpreter with
      program := nonEmpty env.interpreter <|> c.interpreter.program } }

/-- Distributions that everybody is assumed to know. -/
def popularDistributions : List String :=
  ["aiohttp", "attrs", "beautifulsoup4", "boto3", "botocore", "certifi", "charset-normalizer",
    "click", "cryptography", "django", "fastapi", "flask", "grpcio", "httpx", "idna", "jinja2",
    "matplotlib", "numpy", "opencv-python", "packaging", "pandas", "pillow", "protobuf",
    "pydantic", "pytest", "python-dateutil", "pytz", "pyyaml", "requests", "scikit-learn",
    "scipy", "setuptools", "six", "sqlalchemy", "tensorflow", "torch", "tqdm",
    "typing-extensions", "urllib3"]

/-- The layer below all others. -/
def Config.builtin : Config where
  defaults := {
    locator := some "static"
    format := some "markdown"
    codeName := some "primary"
    tokenModel := some "openai:gpt-4o"
    headingLevel := some 2
    skipWhenError := some true
    showProjectTree := some false }
  filter := {
    enabled := some true
    minDownloads := some 1000000
    popularPackages := popularDistributions }
  interpreter := { program := some "python3" }

end ImportContext
