import ImportContext.Bundle.Format
import ImportContext.Bundle.Tokens
import ImportContext.Config.Basic
import ImportContext.Dependency.Filter
import ImportContext.Locate.Locator

/-!
# Options of a bundle

What goes into a bundle and how it is shown, and the parts that a bundler works with. Both can be
read off a configuration.

Main definitions: `BundleOptions.ofConfig`, `Bundler.ofConfig`.
-/

namespace ImportContext

structure BundleOptions where
  format : BundleFormat := .markdown
  /-- The name or file of a template that replaces the one of the format. -/
  template : Option String := none
  headingLevel : Nat := 2
  codeName : Option String := none
  description : Option String := none
  showProjectTree : Bool := false
  /-- Imports that fail are reported in the bundle instead of ending the run. -/
  skipWhenError : Bool := true
  ignorePatterns : List String := []
  focus : FocusItems := {}
  tokenModel : TokenModel := .gpt4o
deriving Inhabited

/-- Why a configuration cannot be used. -/
inductive SetupError where
  | format (message : String)
  | tokenModel (message : String)
  | locator (message : String)
  | downloads (cause : TableFileError)
deriving DecidableEq, Repr

/-- The wording of an error, its causes behind it. -/
def SetupError.message : SetupError → String
  | format message => "invalid [defaults] format: " ++ message
  | tokenModel message => "invalid [defaults] token_model: " ++ message
  | locator message => "invalid [defaults] locator: " ++ message
  | downloads cause => cause.message

/-- The options that a configuration asks for. -/
def BundleOptions.ofConfig (c : Config) : Except SetupError BundleOptions := do
  let format ← (BundleFormat.ofName c.defaults.formatName).mapError .format
  let tokenModel ← (TokenModel.ofName c.defaults.tokenModelName).mapError .tokenModel
  let name := Text.trim c.defaults.codeNameText
  .ok {
    format
    template := c.defaults.template
    headingLevel := c.defaults.level
    codeName := if name == "" then none else some name
    description := c.defaults.description
    showProjectTree := c.defaults.showsTree
    skipWhenError := c.defaults.skips
    ignorePatterns := c.ignorePatterns
    focus := c.focus
    tokenModel }

/-- Everything that is needed to make bundles. -/
structure Bundler where
  layout : PackageLayout := {}
  locator : Locator := {}
  filter : DependencyFilter := .disabled
  /-- Roots that are searched after the root of the source file. -/
  searchPaths : List Path := []
  options : BundleOptions := {}
deriving Inhabited

/-- The filter that a configuration asks for. -/
def DependencyFilter.ofConfig (h : Host) (c : Config) : Except SetupError DependencyFilter :=
  if !c.filter.isEnabled then .ok .disabled
  else do
    let table := DownloadTable.ofPopular c.filter.popularPackages
    let downloads ← match c.filter.downloadsTable with
      | some path => (table.addTableFile h path).mapError .downloads
      | none => .ok table
    .ok {
      threshold := c.filter.threshold
      ignored := c.filter.ignoreModules
      kept := c.filter.noIgnoreModules
      knowledge := { siteRoots := c.interpreter.searchPaths, downloads } }

/-- The bundler that a configuration asks for. -/
def Bundler.ofConfig (h : Host) (c : Config) (options : BundleOptions) :
    Except SetupError Bundler := do
  let kind ← (LocatorKind.ofName c.defaults.locatorName).mapError .locator
  let filter ← DependencyFilter.ofConfig h c
  .ok {
    locator := { kind, program := c.interpreter.programName }
    filter
    searchPaths := c.interpreter.searchPaths
    options }

end ImportContext
