import ImportContext.Bundle.Error
import ImportContext.Bundle.Options

/-!
# Sections of a bundle

A section says where one import of the source file leads. The imports are taken one after the
other; one that fails is reported in its section and in a list of diagnostics, or ends the run.

The walk over the imports works with any locator and any choice of imports to leave out
(`ImportInquiry`). A bundler brings its own (`Bundler.inquiry`).

Main definitions: `ImportInquiry.sectionFor`, `ImportInquiry.collect`.
-/

namespace ImportContext

/-- What was found for one import. -/
structure ImportSection where
  declaration : ImportDeclaration
  /-- The imported object; `none` when the import failed. -/
  target : Option ModuleIdentity
  location : SymbolLocation
  /-- Why the import failed. -/
  diagnostic : Option String := none
deriving DecidableEq, Repr

/-- An import that failed. -/
structure Diagnostic where
  statement : String
  line : Nat
  message : String
deriving DecidableEq, Repr

/-- The diagnostic as one line. -/
def Diagnostic.text (d : Diagnostic) : String :=
  "line " ++ toString d.line ++ ": " ++ d.message

/-- The diagnostic of an import that failed. -/
def Diagnostic.of (d : ImportDeclaration) (e : BundleError) : Diagnostic :=
  ⟨d.text, d.pos.line, e.message⟩

/-- The section of an import that failed. -/
def ImportSection.failed (d : ImportDeclaration) (diagnostic : Diagnostic) : ImportSection :=
  { declaration := d, target := none, location := .absent,
    diagnostic := some diagnostic.message }

/-- What a walk over the imports has gathered, in order. -/
structure Gathered where
  sections : List ImportSection := []
  diagnostics : List Diagnostic := []
deriving DecidableEq, Repr

namespace Gathered

/-- One more import that was found. -/
def addSection (g : Gathered) (s : ImportSection) : Gathered :=
  { g with sections := g.sections ++ [s] }

/-- One more import that failed. -/
def addFailure (g : Gathered) (d : ImportDeclaration) (e : BundleError) : Gathered :=
  let diagnostic := Diagnostic.of d e
  { sections := g.sections ++ [.failed d diagnostic],
    diagnostics := g.diagnostics ++ [diagnostic] }

end Gathered

/-- What a walk over the imports of a file asks, and whom. -/
structure ImportInquiry where
  /-- The file with the imports. -/
  location : ModuleLocation
  /-- Whether an import is left out. -/
  elides : ImportDeclaration → Bool
  /-- The file of a module. -/
  findModule : ModuleIdentity → Option ModuleFile
  /-- The locator: where an imported object is defined. -/
  locate : ResolvedImport → Except LocateError SymbolLocation
  /-- Whether the walk goes on behind an import that fails. -/
  goesOn : Bool

namespace ImportInquiry

/-- The section of an import, or why it failed. A relative import of a module that does not exist
fails; other modules may be absent. -/
def sectionFor (q : ImportInquiry) (d : ImportDeclaration) : Except BundleError ImportSection := do
  let resolved ← (PackageLayout.resolve q.location d).mapError (.resolution d.text)
  if d.isRelative && (q.findModule resolved.module).isNone then
    .error (.resolution d.text (.unknownModule resolved.module.text))
  else
    let found ← (q.locate resolved).mapError (.locate d.text)
    .ok { declaration := d, target := some resolved.target, location := found }

/-- Takes the imports one after the other, without those that are left out. A failure that concerns
one import only is recorded if the walk goes on behind it; any other ends the walk. -/
def collect (q : ImportInquiry) : Gathered → List ImportDeclaration → Except BundleError Gathered
  | g, [] => .ok g
  | g, d :: rest =>
    if q.elides d then collect q g rest
    else
      match q.sectionFor d with
      | .ok s => collect q (g.addSection s) rest
      | .error e =>
        if q.goesOn && e.isRecoverable then collect q (g.addFailure d e) rest else .error e

end ImportInquiry

namespace Bundler

/-- What a bundler asks about the imports of a file: its own layout, filter and locator. -/
def inquiry (b : Bundler) (h : Host) (location : ModuleLocation) (roots : SearchPath) :
    ImportInquiry where
  location
  elides := b.filter.elides h roots
  findModule := b.layout.findModule h roots
  locate := b.locator.locate h roots
  goesOn := b.options.skipWhenError

/-- The section of an import, or why it failed. -/
def sectionFor (b : Bundler) (h : Host) (location : ModuleLocation) (roots : SearchPath)
    (d : ImportDeclaration) : Except BundleError ImportSection :=
  (b.inquiry h location roots).sectionFor d

/-- Takes the imports of a file one after the other. -/
def collect (b : Bundler) (h : Host) (location : ModuleLocation) (roots : SearchPath)
    (g : Gathered) (ds : List ImportDeclaration) : Except BundleError Gathered :=
  (b.inquiry h location roots).collect g ds

end Bundler

end ImportContext
