import ImportContext.Dependency.Downloads
import ImportContext.Dependency.KnownModules
import ImportContext.Locate.Static

/-!
# Leaving out dependencies

Which imports are of too little interest to be shown: modules of the interpreter and the standard
library, unknown modules, and distributions that everybody knows.

Main definitions: `classifyModule`, `DependencyFilter.elides`.
-/

namespace ImportContext

inductive ModuleKind where
  | builtin
  | standard
  | thirdParty
deriving DecidableEq, Repr

/-- What is known of a top-level module. -/
structure ModuleInfo where
  kind : ModuleKind
  /-- The distribution that provides the module; code of the project itself has none. -/
  distribution : Option String := none
deriving DecidableEq, Repr

/-- What a classification rests on: the directories of installed packages and the download
table. -/
structure ModuleKnowledge where
  layout : PackageLayout := {}
  siteRoots : List Path := []
  downloads : DownloadTable := {}
deriving Inhabited

/-- The roots of a search path that hold code of the project. -/
def projectRoots (siteRoots : List Path) (roots : SearchPath) : List Path :=
  roots.filter fun root => !siteRoots.any (·.same root)

/-- What is known of a top-level module seen from a search path. -/
def classifyModule (k : ModuleKnowledge) (h : Host) (roots : SearchPath) (module : String) :
    Option ModuleInfo :=
  let identity := ModuleIdentity.parse module
  let distribution := distributionOf module
  if builtinModules.contains module then some { kind := .builtin }
  else if standardModules.contains module then some { kind := .standard }
  else if (k.layout.findModule h (projectRoots k.siteRoots roots) identity).isSome then
    some { kind := .thirdParty }
  else if (k.layout.findModule h k.siteRoots identity).isSome ||
      k.downloads.knows distribution then
    some { kind := .thirdParty, distribution := some distribution }
  else none

/-- Which imports are left out. -/
structure DependencyFilter where
  enabled : Bool := true
  threshold : Nat
  /-- Modules that are always left out. -/
  ignored : List String := []
  /-- Modules that are always kept, unless they are in `ignored`. -/
  kept : List String := []
  knowledge : ModuleKnowledge := {}
deriving Inhabited

namespace DependencyFilter

/-- The filter that keeps every import. -/
def disabled : DependencyFilter :=
  { enabled := false, threshold := 0 }

/-- Whether a module counts as too well known, or not known at all. -/
def dismisses (f : DependencyFilter) (h : Host) (roots : SearchPath) (module : String) : Bool :=
  match classifyModule f.knowledge h roots module with
  | none => true
  | some info =>
    match info.kind with
    | .thirdParty =>
      info.distribution.any fun d => f.knowledge.downloads.isPopular d f.threshold
    | _ => true

/-- Whether an import is left out. -/
def elides (f : DependencyFilter) (h : Host) (roots : SearchPath) (d : ImportDeclaration) : Bool :=
  if !f.enabled || d.isRelative then false
  else if f.ignored.contains d.rootModule then true
  else if f.kept.contains d.rootModule then false
  else f.dismisses h roots d.rootModule

end DependencyFilter

end ImportContext
