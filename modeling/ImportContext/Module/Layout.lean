import ImportContext.FileSystem.Host
import ImportContext.Import.Declaration
import ImportContext.Module.Identity

/-!
# Packages on disk

A directory is a package when it holds the marker file. A source file belongs to the packages
above it without a gap; the first directory above them is its root. From there come the file's
own identity, the targets of its imports, and the file of any other module.

Main definitions: `PackageLayout.locate`, `PackageLayout.resolve`, `PackageLayout.findModule`.
-/

namespace ImportContext

/-- The name of the marker file and the extension of source files. -/
structure PackageLayout where
  marker : String := "__init__.py"
  extension : String := "py"
deriving DecidableEq, Repr, Inhabited

/-- A layout whose extension is written with or without leading dots. -/
def PackageLayout.ofNames (marker extension : String) : PackageLayout :=
  ⟨marker, String.ofList (extension.toList.dropWhile (· == '.'))⟩

/-- Why an import or a file has no module identity. -/
inductive ResolutionError where
  | beyondTopLevel (module : String) (depth : Nat)
  | noParentPackage (module : String)
  | unknownModule (module : String)
  | emptyIdentity (path : Path)
deriving DecidableEq, Repr

/-- The wording of a resolution error. -/
def ResolutionError.message : ResolutionError → String
  | beyondTopLevel module depth =>
    "relative import of depth " ++ toString depth ++ " from '" ++ module ++
      "' reaches beyond the top-level package"
  | noParentPackage module =>
    "relative import in '" ++ module ++ "' which is not inside a package"
  | unknownModule module => "no module named '" ++ module ++ "'"
  | emptyIdentity path => "cannot derive a module identity for " ++ path.text

/-- A source file, its identity and the root it is counted from. -/
structure ModuleLocation where
  sourceFile : Path
  root : Path
  identity : ModuleIdentity
  /-- The file is a marker and stands for its directory. -/
  isPackage : Bool
deriving DecidableEq, Repr

namespace ModuleLocation

/-- The source file as seen from the root. -/
def relativeFile (l : ModuleLocation) : Path :=
  (l.sourceFile.stripBase? l.root).getD l.sourceFile

/-- The package at which relative imports are anchored. -/
def packageSegments (l : ModuleLocation) : List String :=
  if l.isPackage then l.identity.segments else l.identity.segments.dropLast

/-- The directory of the outermost package, or the root for a file outside any package. -/
def topLevelDir (l : ModuleLocation) : Path :=
  match l.identity.segments with
  | first :: rest => if !rest.isEmpty || l.isPackage then l.root.child first else l.root
  | [] => l.root

/-- How deep a project tree may go: a file outside any package only lists its directory. -/
def treeDepth (l : ModuleLocation) : Option Nat :=
  if l.identity.segments.length ≤ 1 && !l.isPackage then some 1 else none

end ModuleLocation

/-- The absolute target of an import; `symbol` is the member, `*` for all of them. -/
structure ResolvedImport where
  module : ModuleIdentity
  symbol : Option String
deriving DecidableEq, Repr

/-- The identity of the imported object. -/
def ResolvedImport.target (r : ResolvedImport) : ModuleIdentity :=
  match r.symbol with
  | some s => if s == "*" then r.module else r.module.join s
  | none => r.module

/-- A module found on disk. -/
inductive ModuleFile where
  | source (path : Path)
  /-- A package, by its marker file. -/
  | package (path : Path)
  /-- A directory without a marker. -/
  | namespace (path : Path)
deriving DecidableEq, Repr

namespace ModuleFile

def path : ModuleFile → Path
  | source p => p
  | package p => p
  | «namespace» p => p

/-- The file with the module's code. -/
def code? : ModuleFile → Option Path
  | source p => some p
  | package p => some p
  | «namespace» _ => none

def isPackage : ModuleFile → Bool
  | package _ => true
  | _ => false

end ModuleFile

namespace PackageLayout

/-- Climbs from a directory to the first one without the marker. The names are those of the
directory, innermost first. -/
def climb (layout : PackageLayout) (h : Host) : List String → List String
  | [] => []
  | name :: above =>
    if h.isFile ((Path.ofNames (name :: above).reverse).child layout.marker) then
      layout.climb h above
    else name :: above

/-- The last segment of a file's identity: its name without the extension of source files, or
without any other extension. -/
def moduleName (layout : PackageLayout) (fileName : String) : String :=
  let suffix := ("." ++ layout.extension).toList
  let cs := fileName.toList
  if suffix.isSuffixOf cs then String.ofList (cs.take (cs.length - suffix.length))
  else Path.stem fileName

/-- The identity of a source file and the root it is counted from. -/
def locate (layout : PackageLayout) (h : Host) (file : Path) :
    Except ResolutionError ModuleLocation :=
  let source := h.normalize file
  let names := source.names
  match names.reverse with
  | [] => .error (.emptyIdentity source)
  | fileName :: above =>
    let root := (layout.climb h above).reverse
    let isPackage := fileName == layout.marker
    let packages := (names.drop root.length).dropLast
    let segments := if isPackage then packages else packages ++ [layout.moduleName fileName]
    if segments.isEmpty then .error (.emptyIdentity source)
    else
      .ok {
        sourceFile := source
        root := Path.ofNames root
        identity := ⟨segments⟩
        isPackage }

/-- The absolute identity of a relative import: depth 1 names the package of the importing
module, each further level the package around it. -/
def resolveRelative (current : ModuleLocation) (depth : Nat) (modulePath : String) :
    Except ResolutionError ModuleIdentity :=
  if depth = 0 then .ok (.parse modulePath)
  else
    let package := current.packageSegments
    if package.isEmpty then .error (.noParentPackage current.identity.text)
    else if package.length < depth then
      .error (.beyondTopLevel current.identity.text depth)
    else .ok (ModuleIdentity.join ⟨package.take (package.length - (depth - 1))⟩ modulePath)

/-- The absolute target of a declaration. -/
def resolve (current : ModuleLocation) (d : ImportDeclaration) :
    Except ResolutionError ResolvedImport :=
  match d with
  | .plain d => .ok ⟨.parse d.modulePath, none⟩
  | .member d => do
    let module ←
      if d.isRelative then resolveRelative current d.depth d.modulePath
      else .ok (.parse d.modulePath)
    .ok ⟨module, some d.symbol⟩

/-- The directory of a module's parents under a root. -/
def parentDir (root : Path) (parents : List String) : Path :=
  parents.foldl Path.child root

/-- A package or source file with the given last segment in a directory. -/
def findRegular (layout : PackageLayout) (h : Host) (last : String) (dir : Path) :
    Option ModuleFile :=
  let marker := (dir.child last).child layout.marker
  let file := dir.child (last ++ "." ++ layout.extension)
  if h.isFile marker then some (.package marker)
  else if h.isFile file then some (.source file)
  else none

/-- A directory with the given last segment. -/
def findNamespace (h : Host) (last : String) (dir : Path) : Option ModuleFile :=
  if h.isDirectory (dir.child last) then some (.namespace (dir.child last)) else none

/-- The file of a module under search roots. Packages and source files of any root win over bare
directories of any root. -/
def findModule (layout : PackageLayout) (h : Host) (roots : List Path) (i : ModuleIdentity) :
    Option ModuleFile :=
  match i.segments.getLast? with
  | none => none
  | some last =>
    let dirs := roots.map fun root => parentDir root i.segments.dropLast
    match dirs.findSome? (layout.findRegular h last) with
    | some found => some found
    | none => dirs.findSome? (findNamespace h last)

end PackageLayout

end ImportContext
