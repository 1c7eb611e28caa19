import ImportContext.Locate.Error
import ImportContext.Locate.Location
import ImportContext.Module.Layout

/-!
# Locating symbols in source text

A name is looked up in the file of its module: the last definition or assignment of the name at
the top level, else a submodule of that name, else what an import of the module binds to it. The
last step follows re-exports from module to module; all branches of one search share a list of
the pairs they have entered, which never grows beyond `maxEntries`.

Main definitions: `StaticModule.definition?`, `searchMember`, `locateStatic`.
-/

namespace ImportContext

open Source (Statement DefinitionKind LineSpan)

/-- The directories in which modules are looked for, in order. -/
abbrev SearchPath := List Path

/-- The paths without later ones that name the same place as an earlier one. -/
def SearchPath.ofPaths (paths : List Path) : SearchPath :=
  paths.foldl (fun seen p => if seen.any (·.same p) then seen else seen ++ [p]) []

/-- The search path of a module: its root, then further roots. -/
def SearchPath.forModule (l : ModuleLocation) (extra : List Path) : SearchPath :=
  .ofPaths (l.root :: extra)

/-- What binds a name at the top level of a module. -/
inductive BindingKind where
  | functionDef
  | classDef
  | assignment
deriving DecidableEq, Repr

/-- How a statement binds a name, and the lines it takes. -/
def Source.Statement.binding? (name : String) : Statement → Option (BindingKind × LineSpan)
  | .defining .functionDef n lines _ => if n == name then some (.functionDef, lines) else none
  | .defining .classDef n lines _ => if n == name then some (.classDef, lines) else none
  | .assigning names lines => if names.contains name then some (.assignment, lines) else none
  | _ => none

/-- A module file that was read. -/
structure StaticModule where
  path : Path
  lines : List String
  body : List Statement

namespace StaticModule

/-- Reads the file of a module. -/
def load (h : Host) (module : ModuleIdentity) (path : Path) : Except LocateError StaticModule :=
  match h.readText path with
  | .error e => .error (.unreadable path e)
  | .ok source =>
    match parseSource source with
    | .error e => .error (.malformed module.text e)
    | .ok body => .ok ⟨path, Text.splitLines source, body⟩

/-- The last statement that binds a name. -/
def binding? (m : StaticModule) (name : String) : Option (BindingKind × LineSpan) :=
  (m.body.filterMap (·.binding? name)).getLast?

/-- The lines of a span, from its first line to its last or that of the file. -/
def excerpt? (m : StaticModule) (span : LineSpan) : Option (List String) :=
  let last := max (min span.last m.lines.length) span.first
  if last ≤ m.lines.length then
    some ((m.lines.drop (span.first - 1)).take (last - (span.first - 1)))
  else none

/-- How a definition is described in one line. -/
def describe (kind : BindingKind) (qualified : String) (lines : List String) : String :=
  match kind with
  | .functionDef => "<function " ++ qualified ++ ">"
  | .classDef => "<class '" ++ qualified ++ "'>"
  | .assignment => Text.trim (lines.headD "")

/-- The location of a name that the module itself defines. -/
def definition? (m : StaticModule) (module : ModuleIdentity) (name : String) :
    Option SymbolLocation := do
  let (kind, span) ← m.binding? name
  let lines ← m.excerpt? span
  let qualified := (module.join name).text
  some { SymbolLocation.withSource m.path (UInt64.ofNat span.first) lines with
    representation := some (describe kind qualified lines)
    qualifiedName := some qualified }

/-- The imports outside functions and classes. -/
def imports (m : StaticModule) : Except LocateError (List ImportDeclaration) :=
  match moduleLevelImports m.body with
  | .ok ds => .ok ds
  | .error e => .error (.malformed m.path.text e)

end StaticModule

/-- The location of a whole module. -/
def moduleLocation (h : Host) (module : ModuleIdentity) (found : ModuleFile) :
    Except LocateError SymbolLocation :=
  match found.code? with
  | some path => do
    let m ← StaticModule.load h module path
    let base :=
      if m.lines.isEmpty then SymbolLocation.fileOnly path
      else SymbolLocation.withSource path 1 m.lines
    .ok { base with
      representation := some ("<module '" ++ module.text ++ "' from '" ++ path.text ++ "'>")
      qualifiedName := some module.text }
  | none =>
    .ok { SymbolLocation.fileOnly found.path with
      representation := some ("<module '" ++ module.text ++ "' (namespace)>")
      qualifiedName := some module.text }

/-- The location of a module that is looked up by its identity. -/
def locateModule (layout : PackageLayout) (h : Host) (roots : SearchPath)
    (module : ModuleIdentity) : Except LocateError SymbolLocation :=
  match layout.findModule h roots module with
  | some found => moduleLocation h module found
  | none => .ok .absent

/-- How many pairs of module and name one search may enter. -/
def maxEntries : Nat := 16

/-- The pairs of module and name that a search has entered. -/
abbrev Visited := List (ModuleIdentity × String)

/-- What one import declaration offers for a name. -/
inductive Lead where
  /-- A module bound to the name. -/
  | module (i : ModuleIdentity)
  /-- A member of another module. -/
  | member (i : ModuleIdentity) (name : String)
deriving DecidableEq, Repr

/-- Where a declaration of the module `current` leads for a name, if anywhere. -/
def Lead.of? (current : ModuleLocation) (name : String) (d : ImportDeclaration) : Option Lead :=
  match PackageLayout.resolve current d with
  | .error _ => none
  | .ok r =>
    match d with
    | .plain p =>
      if p.boundName == name then
        some (.module (if p.asName.isSome then r.module else .parse name))
      else none
    | .member m =>
      if m.isWildcard then some (.member r.module name)
      else if m.boundName == name then some (.member r.module m.symbol)
      else none

/-- Follows leads in order until one gives a location. `search` looks up a member. -/
def followLeads (layout : PackageLayout) (h : Host) (roots : SearchPath)
    (search : Visited → ModuleIdentity → String → Except LocateError (SymbolLocation × Visited)) :
    Visited → List Lead → Except LocateError (Option SymbolLocation × Visited)
  | visited, [] => .ok (none, visited)
  | visited, lead :: rest => do
    let (location, visited) ← match lead with
      | .module i => (locateModule layout h roots i).map fun l => (l, visited)
      | .member i name => search visited i name
    if location.isAbsent then followLeads layout h roots search visited rest
    else .ok (some location, visited)

/-- Looks up a name of a module; `fuel` bounds how deep re-exports are followed, and every level
enters a new pair. -/
def searchMember (layout : PackageLayout) (h : Host) (roots : SearchPath) :
    Nat → Visited → ModuleIdentity → String → Except LocateError (SymbolLocation × Visited)
  | 0, visited, _, _ => .ok (.absent, visited)
  | fuel + 1, visited, module, name =>
    if maxEntries ≤ visited.length || visited.contains (module, name) then .ok (.absent, visited)
    else do
      let visited := visited ++ [(module, name)]
      match layout.findModule h roots module with
      | none => .ok (.absent, visited)
      | some found =>
        let loaded ← match found.code? with
          | some path => (StaticModule.load h module path).map some
          | none => .ok none
        match loaded.bind fun m => m.definition? module name with
        | some location => .ok (location, visited)
        | none =>
          let submodule := module.join name
          match layout.findModule h roots submodule with
          | some sub => (moduleLocation h submodule sub).map fun l => (l, visited)
          | none =>
            let known : SymbolLocation :=
              { SymbolLocation.fileOnly found.path with qualifiedName := some submodule.text }
            match loaded with
            | none => .ok (known, visited)
            | some m => do
              let current : ModuleLocation :=
                { sourceFile := m.path, root := ⟨""⟩, identity := module,
                  isPackage := found.isPackage }
              let leads := (← m.imports).filterMap (Lead.of? current name)
              let (location, visited) ←
                followLeads layout h roots (searchMember layout h roots fuel) visited leads
              .ok (location.getD known, visited)

/-- The location of an import target in source text. -/
def locateStatic (layout : PackageLayout) (h : Host) (roots : SearchPath) (r : ResolvedImport) :
    Except LocateError SymbolLocation :=
  match r.symbol with
  | none => locateModule layout h roots r.module
  | some symbol =>
    if symbol == "*" then
      match layout.findModule h roots r.module with
      | some found =>
        .ok { SymbolLocation.fileOnly found.path with qualifiedName := some r.module.text }
      | none => .ok .absent
    else (searchMember layout h roots (maxEntries + 1) [] r.module symbol).map (·.1)

end ImportContext
