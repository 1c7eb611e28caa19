import ImportContext.Bundle.Section
import ImportContext.Bundle.Template
import ImportContext.Template.Reader

/-!
# Bundles

A bundle shows a source file together with the definitions of what it imports, as one text.

Main definitions: `loadUnit`, `Bundler.bundle`.
-/

namespace ImportContext

/-- A source file that was read. -/
structure SourceUnit where
  path : Path
  /-- The lines of the file, each with its own terminator. -/
  lines : List String
  declarations : List ImportDeclaration
deriving DecidableEq, Repr

/-- The text of the file. -/
def SourceUnit.source (u : SourceUnit) : String :=
  String.join u.lines

/-- Reads a source file and its imports. -/
def loadUnit (h : Host) (file : Path) : Except BundleError SourceUnit :=
  if file.text == "" then .error (.unreadable file .emptyPath)
  else
    let path := h.normalize file
    match h.readText path with
    | .error e => .error (.unreadable path e)
    | .ok source =>
      match extractImports source with
      | .error e => .error (.malformed path e)
      | .ok declarations => .ok ⟨path, Text.splitLines source, declarations⟩

structure Bundle where
  sourceFile : Path
  identity : ModuleIdentity
  text : String
  sections : List ImportSection
  /-- The imports that failed, in order. -/
  diagnostics : List Diagnostic
  /-- The size of the text, as far as it can be told. -/
  tokens : Option Nat
deriving DecidableEq, Repr

/-- What a template is told about a section. -/
def ImportSection.templateValue (s : ImportSection) : TemplateValue :=
  let fullPath := s.location.qualifiedName <|> s.target.map ModuleIdentity.text
  .record [
    ("diagnostic", .text? s.diagnostic),
    ("file", .text? (s.location.file.map Path.text)),
    ("full_path", .text? fullPath),
    ("line", .int s.declaration.pos.line),
    ("representation", .text? s.location.representation),
    ("source", .text? (s.location.sourceText.map Text.trimEnd)),
    ("statement", .string s.declaration.text)]

/-- A heading mark of the given level. -/
def headingMark (level : Nat) : String :=
  String.ofList (List.replicate level '#')

/-- The title above a bundle. -/
def bundleTitle : Option String → String
  | some name => name ++ " Source Code Analysis"
  | none => "Source Code Analysis"

/-- What a template is told about a bundle, apart from its sections. -/
def headScope (options : BundleOptions) (unit : SourceUnit) (location : ModuleLocation)
    (tree : Option String) : TemplateScope :=
  let level := max 1 (min options.headingLevel 4)
  [("heading", .string (headingMark level)),
    ("subheading", .string (headingMark (level + 1))),
    ("item_heading", .string (headingMark (level + 2))),
    ("title", .string (bundleTitle options.codeName)),
    ("description", .text? options.description),
    ("source_file", .string location.sourceFile.text),
    ("package", .string location.identity.text),
    ("relative_file", .string location.relativeFile.text),
    ("tree", .text? tree),
    ("source", .string (Text.trimEnd unit.source))]

/-- What a template is told about a bundle. -/
def bundleScope (options : BundleOptions) (unit : SourceUnit) (location : ModuleLocation)
    (tree : Option String) (sections : List ImportSection) : TemplateScope :=
  headScope options unit location tree ++
    [("imports", .list (sections.map ImportSection.templateValue))]

/-- The template of a name: a built-in one, or a file. -/
def findTemplate (h : Host) (name : String) : Except RenderError (List TemplateNode) :=
  match name with
  | "markdown" => .ok BundleTemplate.markdown
  | "plain" => .ok BundleTemplate.plain
  | _ =>
    if h.isFile ⟨name⟩ then
      match h.readText ⟨name⟩ with
      | .error e => .error (.unreadable ⟨name⟩ e)
      | .ok source =>
        match parseTemplate? source with
        | some nodes => .ok nodes
        | none => .error (.failed name)
    else .error (.notFound name)

/-- The text of a bundle. -/
def renderBundle (h : Host) (options : BundleOptions) (scope : TemplateScope) :
    Except RenderError String := do
  let name := options.template.getD options.format.name
  let nodes ← findTemplate h name
  match renderTemplate? nodes scope with
  | some text => .ok text
  | none => .error (.failed name)

/-- The label of the source file in its project tree. -/
def locationLabel : String := "My Location"

namespace Bundler

/-- The drawn tree of the project around a source file. -/
def projectTree (b : Bundler) (h : Host) (location : ModuleLocation) :
    Except BundleError String := do
  let rules ← (IgnoreRuleSet.ofPatterns b.options.ignorePatterns).mapError .ignore
  let focus := b.options.focus.insert locationLabel location.sourceFile
  let tree ← (buildTree h location.topLevelDir rules focus location.treeDepth).mapError .tree
  .ok tree.render

/-- The drawn tree of the project, if it is to be shown. -/
def shownTree (b : Bundler) (h : Host) (location : ModuleLocation) :
    Except BundleError (Option String) :=
  if b.options.showProjectTree then (b.projectTree h location).map some else .ok none

/-- The bundle that shows what was gathered for the imports of a source file. -/
def assemble (b : Bundler) (h : Host) (unit : SourceUnit) (location : ModuleLocation)
    (gathered : Gathered) : Except BundleError Bundle := do
  let tree ← b.shownTree h location
  let text ← (renderBundle h b.options
    (bundleScope b.options unit location tree gathered.sections)).mapError .render
  .ok {
    sourceFile := location.sourceFile
    identity := location.identity
    text
    sections := gathered.sections
    diagnostics := gathered.diagnostics
    tokens := b.options.tokenModel.count? text }

/-- The bundle of a source file. -/
def bundle (b : Bundler) (h : Host) (file : Path) : Except BundleError Bundle := do
  let unit ← loadUnit h file
  let location ← (b.layout.locate h unit.path).mapError (.resolution unit.path.text)
  let roots := SearchPath.forModule location b.searchPaths
  let gathered ← b.collect h location roots {} unit.declarations
  b.assemble h unit location gathered

end Bundler

end ImportContext
