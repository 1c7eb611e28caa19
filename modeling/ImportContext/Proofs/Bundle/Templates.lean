import ImportContext.Bundle.Build
import ImportContext.Proofs.Template.Reading

/-!
# The built-in templates as they are written

The sources of the two formats, and that they are read as the nodes that a bundle is rendered
from: with the line of every tag gone and nothing else.

Results:
* `parseTemplate?_source`: the nodes of each source.
-/

namespace ImportContext

open Template

/-! ## Nodes as segments -/

/-- The tokens of a name, field or filter. -/
def exprTokens : TemplateExpr → List TemplateToken
  | .name s => [.word s]
  | .field e key => exprTokens e ++ [.mark ".", .word key]
  | .filter f e _ _ => exprTokens e ++ [.mark "|", .word f]
  | _ => []

mutual

def nodeSegments : TemplateNode → List TemplateSegment
  | .text s => [.text s]
  | .output e => [.output (exprTokens e)]
  | .branch cases otherwise =>
    caseSegments "if" cases ++ (if otherwise.isEmpty then [] else
      .tag [.word "else"] :: nodesSegments otherwise) ++ [.tag [.word "endif"]]
  | .loop target source _ body _ =>
    .tag ([.word "for", .word target, .word "in"] ++ exprTokens source) ::
      (nodesSegments body ++ [.tag [.word "endfor"]])
  | .assign _ _ => []

def nodesSegments : List TemplateNode → List TemplateSegment
  | [] => []
  | node :: nodes => nodeSegments node ++ nodesSegments nodes

/-- The cases of a branch, the first one with the given word. -/
def caseSegments (word : String) :
    List (TemplateExpr × List TemplateNode) → List TemplateSegment
  | [] => []
  | (test, nodes) :: cases =>
    .tag (.word word :: exprTokens test) :: (nodesSegments nodes ++ caseSegments "elif" cases)

end

/-! ## The sources -/

/-- An expression between braces. -/
def printed (e : String) : String :=
  "\x7b\x7b " ++ e ++ " \x7d\x7d"

/-- A tag on a line of its own. -/
def tagLine (tag : String) : String :=
  "\x7b% " ++ tag ++ " %\x7d\n"

namespace BundleFormat

/-- The source of a template, piece by piece. -/
def sourcePieces : BundleFormat → List String
  | markdown =>
    [printed "heading", " ", printed "title | titleize", "\n\n",
      tagLine "if description", printed "description", "\n\n", tagLine "endif",
      "**Source File Location:** `", printed "source_file",
      "`\n\n**Package Namespace:** `", printed "package",
      "`\n\n**Relative Source File Location:** `", printed "relative_file", "`\n\n",
      tagLine "if tree", "Module directory tree:\n\n```\n", printed "tree", "\n```\n\n",
      tagLine "endif",
      "**Complete Source Code:**\n\n```python\n", printed "source", "\n```\n",
      tagLine "if imports", "\n", printed "subheading",
      " Dependency Analysis - Import Statements and Their Implementations\n\n" ++
        "The following section contains all imported dependencies for package `",
      printed "package",
      "` along with their source code implementations. This information can be used as " ++
        "reference context for understanding the main code's functionality and dependencies.\n",
      tagLine "for item in imports",
      "\n", printed "item_heading", " Import: `", printed "item.statement", "`\n",
      tagLine "if item.file", "\n**Source File:** `", printed "item.file",
      "`\n\n**Full Package Path:** `", printed "item.full_path", "`\n", tagLine "endif",
      tagLine "if item.diagnostic", "\n**Error:** ", printed "item.diagnostic", "\n",
      tagLine "elif item.source", "\n**Implementation Source Code:**\n\n```python\n",
      printed "item.source", "\n```\n",
      tagLine "elif item.representation",
      "\n**Note:** Source code is not available through static or runtime " ++
        "inspection. Below is the object representation:\n\n```\n",
      printed "item.representation", "\n```\n",
      tagLine "else", "\n**Note:** No definition could be located for this import.\n",
      tagLine "endif", tagLine "endfor", tagLine "endif"]
  | plain =>
    [printed "title | titleize | upper", "\n",
      tagLine "if description", printed "description", "\n", tagLine "endif",
      "\nSource file: ", printed "source_file", "\nPackage: ", printed "package",
      "\nRelative source file: ", printed "relative_file", "\n",
      tagLine "if tree", "\nModule directory tree:\n", printed "tree", "\n", tagLine "endif",
      "\n-- source --\n", printed "source", "\n",
      tagLine "for item in imports",
      "\n-- import (line ", printed "item.line", "): ", printed "item.statement", "\n",
      tagLine "if item.file", "File: ", printed "item.file", "\nFull path: ",
      printed "item.full_path", "\n", tagLine "endif",
      tagLine "if item.diagnostic", "Error: ", printed "item.diagnostic", "\n",
      tagLine "elif item.source", printed "item.source", "\n",
      tagLine "elif item.representation", "Representation: ", printed "item.representation", "\n",
      tagLine "else", "No definition located.\n", tagLine "endif", tagLine "endfor"]

/-- The source of a template. -/
def source (format : BundleFormat) : String :=
  String.join format.sourcePieces

/-- The nodes of a template. -/
def template : BundleFormat → List TemplateNode
  | markdown => BundleTemplate.markdown
  | plain => BundleTemplate.plain

variable {format : BundleFormat}

theorem source_eq : format.source =
    String.join ((nodesSegments format.template).map writeSegment) := by
  cases format <;> rfl

theorem isWritable_template : isWritable (nodesSegments format.template) = true := by
  cases format <;> decide +kernel

theorem parseNodes_template :
    parseNodes (4 * ((nodesSegments format.template).length + 1)) (nodesSegments format.template) =
      some (format.template, .finish, []) := by
  cases format <;> rfl

/-- The source of a template is read as its nodes. -/
theorem parseTemplate?_source : parseTemplate? format.source = some format.template := by
  rw [parseTemplate?, source_eq, templateSegments?_written isWritable_template]
  simp only [Option.bind_eq_bind, Option.bind_some, parseNodes_template]

end BundleFormat

end ImportContext
