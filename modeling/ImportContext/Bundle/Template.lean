import ImportContext.Template.Node

/-!
# Built-in templates

The texts of the two formats: a head with the source file, and a block for every import.
-/

namespace ImportContext.BundleTemplate

/-- Prints a name. -/
def shown (name : String) : TemplateNode :=
  .output (.name name)

/-- A field of the import that a block is about. -/
def item (name : String) : TemplateExpr :=
  .field (.name "item") name

/-- Nodes that are shown when a name has a value that counts as true. -/
def whenSet (name : String) (nodes : List TemplateNode) : TemplateNode :=
  .branch [(.name name, nodes)] []

/-! ## Markdown -/

/-- Everything before the imports. -/
def markdownHead : List TemplateNode :=
  [shown "heading", .text " ", .output (.filter "titleize" (.name "title") [] []), .text "\n\n",
    whenSet "description" [shown "description", .text "\n\n"],
    .text "**Source File Location:** `", shown "source_file",
    .text "`\n\n**Package Namespace:** `", shown "package",
    .text "`\n\n**Relative Source File Location:** `", shown "relative_file", .text "`\n\n",
    whenSet "tree" [.text "Module directory tree:\n\n```\n", shown "tree", .text "\n```\n\n"],
    .text "**Complete Source Code:**\n\n```python\n", shown "source", .text "\n```\n"]

/-- What stands before the first import. -/
def markdownIntro : List TemplateNode :=
  [.text "\n", shown "subheading",
    .text (" Dependency Analysis - Import Statements and Their Implementations\n\n" ++
      "The following section contains all imported dependencies for package `"),
    shown "package",
    .text ("` along with their source code implementations. This information can be used as " ++
      "reference context for understanding the main code's functionality and dependencies.\n")]

/-- The block of one import. -/
def markdownBlock : List TemplateNode :=
  [.text "\n", shown "item_heading", .text " Import: `", .output (item "statement"), .text "`\n",
    .branch
      [(item "file",
        [.text "\n**Source File:** `", .output (item "file"),
          .text "`\n\n**Full Package Path:** `", .output (item "full_path"), .text "`\n"])]
      [],
    .branch
      [(item "diagnostic", [.text "\n**Error:** ", .output (item "diagnostic"), .text "\n"]),
        (item "source",
          [.text "\n**Implementation Source Code:**\n\n```python\n", .output (item "source"),
            .text "\n```\n"]),
        (item "representation",
          [.text ("\n**Note:** Source code is not available through static or runtime " ++
              "inspection. Below is the object representation:\n\n```\n"),
            .output (item "representation"), .text "\n```\n"])]
      [.text "\n**Note:** No definition could be located for this import.\n"]]

def markdown : List TemplateNode :=
  markdownHead ++
    [whenSet "imports"
      (markdownIntro ++ [.loop "item" (.name "imports") none markdownBlock []])]

/-! ## Plain text -/

/-- Everything before the imports. -/
def plainHead : List TemplateNode :=
  [.output (.filter "upper" (.filter "titleize" (.name "title") [] []) [] []), .text "\n",
    whenSet "description" [shown "description", .text "\n"],
    .text "\nSource file: ", shown "source_file", .text "\nPackage: ", shown "package",
    .text "\nRelative source file: ", shown "relative_file", .text "\n",
    whenSet "tree" [.text "\nModule directory tree:\n", shown "tree", .text "\n"],
    .text "\n-- source --\n", shown "source", .text "\n"]

/-- The block of one import. -/
def plainBlock : List TemplateNode :=
  [.text "\n-- import (line ", .output (item "line"), .text "): ", .output (item "statement"),
    .text "\n",
    .branch
      [(item "file",
        [.text "File: ", .output (item "file"), .text "\nFull path: ",
          .output (item "full_path"), .text "\n"])]
      [],
    .branch
      [(item "diagnostic", [.text "Error: ", .output (item "diagnostic"), .text "\n"]),
        (item "source", [.output (item "source"), .text "\n"]),
        (item "representation",
          [.text "Representation: ", .output (item "representation"), .text "\n"])]
      [.text "No definition located.\n"]]

def plain : List TemplateNode :=
  plainHead ++ [.loop "item" (.name "imports") none plainBlock []]

end ImportContext.BundleTemplate
