/-!
# Project trees

A tree of named nodes, some of which carry a label, and its text: one line per node, drawn with
connectors.

Main definitions: `TreeNode`, `TreeNode.render`.
-/

namespace ImportContext

inductive TreeNode where
  | file (name : String) (label : Option String)
  | directory (name : String) (label : Option String) (children : List TreeNode)
deriving Inhabited

namespace TreeNode

def name : TreeNode → String
  | file n _ => n
  | directory n _ _ => n

def label : TreeNode → Option String
  | file _ l => l
  | directory _ l _ => l

def children : TreeNode → List TreeNode
  | file _ _ => []
  | directory _ _ cs => cs

def isDirectory : TreeNode → Bool
  | file _ _ => false
  | directory _ _ _ => true

/-- The first child of the given name. -/
def child? (t : TreeNode) (name : String) : Option TreeNode :=
  t.children.find? (·.name == name)

/-- The name and the label of a node as one text. -/
def caption (name : String) : Option String → String
  | some l => name ++ " <-- (" ++ l ++ ")"
  | none => name

/-- The lines of a node drawn as a child: its caption behind a connector, and what is below it
behind a bar or blanks. -/
def drawnBelow (isLast : Bool) : List String → List String
  | [] => []
  | first :: rest =>
    ((if isLast then "└── " else "├── ") ++ first) ::
      rest.map ((if isLast then "    " else "│   ") ++ ·)

mutual

/-- The lines of a tree. -/
def lines : TreeNode → List String
  | file name label => [caption name label]
  | directory name label children => caption name label :: childLines children

/-- The lines of the children of a node. -/
def childLines : List TreeNode → List String
  | [] => []
  | t :: rest => drawnBelow rest.isEmpty t.lines ++ childLines rest

end

/-- The text of a tree, without a newline at its end. -/
def render (t : TreeNode) : String :=
  String.intercalate "\n" t.lines

end TreeNode

end ImportContext
